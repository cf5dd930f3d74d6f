import Managed.ParameterNames

namespace Managed.ParameterNames

section Single

variable (names : ParameterNames)

theorem toList_ofMethod (isStatic : Bool) (declared : List String) :
    (ofMethod isStatic declared).toList = if isStatic then declared else "_this" :: declared := by
  cases isStatic <;> rfl

theorem length_eq : names.length = names.toList.length := by
  rw [length, toList]
  split <;> rfl

theorem next_eq_head? : names.next.1 = names.toList.head? := by
  rw [next, toList]
  split
  · rfl
  · cases names.declared <;> rfl

theorem toList_next : names.next.2.toList = names.toList.tail := by
  obtain ⟨hasThis, declared⟩ := names
  cases hasThis with
  | true => rfl
  | false => cases declared <;> rfl

end Single

def Query.reads (number : Nat) : Query → Bool
  | .next asked | .length asked | .rest asked => asked = number
  | .clone _ => false

def Answer.given : Answer → List String
  | .name given => given.toList
  | .names given => given
  | .count _ | .unknown => []

variable {iterators others : List ParameterNames} {names : ParameterNames} {number : Nat}
  {query : Query}

theorem getElem?_set_here (here : iterators[number]? = some names) (later : ParameterNames) :
    (iterators.set number later)[number]? = some later :=
  List.getElem?_set_self (List.getElem?_eq_some_iff.mp here).1

theorem ask_unknown (reads : query.reads number = true) (unknown : iterators[number]? = none) :
    ask iterators query = (.unknown, iterators) := by
  cases query with
  | next asked | length asked | rest asked =>
    obtain rfl : asked = number := of_decide_eq_true reads
    rw [ask, unknown]
  | clone asked => cases reads

/-- What an iterator replies depends on nothing but itself, and what it gives comes off the front of
    the names that it has left. -/
theorem exists_reply (reads : query.reads number = true) :
    ∃ reply : ParameterNames → Answer × ParameterNames,
      (∀ names, names.toList = (reply names).1.given ++ (reply names).2.toList) ∧
      ∀ iterators names, iterators[number]? = some names →
        ask iterators query = ((reply names).1, iterators.set number (reply names).2) := by
  cases query with
  | next asked =>
    obtain rfl : asked = number := of_decide_eq_true reads
    refine ⟨fun names => (.name names.next.1, names.next.2), fun names => ?_, ?_⟩
    · dsimp only [Answer.given]
      rw [next_eq_head?, toList_next]
      cases names.toList <;> rfl
    · intro iterators names here
      rw [ask, here]
  | length asked =>
    obtain rfl : asked = number := of_decide_eq_true reads
    refine ⟨fun names => (.count names.length, names), fun names => rfl, ?_⟩
    intro iterators names here
    obtain ⟨inside, rfl⟩ := List.getElem?_eq_some_iff.mp here
    rw [ask, here, List.set_getElem_self]
  | rest asked =>
    obtain rfl : asked = number := of_decide_eq_true reads
    refine ⟨fun names => (.names names.drain.1, names.drain.2), fun names => ?_, ?_⟩
    · exact (List.append_nil _).symm
    · intro iterators names here
      rw [ask, here]
  | clone asked => cases reads

/-- Whoever is not asked stays as it is. -/
theorem ask_spares (here : iterators[number]? = some names) (spared : query.reads number = false) :
    (ask iterators query).2[number]? = some names := by
  cases query with
  | next asked | rest asked =>
    have other : asked ≠ number := of_decide_eq_false spared
    rw [ask]
    split
    · rw [List.getElem?_set_ne other, here]
    · exact here
  | length asked =>
    rw [ask]
    split <;> exact here
  | clone asked =>
    rw [ask]
    split
    · rw [List.getElem?_append_left (List.getElem?_eq_some_iff.mp here).1, here]
    · exact here

def answersOf (number : Nat) (iterators : List ParameterNames) (queries : List Query) :
    List Answer :=
  ((queries.zip (askAll iterators queries).1).filter fun event => event.1.reads number).map (·.2)

theorem answersOf_cons_reads (queries : List Query) (reads : query.reads number = true) :
    answersOf number iterators (query :: queries) =
      (ask iterators query).1 :: answersOf number (ask iterators query).2 queries := by
  simp [answersOf, askAll, reads]

theorem answersOf_cons_spares (queries : List Query) (spared : query.reads number = false) :
    answersOf number iterators (query :: queries) =
      answersOf number (ask iterators query).2 queries := by
  simp [answersOf, askAll, spared]

/-- An iterator answers as it would if nobody asked the others or made clones. -/
theorem answersOf_alone (here : iterators[number]? = some names)
    (there : others[number]? = some names) (queries : List Query) :
    answersOf number iterators queries =
      (askAll others (queries.filter fun query => query.reads number)).1 := by
  -- The two collections need to have nothing but this iterator in common, and every query that is
  -- asked of both or of the first alone keeps it so.
  induction queries generalizing iterators others names with
  | nil => rfl
  | cons query rest ih =>
    cases reads : query.reads number with
    | true =>
      obtain ⟨reply, -, replies⟩ := exists_reply reads
      rw [answersOf_cons_reads rest reads, List.filter_cons_of_pos reads, askAll,
        replies iterators names here, replies others names there]
      exact congrArg _ (ih (getElem?_set_here here _) (getElem?_set_here there _))
    | false =>
      rw [answersOf_cons_spares rest reads, List.filter_cons_of_neg (by simp [reads])]
      exact ih (ask_spares here reads) there

/-- The names that an iterator gives in the course of any queries and those that it has left then
    are the names that it had left before. -/
theorem left_askAll (here : iterators[number]? = some names) (queries : List Query) :
    ∃ later, (askAll iterators queries).2[number]? = some later ∧
      names.toList = (answersOf number iterators queries).flatMap Answer.given ++ later.toList := by
  induction queries generalizing iterators names with
  | nil => exact ⟨names, here, rfl⟩
  | cons query rest ih =>
    rw [askAll]
    cases reads : query.reads number with
    | true =>
      obtain ⟨reply, gives, replies⟩ := exists_reply reads
      rw [answersOf_cons_reads rest reads, replies iterators names here]
      obtain ⟨later, there, left⟩ := ih (getElem?_set_here here (reply names).2)
      refine ⟨later, there, ?_⟩
      rw [gives names, left, List.flatMap_cons, List.append_assoc]
    | false =>
      rw [answersOf_cons_spares rest reads]
      exact ih (ask_spares here reads)

structure Stands (iterators : List ParameterNames) (number : Nat) (left : List String) : Prop where
  length : (ask iterators (.length number)).1 = .count left.length
  rest : (ask iterators (.rest number)).1 = .names left
  nexts : ∀ count, (askAll iterators (List.replicate count (.next number))).1 =
    (List.range count).map fun index => .name left[index]?

theorem nexts_answers (here : iterators[number]? = some names) (count : Nat) :
    (askAll iterators (List.replicate count (.next number))).1 =
      (List.range count).map fun index => .name names.toList[index]? := by
  induction count generalizing iterators names with
  | zero => rfl
  | succ count ih =>
    have asked : ask iterators (.next number) =
        (.name names.next.1, iterators.set number names.next.2) := by rw [ask, here]
    rw [List.replicate_succ, askAll, asked]
    dsimp only
    rw [ih (getElem?_set_here here _), List.range_succ_eq_map, List.map_cons, List.map_map,
      next_eq_head?, toList_next, List.head?_eq_getElem?]
    refine congrArg _ (List.map_congr_left fun index _ => ?_)
    rw [Function.comp_apply, List.getElem?_tail]

theorem stands (here : iterators[number]? = some names) :
    Stands iterators number names.toList where
  length := by rw [ask, here, ← length_eq]
  rest := by rw [ask, here]; rfl
  nexts := nexts_answers here

/-- What can be seen of an iterator from outside: the names that were behind its original when it
    was cloned, and those that it has given itself. -/
structure Course where
  before : List String := []
  given : List String := []
deriving DecidableEq, Repr

def record (courses : List Course) : Query → Answer → List Course
  | .clone number, _ =>
    match courses[number]? with
    | some course => courses ++ [{ before := course.before ++ course.given }]
    | none => courses
  | .next number, answer | .length number, answer | .rest number, answer =>
    courses.modify number fun course => { course with given := course.given ++ answer.given }

theorem record_reads {courses : List Course} {answer : Answer}
    (reads : query.reads number = true) : record courses query answer =
      courses.modify number fun course => { course with given := course.given ++ answer.given } := by
  cases query with
  | next asked | length asked | rest asked =>
    obtain rfl : asked = number := of_decide_eq_true reads
    rfl
  | clone asked => cases reads

def recordAll (courses : List Course) (queries : List Query) (answers : List Answer) :
    List Course :=
  (queries.zip answers).foldl (fun courses event => record courses event.1 event.2) courses

structure Covers (all : List String) (courses : List Course) (iterators : List ParameterNames) :
    Prop where
  sizes : courses.length = iterators.length
  parts : ∀ (number : Nat) (course : Course) (names : ParameterNames),
    courses[number]? = some course → iterators[number]? = some names →
      course.before ++ course.given ++ names.toList = all

variable {all : List String} {courses : List Course}

theorem Covers.of_none (covers : Covers all courses iterators)
    (unknown : iterators[number]? = none) : courses[number]? = none := by
  rw [List.getElem?_eq_none_iff] at unknown ⊢
  rwa [covers.sizes]

theorem Covers.course (covers : Covers all courses iterators)
    (here : iterators[number]? = some names) : ∃ course, courses[number]? = some course := by
  obtain ⟨inside, -⟩ := List.getElem?_eq_some_iff.mp here
  exact ⟨_, List.getElem?_eq_getElem (covers.sizes ▸ inside)⟩

theorem Covers.iterator (covers : Covers all courses iterators) {course : Course}
    (known : courses[number]? = some course) : ∃ names, iterators[number]? = some names := by
  obtain ⟨inside, -⟩ := List.getElem?_eq_some_iff.mp known
  exact ⟨_, List.getElem?_eq_getElem (covers.sizes ▸ inside)⟩

/-- Names go over from what an iterator has left to what it has given. -/
theorem Covers.give (covers : Covers all courses iterators)
    (here : iterators[number]? = some names) {given : List String} {later : ParameterNames}
    (gives : names.toList = given ++ later.toList) :
    Covers all
      (courses.modify number fun course => { course with given := course.given ++ given })
      (iterators.set number later) where
  sizes := by rw [List.length_modify, List.length_set, covers.sizes]
  parts := by
    intro other course names' ahead there
    by_cases same : number = other
    · subst same
      obtain ⟨old, known⟩ := covers.course here
      rw [getElem?_set_here here] at there
      rw [List.getElem?_modify_eq, known] at ahead
      cases there
      cases ahead
      rw [← covers.parts number old names known here, gives]
      simp only [List.append_assoc]
    · rw [List.getElem?_set_ne same] at there
      rw [List.getElem?_modify_ne _ _ same] at ahead
      exact covers.parts other course names' ahead there

/-- A clone has left what its original has left, and the rest is behind it. -/
theorem Covers.clone (covers : Covers all courses iterators)
    (here : iterators[number]? = some names) {course : Course}
    (known : courses[number]? = some course) :
    Covers all (courses ++ [{ before := course.before ++ course.given }])
      (iterators ++ [names]) where
  sizes := by simp [covers.sizes]
  parts := by
    intro other course' names' ahead there
    -- The clone is the last one of the iterators, and its course the last one of the courses.
    rcases Nat.lt_or_ge other courses.length with inside | behind
    · rw [List.getElem?_append_left inside] at ahead
      rw [List.getElem?_append_left (covers.sizes ▸ inside)] at there
      exact covers.parts other course' names' ahead there
    · rw [List.getElem?_append_right behind, List.getElem?_singleton] at ahead
      rw [List.getElem?_append_right (covers.sizes ▸ behind), List.getElem?_singleton,
        ← covers.sizes] at there
      split at ahead
      · rename_i newest
        rw [if_pos newest, Option.some.injEq] at there
        rw [Option.some.injEq] at ahead
        subst ahead there
        rw [List.append_nil]
        exact covers.parts number course names known here
      · cases ahead

theorem Covers.ask_reads (covers : Covers all courses iterators)
    (reads : query.reads number = true) :
    Covers all (record courses query (ask iterators query).1) (ask iterators query).2 := by
  rw [record_reads reads]
  cases here : iterators[number]? with
  | none =>
    rw [ask_unknown reads here, List.modify_eq_self]
    · exact covers
    · exact List.getElem?_eq_none_iff.mp (covers.of_none here)
  | some names =>
    obtain ⟨reply, gives, replies⟩ := exists_reply reads
    rw [replies iterators names here]
    exact covers.give here (gives names)

theorem Covers.ask (covers : Covers all courses iterators) (query : Query) :
    Covers all (record courses query (ask iterators query).1) (ask iterators query).2 := by
  cases query with
  | next asked => exact covers.ask_reads (decide_eq_true (Eq.refl asked))
  | length asked => exact covers.ask_reads (decide_eq_true (Eq.refl asked))
  | rest asked => exact covers.ask_reads (decide_eq_true (Eq.refl asked))
  | clone asked =>
    rw [ParameterNames.ask, record]
    cases here : iterators[asked]? with
    | none =>
      rw [covers.of_none here]
      exact covers
    | some names =>
      obtain ⟨course, known⟩ := covers.course here
      rw [known]
      exact covers.clone here known

theorem Covers.askAll (covers : Covers all courses iterators) (queries : List Query) :
    Covers all (recordAll courses queries (askAll iterators queries).1)
      (askAll iterators queries).2 := by
  induction queries generalizing courses iterators with
  | nil => exact covers
  | cons query rest ih => exact ih (covers.ask query)

theorem covers_ofMethod (isStatic : Bool) (declared : List String) :
    Covers (if isStatic then declared else "_this" :: declared) [{}]
      [ofMethod isStatic declared] where
  sizes := rfl
  parts := by
    intro number course names ahead there
    rw [List.getElem?_singleton] at ahead there
    split at ahead
    · rename_i first
      rw [if_pos first] at there
      cases there
      cases ahead
      exact toList_ofMethod isStatic declared
    · cases ahead

/-- However iterators over the parameter names of a method are asked and cloned, each of them gives
    the names that were not yet behind its original, in order and once. It knows how many are left,
    has none left for ever once it has come to the end, and answers as if it were the only one. -/
theorem clones_iterate_apart (isStatic : Bool) (declared : List String) (queries : List Query) :
    let iterators := (askAll [ofMethod isStatic declared] queries).2
    let courses := recordAll [{}] queries (askAll [ofMethod isStatic declared] queries).1
    courses.length = iterators.length ∧
      ∀ (number : Nat) (course : Course), courses[number]? = some course →
        ∃ left, course.before ++ course.given ++ left =
            (if isStatic then declared else "_this" :: declared) ∧
          Stands iterators number left ∧
          (ask iterators (.clone number)).1 = .count courses.length ∧
          (left = [] → ∀ later, Stands (askAll iterators later).2 number []) ∧
          ∀ later, answersOf number iterators later =
            (askAll iterators (later.filter fun query => query.reads number)).1 := by
  intro iterators courses
  have covers : Covers _ courses iterators := (covers_ofMethod isStatic declared).askAll queries
  refine ⟨covers.sizes, fun number course known => ?_⟩
  obtain ⟨names, here⟩ := covers.iterator known
  refine ⟨names.toList, covers.parts number course names known here, stands here, ?_, ?_, ?_⟩
  · rw [ask, here, covers.sizes]
  · intro ended later
    obtain ⟨final, there, nothing⟩ := left_askAll here later
    rw [ended] at nothing
    have none_left := (List.append_eq_nil_iff.mp nothing.symm).2
    rw [← none_left]
    exact stands there
  · exact answersOf_alone here here

example : (askAll [ofMethod false ["left", "right"]]
    [.next 0, .clone 0, .rest 0, .next 1, .length 1, .next 0]).1 =
      [.name "_this", .count 1, .names ["left", "right"], .name "left", .count 1, .name none] := rfl

end Managed.ParameterNames
