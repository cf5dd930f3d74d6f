import Mathlib.Data.List.Nodup
import Mathlib.Data.List.Perm.Subperm
import Managed.Image.Headers
import Managed.Proofs.CandidateLists
import Managed.Resolver

namespace Managed

def Request.allowed (request : Request) (found : List Module) : List Module :=
  found.filter fun candidate => request.Allows candidate.identity

def Request.IsLastAllowed (request : Request) (found : List Module) (last : Module) : Prop :=
  ∃ before after, found = before ++ last :: after ∧ request.Allows last.identity ∧
    ∀ other ∈ after, ¬ request.Allows other.identity

inductive Verdict (resolver : Resolver) (request : Request) :
    Except Error (Option (List Module)) → Except Error (Option Module) → Prop where
  | chosen {found : List Module} {last : Module} (is_last : request.IsLastAllowed found last)
      (clear : resolver.failOnAmbiguity = false ∨
        ∀ other ∈ found, request.Allows other.identity → other = last) :
    Verdict resolver request (.ok (some found)) (.ok (some last))
  | incompatible {sole : Module} (refused : ¬ request.Allows sole.identity) :
    Verdict resolver request (.ok (some [sole])) (.error (.incompatible request sole.identity))
  | ambiguous {found : List Module} (fails : resolver.failOnAmbiguity = true)
      (several : 2 ≤ (request.allowed found).length) :
    Verdict resolver request (.ok (some found))
      (.error (.ambiguous request ((request.allowed found).map (·.path))))
  | unlisted : Verdict resolver request (.ok none) (.error (.notFound request))
  | unsatisfied {found : List Module} (several : 2 ≤ found.length)
      (refused : ∀ candidate ∈ found, ¬ request.Allows candidate.identity) :
    Verdict resolver request (.ok (some found)) (.error (.notFound request))
  | failed (error : Error) : Verdict resolver request (.error error) (.error error)

namespace Request

variable {request : Request} {found : List Module} {last : Module}

theorem mem_allowed {candidate : Module} :
    candidate ∈ request.allowed found ↔
      candidate ∈ found ∧ request.Allows candidate.identity := by
  simp [allowed]

theorem getLast?_allowed :
    (request.allowed found).getLast? = some last ↔ request.IsLastAllowed found last := by
  rw [allowed, List.getLast?_filter, List.find?_eq_some_iff_append, IsLastAllowed]
  constructor
  · intro found_last
    obtain ⟨satisfied, after, before, reversed, refused⟩ := found_last
    refine ⟨before.reverse, after.reverse, ?_, by simpa using satisfied, ?_⟩
    · rw [← found.reverse_reverse, reversed]
      simp
    · intro other member
      simpa using refused other (List.mem_reverse.mp member)
  · intro is_last
    obtain ⟨before, after, rfl, satisfied, refused⟩ := is_last
    refine ⟨by simpa using satisfied, after.reverse, before.reverse, by simp, ?_⟩
    intro other member
    simpa using refused other (List.mem_reverse.mp member)

theorem allowed_eq_nil :
    request.allowed found = [] ↔ ∀ candidate ∈ found, ¬ request.Allows candidate.identity := by
  simp [allowed]

/-- Since no module is listed twice, one that alone satisfies the request does so once. -/
theorem length_allowed_le_one (distinct : (found.map (·.id)).Nodup)
    (is_last : request.IsLastAllowed found last) :
    (request.allowed found).length ≤ 1 ↔
      ∀ other ∈ found, request.Allows other.identity → other = last := by
  have last_member : last ∈ request.allowed found :=
    List.mem_of_getLast? (getLast?_allowed.mpr is_last)
  have allowed_distinct : (request.allowed found).Nodup :=
    (List.Nodup.of_map _ distinct).filter _
  constructor
  · intro short other member satisfied
    have other_member : other ∈ request.allowed found := mem_allowed.mpr ⟨member, satisfied⟩
    obtain ⟨only, only_eq⟩ := List.length_eq_one_iff.mp
      (Nat.le_antisymm short (List.length_pos_of_mem last_member))
    rw [only_eq, List.mem_singleton] at last_member other_member
    rw [last_member, other_member]
  · intro alone
    have subset : request.allowed found ⊆ [last] := by
      intro other member
      obtain ⟨present, satisfied⟩ := mem_allowed.mp member
      exact List.mem_singleton.mpr (alone other present satisfied)
    exact (allowed_distinct.subperm subset).length_le

end Request

namespace Resolver

variable {resolver : Resolver} {request : Request} {found : List Module} {last : Module}
  {strict : Bool}

theorem pickAmong_last (is_last : request.IsLastAllowed found last) :
    resolver.pickAmong request strict found =
      if strict && resolver.failOnAmbiguity && 1 < (request.allowed found).length then
        .error (.ambiguous request ((request.allowed found).map (·.path)))
      else .ok (some last) := by
  have last_eq := Request.getLast?_allowed.mpr is_last
  rw [Request.allowed] at last_eq
  rw [pickAmong, last_eq]
  rfl

theorem pickAmong_refused
    (refused : ∀ candidate ∈ found, ¬ request.Allows candidate.identity) :
    resolver.pickAmong request strict found = missing request strict := by
  have nothing := Request.allowed_eq_nil.mpr refused
  rw [Request.allowed] at nothing
  simp only [pickAmong, nothing, List.getLast?_nil]

theorem pick_several (several : 2 ≤ found.length) :
    resolver.pick request strict found = resolver.pickAmong request strict found := by
  match found, several with
  | _ :: _ :: _, _ => rfl

theorem pick_sole {sole : Module} (satisfied : request.Allows sole.identity) :
    resolver.pick request strict [sole] = .ok (some sole) := by
  simp [pick, satisfied]

theorem pick_sole_refused {sole : Module} (refused : ¬ request.Allows sole.identity) :
    resolver.pick request true [sole] = .error (.incompatible request sole.identity) := by
  simp [pick, refused]

theorem sole_or_several (nonempty : found ≠ []) :
    (∃ sole, found = [sole]) ∨ 2 ≤ found.length := by
  match found, nonempty with
  | [sole], _ => exact .inl ⟨sole, rfl⟩
  | _ :: _ :: _, _ => exact .inr (by simp)

theorem last_or_refused (request : Request) (found : List Module) :
    (∃ last, request.IsLastAllowed found last) ∨
      ∀ candidate ∈ found, ¬ request.Allows candidate.identity := by
  cases last_eq : (request.allowed found).getLast? with
  | none => exact .inr (Request.allowed_eq_nil.mp (List.getLast?_eq_none_iff.mp last_eq))
  | some last => exact .inl ⟨last, Request.getLast?_allowed.mp last_eq⟩

theorem isLastAllowed_sole {sole : Module} :
    request.IsLastAllowed [sole] last ↔ last = sole ∧ request.Allows sole.identity := by
  rw [← Request.getLast?_allowed, Request.allowed]
  by_cases satisfied : request.Allows sole.identity
  · simp [satisfied, eq_comm]
  · simp [satisfied]

variable {tables : PathTables} {outcome : Except Error (Option (List Module))}
  {result : Except Error (Option Module)}

theorem answer_verdict (answered : ModuleStore.CandidatesAnswer tables request.name outcome) :
    Verdict resolver request outcome (resolver.answer request true outcome) := by
  cases answered with
  | unlisted unlisted => exact .unlisted
  | failed error failure listed => exact .failed error
  | found found nonempty distinct listed =>
    change Verdict resolver request _ (resolver.pick request true found)
    rcases sole_or_several nonempty with ⟨sole, rfl⟩ | several
    · by_cases satisfied : request.Allows sole.identity
      · rw [pick_sole satisfied]
        refine .chosen (isLastAllowed_sole.mpr ⟨rfl, satisfied⟩) (.inr ?_)
        exact fun other member _ => List.mem_singleton.mp member
      · rw [pick_sole_refused satisfied]
        exact .incompatible satisfied
    · rw [pick_several several]
      rcases last_or_refused request found with ⟨last, is_last⟩ | refused
      · rw [pickAmong_last is_last]
        split
        · rename_i refuse
          simp only [Bool.true_and, Bool.and_eq_true, decide_eq_true_eq] at refuse
          exact .ambiguous refuse.1 refuse.2
        · rename_i accept
          simp only [Bool.true_and, Bool.and_eq_true, decide_eq_true_eq, not_and,
            Nat.not_lt] at accept
          refine .chosen is_last ?_
          cases flag : resolver.failOnAmbiguity with
          | false => exact .inl rfl
          | true => exact .inr ((Request.length_allowed_le_one distinct is_last).mp (accept flag))
      · rw [pickAmong_refused refused]
        exact .unsatisfied several refused

theorem answer_eq_of_verdict (answered : ModuleStore.CandidatesAnswer tables request.name outcome)
    (verdict : Verdict resolver request outcome result) :
    resolver.answer request true outcome = result := by
  cases verdict with
  | @chosen found last is_last clear =>
    cases answered with
    | found _ nonempty distinct listed =>
    change resolver.pick request true found = _
    rcases sole_or_several nonempty with ⟨sole, rfl⟩ | several
    · obtain ⟨rfl, satisfied⟩ := isLastAllowed_sole.mp is_last
      exact pick_sole satisfied
    · rw [pick_several several, pickAmong_last is_last, if_neg]
      simp only [Bool.true_and, Bool.and_eq_true, decide_eq_true_eq, not_and, Nat.not_lt]
      intro fails
      rcases clear with passes | alone
      · rw [fails] at passes
        cases passes
      · exact (Request.length_allowed_le_one distinct is_last).mpr alone
  | @incompatible sole refused =>
    change resolver.pick request true [sole] = _
    exact pick_sole_refused refused
  | @ambiguous found fails several =>
    change resolver.pick request true found = _
    rw [pick_several (several.trans (List.length_filter_le _ _))]
    rcases last_or_refused request found with ⟨last, is_last⟩ | refused
    · rw [pickAmong_last is_last, if_pos]
      simp [fails]
      exact several
    · rw [Request.allowed_eq_nil.mpr refused] at several
      cases several
  | unlisted => rfl
  | unsatisfied several refused =>
    exact (pick_several several).trans (pickAmong_refused refused)
  | failed error => rfl

inductive Lenient (request : Request) :
    (outcome : Except Error (Option (List Module))) →
    (strict lenient : Except Error (Option Module)) →
    Prop where
  | same (outcome : Except Error (Option (List Module))) (chosen : Module) :
    Lenient request outcome (.ok (some chosen)) (.ok (some chosen))
  | sole (sole : Module) (identity : Identity) :
    Lenient request (.ok (some [sole])) (.error (.incompatible request identity)) (.ok (some sole))
  | last (found : List Module) (last : Module) (paths : List Path)
      (is_last : request.IsLastAllowed found last) :
    Lenient request (.ok (some found)) (.error (.ambiguous request paths)) (.ok (some last))
  | nothing (outcome : Except Error (Option (List Module))) :
    Lenient request outcome (.error (.notFound request)) (.ok none)
  | failed (error : Error) : Lenient request (.error error) (.error error) (.ok none)

theorem lenient_of_verdict (answered : ModuleStore.CandidatesAnswer tables request.name outcome)
    (verdict : Verdict resolver request outcome result) :
    Lenient request outcome result (forgive false (resolver.answer request false outcome)) := by
  have chosen_last : ∀ found last, request.IsLastAllowed found last →
      resolver.pickAmong request false found = .ok (some last) :=
    fun found last is_last => pickAmong_last is_last
  cases verdict with
  | @chosen found last is_last clear =>
    cases answered with
    | found _ nonempty distinct listed =>
    have answer : resolver.pick request false found = .ok (some last) := by
      rcases sole_or_several nonempty with ⟨sole, rfl⟩ | several
      · obtain ⟨rfl, satisfied⟩ := isLastAllowed_sole.mp is_last
        exact pick_sole satisfied
      · rw [pick_several several]
        exact chosen_last found last is_last
    rw [Resolver.answer, answer]
    exact .same _ last
  | @incompatible sole refused => exact .sole sole _
  | @ambiguous found fails several =>
    have many : 2 ≤ found.length := several.trans (List.length_filter_le _ _)
    rcases last_or_refused request found with ⟨last, is_last⟩ | refused
    · rw [Resolver.answer, pick_several many, chosen_last found last is_last]
      exact .last found last _ is_last
    · rw [Request.allowed_eq_nil.mpr refused] at several
      cases several
  | unlisted => exact .nothing _
  | unsatisfied several refused =>
    rw [Resolver.answer, pick_several several, pickAmong_refused refused]
    exact .nothing _
  | failed error => exact .failed error

theorem forgive_true (outcome : Except Error (Option Module)) : forgive true outcome = outcome := by
  cases outcome <;> rfl

section

variable (answered : ModuleStore.CandidatesAnswer tables request.name outcome)

include answered

theorem answer_eq_iff_verdict :
    resolver.answer request true outcome = result ↔ Verdict resolver request outcome result :=
  ⟨fun same => same ▸ answer_verdict answered, answer_eq_of_verdict answered⟩

theorem answer_chosen_iff (chosen : Module) :
    resolver.answer request true outcome = .ok (some chosen) ↔
      ∃ list, outcome = .ok (some list) ∧ request.IsLastAllowed list chosen ∧
        (resolver.failOnAmbiguity = false ∨
          ∀ other ∈ list, request.Allows other.identity → other = chosen) := by
  rw [answer_eq_iff_verdict answered]
  constructor
  · intro verdict
    cases verdict with
    | chosen is_last clear => exact ⟨_, rfl, is_last, clear⟩
  · intro decides
    obtain ⟨list, rfl, is_last, clear⟩ := decides
    exact .chosen is_last clear

theorem answer_incompatible_iff (requested : Request) (identity : Identity) :
    resolver.answer request true outcome = .error (.incompatible requested identity) ↔
      ∃ sole, outcome = .ok (some [sole]) ∧ ¬ request.Allows sole.identity ∧
        requested = request ∧ identity = sole.identity := by
  rw [answer_eq_iff_verdict answered]
  constructor
  · intro verdict
    cases verdict with
    | incompatible refused => exact ⟨_, rfl, refused, rfl, rfl⟩
    | failed => cases answered.isFailure _ rfl
  · intro decides
    obtain ⟨sole, rfl, refused, rfl, rfl⟩ := decides
    exact .incompatible refused

theorem answer_ambiguous_iff (requested : Request) (paths : List Path) :
    resolver.answer request true outcome = .error (.ambiguous requested paths) ↔
      ∃ list, outcome = .ok (some list) ∧ resolver.failOnAmbiguity = true ∧
        2 ≤ (request.allowed list).length ∧ requested = request ∧
        paths = (request.allowed list).map (·.path) := by
  rw [answer_eq_iff_verdict answered]
  constructor
  · intro verdict
    cases verdict with
    | ambiguous fails several => exact ⟨_, rfl, fails, several, rfl, rfl⟩
    | failed => cases answered.isFailure _ rfl
  · intro decides
    obtain ⟨list, rfl, fails, several, rfl, rfl⟩ := decides
    exact .ambiguous fails several

theorem answer_notFound_iff (requested : Request) :
    resolver.answer request true outcome = .error (.notFound requested) ↔ requested = request ∧
      (tables.paths request.name = [] ∨
        ∃ list, outcome = .ok (some list) ∧ 2 ≤ list.length ∧
          ∀ candidate ∈ list, ¬ request.Allows candidate.identity) := by
  rw [answer_eq_iff_verdict answered]
  constructor
  · intro verdict
    cases verdict with
    | unlisted => cases answered with
      | unlisted unlisted => exact ⟨rfl, .inl unlisted⟩
    | unsatisfied several refused => exact ⟨rfl, .inr ⟨_, rfl, several, refused⟩⟩
    | failed => cases answered.isFailure _ rfl
  · intro decides
    rcases decides with ⟨rfl, unlisted | ⟨list, rfl, several, refused⟩⟩
    · cases answered with
      | unlisted _ => exact .unlisted
      | found _ _ _ listed => exact absurd unlisted listed
      | failed _ _ listed => exact absurd unlisted listed
    · exact .unsatisfied several refused

theorem answer_ne_none : resolver.answer request true outcome ≠ .ok none := by
  rw [ne_eq, answer_eq_iff_verdict answered]
  intro verdict
  cases verdict

end

namespace Lenient

variable {strict lenient : Except Error (Option Module)}

theorem answers (pardon : Lenient request outcome strict lenient) :
    ∃ answer, lenient = .ok answer := by
  cases pardon with
  | same => exact ⟨_, rfl⟩
  | sole => exact ⟨_, rfl⟩
  | last => exact ⟨_, rfl⟩
  | nothing => exact ⟨_, rfl⟩
  | failed => exact ⟨_, rfl⟩

theorem of_chosen {chosen : Module}
    (pardon : Lenient request outcome (.ok (some chosen)) lenient) :
    lenient = .ok (some chosen) := by
  cases pardon
  rfl

theorem of_ambiguous {requested : Request} {paths : List Path}
    (answered : ModuleStore.CandidatesAnswer tables request.name outcome)
    (pardon : Lenient request outcome (.error (.ambiguous requested paths)) lenient) :
    ∃ list last, outcome = .ok (some list) ∧ request.IsLastAllowed list last ∧
      lenient = .ok (some last) := by
  cases pardon with
  | last found last _ is_last => exact ⟨found, last, rfl, is_last, rfl⟩
  | failed => cases answered.isFailure _ rfl

theorem of_incompatible {requested : Request} {identity : Identity}
    (answered : ModuleStore.CandidatesAnswer tables request.name outcome)
    (pardon : Lenient request outcome (.error (.incompatible requested identity)) lenient) :
    ∃ sole, outcome = .ok (some [sole]) ∧ lenient = .ok (some sole) := by
  cases pardon with
  | sole sole _ => exact ⟨sole, rfl, rfl⟩
  | failed => cases answered.isFailure _ rfl

theorem of_notFound {requested : Request}
    (pardon : Lenient request outcome (.error (.notFound requested)) lenient) :
    lenient = .ok none := by
  cases pardon with
  | nothing => rfl
  | failed => rfl

theorem of_failed {error : Error} (pardon : Lenient request (.error error) (.error error) lenient) :
    lenient = .ok none := by
  cases pardon with
  | nothing => rfl
  | failed => rfl

end Lenient

/-- What a strict and what a lenient request is answered in the same state of a catalog, by the
    candidates of the name and by those of them that satisfy the request. A name is unlisted if no
    path is listed under it. -/
theorem decision_law [Image.Parser] {catalog : Catalog} (reachable : catalog.Reachable)
    (resolver : Resolver) (files : FileSystem) (request : Request) :
    let found := (catalog.candidates files request.name).1
    let strict := (resolver.resolve catalog files request true).1
    let lenient := (resolver.resolve catalog files request false).1
    ((∀ chosen, strict = .ok (some chosen) ↔
        ∃ list, found = .ok (some list) ∧ request.IsLastAllowed list chosen ∧
          (resolver.failOnAmbiguity = false ∨
            ∀ other ∈ list, request.Allows other.identity → other = chosen)) ∧
      (∀ requested identity, strict = .error (.incompatible requested identity) ↔
        ∃ sole, found = .ok (some [sole]) ∧ ¬ request.Allows sole.identity ∧
          requested = request ∧ identity = sole.identity) ∧
      (∀ requested paths, strict = .error (.ambiguous requested paths) ↔
        ∃ list, found = .ok (some list) ∧ resolver.failOnAmbiguity = true ∧
          2 ≤ (request.allowed list).length ∧ requested = request ∧
          paths = (request.allowed list).map (·.path)) ∧
      (∀ requested, strict = .error (.notFound requested) ↔ requested = request ∧
        (catalog.tables.paths request.name = [] ∨
          ∃ list, found = .ok (some list) ∧ 2 ≤ list.length ∧
            ∀ candidate ∈ list, ¬ request.Allows candidate.identity)) ∧
      (∀ error, found = .error error → strict = .error error) ∧
      strict ≠ .ok none) ∧
    ((∃ answer, lenient = .ok answer) ∧
      (∀ chosen, strict = .ok (some chosen) → lenient = .ok (some chosen)) ∧
      (∀ requested paths, strict = .error (.ambiguous requested paths) →
        ∃ list last, found = .ok (some list) ∧ request.IsLastAllowed list last ∧
          lenient = .ok (some last)) ∧
      (∀ requested identity, strict = .error (.incompatible requested identity) →
        ∃ sole, found = .ok (some [sole]) ∧ lenient = .ok (some sole)) ∧
      (∀ requested, strict = .error (.notFound requested) → lenient = .ok none) ∧
      (∀ error, found = .error error → lenient = .ok none)) ∧
    (resolver.resolve catalog files request true).2 =
      (resolver.resolve catalog files request false).2 := by
  intro found strict lenient
  have answered : ModuleStore.CandidatesAnswer catalog.tables request.name found :=
    reachable.candidates files request.name
  have strict_eq : strict = resolver.answer request true found := forgive_true _
  have pardon : Lenient request found strict lenient := by
    rw [strict_eq]
    exact lenient_of_verdict answered (answer_verdict answered)
  have fails : ∀ error, found = .error error → strict = .error error := by
    intro error found_eq
    rw [strict_eq, found_eq]
    rfl
  clear_value found strict lenient
  refine ⟨⟨?_, ?_, ?_, ?_, fails, ?_⟩, ⟨pardon.answers, ?_, ?_, ?_, ?_, ?_⟩, rfl⟩
  · rw [strict_eq]
    exact answer_chosen_iff answered
  · rw [strict_eq]
    exact answer_incompatible_iff answered
  · rw [strict_eq]
    exact answer_ambiguous_iff answered
  · rw [strict_eq]
    exact answer_notFound_iff answered
  · rw [strict_eq]
    exact answer_ne_none answered
  · intro chosen given
    exact (given ▸ pardon).of_chosen
  · intro requested paths given
    exact (given ▸ pardon).of_ambiguous answered
  · intro requested identity given
    exact (given ▸ pardon).of_incompatible answered
  · intro requested given
    exact (given ▸ pardon).of_notFound
  · intro error found_eq
    rw [fails error found_eq, found_eq] at pardon
    exact pardon.of_failed

open scoped Image.Container

def askedCatalog : Catalog :=
  let tables : PathTables := ⟨{}, .ofRegistrations [("Part", "/link"), ("PART", "/Part.netmodule")]⟩
  ⟨tables, ((Catalog.pool tables [.candidates Catalog.smallFiles "part"]).run
    (List.replicate 20 0)).state⟩

/-- A module without a version is refused to a strict request for one and given to a lenient one. -/
theorem sole_candidate_without_version :
    let request : Request := { name := "Part", version := some ⟨1, 0, 0, 0⟩ }
    ∃ sole,
      (resolve ⟨true⟩ askedCatalog Catalog.smallFiles request true).1 =
        .error (.incompatible request sole.identity) ∧
      (resolve ⟨true⟩ askedCatalog Catalog.smallFiles request false).1 = .ok (some sole) := by
  intro request
  have reachable : askedCatalog.Reachable := Catalog.reachable_run _ _ _
  have law := decision_law reachable ⟨true⟩ Catalog.smallFiles request
  have one : ((askedCatalog.candidates Catalog.smallFiles request.name).1.toOption.join.map
      fun list => (list.length, (request.allowed list).length)) = some (1, 0) := by decide +kernel
  obtain ⟨list, list_eq, lengths⟩ := Option.map_eq_some_iff.mp one
  obtain ⟨length_eq, allowed_length⟩ := Prod.mk.inj lengths
  obtain ⟨sole, rfl⟩ := List.length_eq_one_iff.mp length_eq
  have refused := Request.allowed_eq_nil.mp (List.length_eq_zero_iff.mp allowed_length) sole
    List.mem_cons_self
  have found_eq : (askedCatalog.candidates Catalog.smallFiles request.name).1 =
      .ok (some [sole]) := by
    cases outcome : (askedCatalog.candidates Catalog.smallFiles request.name).1 with
    | error error =>
      rw [outcome] at list_eq
      cases list_eq
    | ok found =>
      rw [outcome] at list_eq
      exact congrArg Except.ok list_eq
  have strict := (law.1.2.1 request sole.identity).mpr ⟨sole, found_eq, refused, rfl, rfl⟩
  obtain ⟨other, other_eq, lenient⟩ := law.2.1.2.2.2.1 _ _ strict
  rw [found_eq] at other_eq
  cases other_eq
  exact ⟨sole, strict, lenient⟩

end Resolver

end Managed
