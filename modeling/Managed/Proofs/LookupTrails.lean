import Managed.Proofs.FaithfulCalls
import Managed.Proofs.LookupProgress

namespace Managed.ModuleStore

/-- How far a lookup of a name gets along the listed paths: the canonical paths that it asks for,
    the modules there, without their ids, and the error that ends it. A module of another name ends
    it, too, but has been reached. -/
structure Trail where
  asked : List Path := []
  reached : List Module := []
  stop : Option Error := none

variable {files : FileSystem} {store start final : ModuleStore} {name : String}

def Trail.answer (way : Trail) (known : List Module) : Except Error (List Module) :=
  match way.stop with
  | some error => .error error
  | none => .ok (way.reached.foldl adjoin known)

theorem Trail.answer_eq_error {way : Trail} {known : List Module} {error : Error} :
    way.answer known = .error error ↔ way.stop = some error := by
  rw [answer]
  cases way.stop <;> simp

theorem Trail.answer_eq_ok {way : Trail} {known list : List Module} :
    way.answer known = .ok list ↔ way.stop = none ∧ way.reached.foldl adjoin known = list := by
  rw [answer]
  cases way.stop <;> simp

theorem Knows.grown {found : List Module} (knows : start.Knows found)
    (grown : start.ids.entries <+: final.ids.entries) : final.Knows found :=
  fun loaded member => grown.subset (knows loaded member)

theorem Knows.adjoin {known : List Module} (knows : store.Knows known) {loaded : Module}
    (listed : (loaded.id, loaded) ∈ store.ids.entries) :
    store.Knows (if known.any (·.id = loaded.id) then known else known ++ [loaded]) := by
  split
  · exact knows
  · intro other member
    rcases List.mem_append.mp member with old | new
    · exact knows other old
    · rwa [List.mem_singleton.mp new]

variable [Image.Parser]

def trail (files : FileSystem) (store : ModuleStore) (name : String) : (paths : List Path) → Trail
  | [] => {}
  | path :: rest =>
    match seenAt files store path with
    | .error error => { asked := askedAt files path, stop := some error }
    | .ok found =>
      match found.verifyName name with
      | .error error => { asked := askedAt files path, reached := [found], stop := some error }
      | .ok () =>
        let onward := trail files store name rest
        ⟨askedAt files path ++ onward.asked, found :: onward.reached, onward.stop⟩

theorem trail_congr (same : seenAt files final = seenAt files start) (paths : List Path) :
    trail files final name paths = trail files start name paths := by
  induction paths with
  | nil => rfl
  | cons path rest ih => rw [trail, trail, same, ih]

structure Walked (files : FileSystem) (start : ModuleStore) (way : Trail) (known : List Module)
    (outcome : Except Error (List Module) × ModuleStore) : Prop where
  names : outcome.2.names = start.names
  progress : ∃ added, Progress files start outcome.2 way.asked (way.reached.map (·.path)) added
  answer : outcome.1.map (List.map Module.withoutId) = way.answer (known.map Module.withoutId)
  knows : ∀ list, outcome.1 = .ok list → outcome.2.Knows list

theorem walked_collect (idempotent : files.IsIdempotent) (lawful : Lawful .ok store)
    (paths : List Path) (known : List Module) (knows : store.Knows known)
    (few : store.nextId.toNat + (collect files name paths known).loads store < UInt32.size) :
    Walked files store (trail files store name paths) known
      ((collect files name paths known).run store) := by
  -- The rest of the trail is the same from the store that the first path leads to.
  induction paths generalizing known store with
  | nil =>
    refine ⟨rfl, ⟨[], .refl lawful⟩, rfl, fun list same => ?_⟩
    obtain rfl := Except.ok.inj same
    exact knows
  | cons path rest ih =>
    rw [collect, Routine.loads_bind] at few
    rw [collect, trail]
    change Walked files store _ known (Routine.run (Routine.bind _ _) store)
    rw [Routine.run_bind]
    obtain ⟨served, nextId⟩ := @served_fromPath files store path _ idempotent lawful (by omega)
    generalize (fromPath files path).run store = outcome at served nextId few ⊢
    cases served with
    | refused names seen progress =>
      rw [seen]
      exact ⟨names, ⟨[], progress⟩, rfl, fun list given => by cases given⟩
    | @given loaded middle added names seen progress visible listed =>
      rw [seen]
      have same_name : loaded.withoutId.verifyName name = loaded.verifyName name := rfl
      dsimp only at nextId few ⊢
      rw [same_name]
      cases verified : loaded.verifyName name with
      | error error =>
        exact ⟨names, ⟨added, progress⟩, rfl, fun list given => by cases given⟩
      | ok =>
        have knows_middle := knows.grown progress.idsKept
        have next : (if known.any (·.id = loaded.id) then collect files name rest known
            else collect files name rest (known ++ [loaded])) =
            collect files name rest
              (if known.any (·.id = loaded.id) then known else known ++ [loaded]) :=
          (apply_ite (collect files name rest) _ _ _).symm
        have adjoined := adjoin_withoutId progress.lawful knows_middle listed
        rw [verified] at few
        dsimp only at few ⊢
        rw [next] at few ⊢
        have onward := ih progress.lawful _ (knows_middle.adjoin listed) (by omega)
        rw [trail_congr progress.seenAt_eq] at onward
        obtain ⟨added', progress'⟩ := onward.progress
        refine ⟨onward.names.trans names, ⟨_, progress.trans progress'⟩, ?_, onward.knows⟩
        rw [onward.answer, ← adjoined]
        rfl

theorem Progress.of_names (lawful : Lawful .ok store) {names : Cache String (List Module)}
    (known : ∀ entry ∈ names.entries, store.Knows entry.2) :
    Progress files store { store with names } [] [] [] where
  lawful := { lawful with names := known }
  nextId := rfl
  paths := (List.append_nil _).symm
  read := nofun
  new := by simp
  idsKept := List.prefix_rfl
  ids := by simp
  idsCounters := ⟨rfl, rfl⟩
  counters := ⟨0, 0, (UInt64.add_zero _).symm, (UInt64.add_zero _).symm, rfl, rfl⟩

inductive Found (files : FileSystem) (listed : String → List Path) (store : ModuleStore)
    (name : String) : Except Error (Option (List Module)) × ModuleStore → Prop where
  | published {list : List Module}
      (present : store.names.find? (SimpleName.ofText name).key = some list) :
    Found files listed store name (.ok (some list), { store with names := store.names.hit })
  | unlisted (absent : store.names.find? (SimpleName.ofText name).key = none)
      (nothing : listed name = []) :
    Found files listed store name (.ok none, store)
  | failed {error : Error} {final : ModuleStore} {added : List Module}
      (absent : store.names.find? (SimpleName.ofText name).key = none)
      (something : listed name ≠ [])
      (stop : (trail files store name (listed name)).stop = some error)
      (names : final.names = store.names.missed)
      (progress : Progress files store final (trail files store name (listed name)).asked
        ((trail files store name (listed name)).reached.map (·.path)) added) :
    Found files listed store name (.error error, final)
  | made {list : List Module} {final : ModuleStore} {added : List Module}
      (absent : store.names.find? (SimpleName.ofText name).key = none)
      (something : listed name ≠ [])
      (stop : (trail files store name (listed name)).stop = none)
      (names : final.names = store.names.missed.published (SimpleName.ofText name).key list)
      (progress : Progress files store final (trail files store name (listed name)).asked
        ((trail files store name (listed name)).reached.map (·.path)) added)
      (answer : list.map Module.withoutId =
        (trail files store name (listed name)).reached.foldl adjoin [])
      (knows : final.Knows list) :
    Found files listed store name (.ok (some list), final)

variable {listed : String → List Path}

theorem run_candidates_published {list : List Module}
    (present : store.names.find? (SimpleName.ofText name).key = some list) :
    (candidates files listed name).run store =
      (.ok (some list), { store with names := store.names.hit }) := by
  have looked := Cache.tryGet_present present
  simp only [candidates, Part.atomic, bind, pure, Routine.run_bind, Routine.run_atomic,
    Routine.run_done, namesPart, looked]

theorem run_candidates_unlisted
    (absent : store.names.find? (SimpleName.ofText name).key = none) (nothing : listed name = []) :
    (candidates files listed name).run store = (.ok none, store) := by
  have looked := Cache.tryGet_absent absent
  simp only [candidates, Part.atomic, bind, pure, Routine.run_bind, Routine.run_atomic,
    Routine.run_done, namesPart, looked, nothing, List.isEmpty_nil, if_true]

theorem run_candidates_walked
    (absent : store.names.find? (SimpleName.ofText name).key = none) (something : listed name ≠ []) :
    (candidates files listed name).run store =
      let walked := (collect files name (listed name) []).run { store with names := store.names.missed }
      match walked.1 with
      | .error error => (.error error, walked.2)
      | .ok list =>
        let published := Cache.publish (SimpleName.ofText name).key list walked.2.names
        (.ok (some published.1), { walked.2 with names := published.2 }) := by
  have looked := Cache.tryGet_absent absent
  have nonempty : (listed name).isEmpty = false := List.isEmpty_eq_false_iff.mpr something
  simp only [candidates, Cache.getOrTryCreate, Part.atomic, bind, pure, Routine.run_bind,
    Routine.run_atomic, namesPart, looked, nonempty, Cache.recordMiss_eq, Bool.false_eq_true,
    if_false]
  generalize (collect files name (listed name) []).run _ = walked
  obtain ⟨outcome, middle⟩ := walked
  cases outcome <;> rfl

/-- A list that has been answered is kept. -/
theorem find?_run_candidates {list : List Module}
    (answered : ((candidates files listed name).run store).1 = .ok (some list)) :
    ((candidates files listed name).run store).2.names.find? (SimpleName.ofText name).key =
      some list := by
  cases present : store.names.find? (SimpleName.ofText name).key with
  | some found =>
    rw [run_candidates_published present] at answered ⊢
    cases answered
    exact present
  | none =>
    by_cases something : listed name = []
    · rw [run_candidates_unlisted present something] at answered
      cases answered
    · rw [run_candidates_walked present something] at answered ⊢
      generalize (collect files name (listed name) []).run _ = walked at answered ⊢
      obtain ⟨outcome, middle⟩ := walked
      cases outcome with
      | error error => cases answered
      | ok found =>
        cases answered
        exact Cache.find?_publish _ _ _

theorem loads_candidates_walked
    (absent : store.names.find? (SimpleName.ofText name).key = none) (something : listed name ≠ []) :
    (collect files name (listed name) []).loads { store with names := store.names.missed } ≤
      (candidates files listed name).loads store := by
  have looked := Cache.tryGet_absent absent
  have nonempty : (listed name).isEmpty = false := List.isEmpty_eq_false_iff.mpr something
  simp only [candidates, Cache.getOrTryCreate, Part.atomic, Routine.loads_bind,
    Routine.run_atomic, namesPart, looked, nonempty, Cache.recordMiss_eq, Bool.false_eq_true,
    if_false]
  omega

theorem found_candidates (idempotent : files.IsIdempotent) (lawful : Lawful .ok store)
    (few : store.nextId.toNat + (candidates files listed name).loads store < UInt32.size) :
    Found files listed store name ((candidates files listed name).run store) ∧
      ((candidates files listed name).run store).2.nextId.toNat =
        store.nextId.toNat + (candidates files listed name).loads store := by
  obtain ⟨-, nextId, -⟩ :=
    rules_draw.run (ensures_candidates (fits_ok idempotent) listed name store) lawful nofun few
  refine ⟨?_, nextId⟩
  cases present : store.names.find? (SimpleName.ofText name).key with
  | some list =>
    rw [run_candidates_published present]
    exact .published present
  | none =>
    by_cases something : listed name = []
    · rw [run_candidates_unlisted present something]
      exact .unlisted present something
    · have loads := @loads_candidates_walked files store name _ listed present something
      have counted : Progress files store { store with names := store.names.missed } [] [] [] :=
        .of_names lawful lawful.names
      have walked := walked_collect idempotent counted.lawful (listed name) [] nofun (by
        exact Nat.lt_of_le_of_lt (Nat.add_le_add_left loads _) few)
      rw [run_candidates_walked present something]
      generalize (collect files name (listed name) []).run _ = outcome at walked
      obtain ⟨outcome, middle⟩ := outcome
      obtain ⟨added, progress⟩ := walked.progress
      have seen : seenAt files { store with names := store.names.missed } = seenAt files store := rfl
      rw [trail_congr seen] at walked progress
      have whole := counted.trans progress
      have names : middle.names = store.names.missed := walked.names
      have answer := walked.answer
      cases outcome with
      | error error =>
        exact .failed present something (Trail.answer_eq_error.mp answer.symm) names whole
      | ok list =>
        obtain ⟨stop, reached⟩ := Trail.answer_eq_ok.mp answer.symm
        have absent : middle.names.find? (SimpleName.ofText name).key = none := by
          rw [names]
          exact present
        have known : ∀ entry ∈ (middle.names.published (SimpleName.ofText name).key list).entries,
            middle.Knows entry.2 := by
          intro entry member
          rcases Cache.mem_published.mp member with old | rfl
          · exact progress.lawful.names entry old
          · exact walked.knows list rfl
        have published := whole.trans (Progress.of_names progress.lawful known)
        simp only [List.append_nil] at published
        dsimp only
        rw [Cache.publish_absent absent]
        exact .made present something stop (by rw [names]) published reached.symm
          (walked.knows list rfl)

def lookupTrail (files : FileSystem) (listed : String → List Path) (store : ModuleStore)
    (name : String) : Trail :=
  if (store.names.find? (SimpleName.ofText name).key).isSome then {}
  else trail files store name (listed name)

theorem lookupTrail_absent (absent : store.names.find? (SimpleName.ofText name).key = none) :
    lookupTrail files listed store name = trail files store name (listed name) := by
  rw [lookupTrail, absent]
  rfl

theorem Found.progress {outcome : Except Error (Option (List Module)) × ModuleStore}
    (found : Found files listed store name outcome) (lawful : Lawful .ok store) :
    ∃ added, Progress files store outcome.2 (lookupTrail files listed store name).asked
      ((lookupTrail files listed store name).reached.map (·.path)) added := by
  cases found with
  | published present =>
    rw [lookupTrail, present]
    exact ⟨[], .of_names lawful lawful.names⟩
  | unlisted absent nothing =>
    rw [lookupTrail_absent absent, nothing]
    exact ⟨[], .refl lawful⟩
  | failed absent something stop names progress =>
    rw [lookupTrail_absent absent]
    exact ⟨_, progress⟩
  | made absent something stop names progress answer knows =>
    rw [lookupTrail_absent absent]
    exact ⟨_, progress⟩

def failureOf {α : Type} (name : String) : Except Error α → List (String × Error)
  | .ok _ => []
  | .error error => [(name, error)]

def failures (files : FileSystem) (listed : String → List Path) :
    (names : List String) → ModuleStore → List (String × Error)
  | [], _ => []
  | name :: rest, store =>
    let looked := (candidates files listed name).run store
    failureOf name looked.1 ++ failures files listed rest looked.2

end Managed.ModuleStore
