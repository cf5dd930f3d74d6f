import Managed.Proofs.CatalogCalls
import Managed.Proofs.Publication
import Managed.Proofs.RegisteredNames
import Managed.Proofs.StoreRules

namespace Managed

theorem PathTable.paths_congr (table : PathTable) {left right : String}
    (same : (SimpleName.ofText left).key = (SimpleName.ofText right).key) :
    table.paths left = table.paths right := by
  rw [paths, paths, table.find?_congr same]

theorem PathTables.paths_congr (tables : PathTables) {left right : String}
    (same : (SimpleName.ofText left).key = (SimpleName.ofText right).key) :
    tables.paths left = tables.paths right := by
  rw [paths, paths, tables.inputs.paths_congr same, tables.references.paths_congr same]

namespace ModuleStore

/-- A list of candidates as it is kept under a folded name: each of them once, and at least one,
    since the name is listed. -/
structure IsKept (tables : PathTables) (entry : String × List Module) : Prop where
  nonempty : entry.2 ≠ []
  distinct : (entry.2.map (·.id)).Nodup
  listed : ∃ name, (SimpleName.ofText name).key = entry.1 ∧ tables.paths name ≠ []

/-- What the lists of candidates rely on: only such lists are kept. -/
def listRules (tables : PathTables) : Sharing ModuleStore Empty where
  Lawful store := ∀ entry ∈ store.names.entries, IsKept tables entry
  Moves _ _ := True
  Holds _ _ := True
  Tracks _ _ _ _ := True
  tracks_union := fun _ _ _ _ _ _ => True.intro
  Within _ := True

inductive CandidatesAnswer (tables : PathTables) (name : String) :
    Except Error (Option (List Module)) → Prop where
  | unlisted (unlisted : tables.paths name = []) : CandidatesAnswer tables name (.ok none)
  | found (found : List Module) (nonempty : found ≠ [])
      (distinct : (found.map (·.id)).Nodup) (listed : tables.paths name ≠ []) :
    CandidatesAnswer tables name (.ok (some found))
  | failed (error : Error) (failure : error.IsFailure) (listed : tables.paths name ≠ []) :
    CandidatesAnswer tables name (.error error)

theorem CandidatesAnswer.isFailure {tables : PathTables} {name : String}
    {outcome : Except Error (Option (List Module))}
    (answered : CandidatesAnswer tables name outcome) (error : Error)
    (failed : outcome = .error error) : error.IsFailure := by
  subst failed
  cases answered
  assumption

variable {tables : PathTables} {files : FileSystem}

theorem lists_allow {before after : ModuleStore} (held : Set Empty)
    (lawful : ∀ entry ∈ after.names.entries, IsKept tables entry) :
    (listRules tables).Allows before held after held where
  moves := True.intro
  tracks := True.intro
  fresh := fun claim => claim.elim
  lawful := fun _ => lawful
  holds := fun _ claim => claim.elim
  spared := fun _ claim => claim.elim

theorem lists_count_paths : (listRules tables).Counts pathsPart where
  get_set := fun _ _ => rfl
  within := fun _ _ _ _ => True.intro
  allows := fun _ held _ lawful _ _ => lists_allow held lawful

theorem lists_count_ids : (listRules tables).Counts idsPart where
  get_set := fun _ _ => rfl
  within := fun _ _ _ _ => True.intro
  allows := fun _ held _ lawful _ _ => lists_allow held lawful

theorem lists_count_names : (listRules tables).Counts namesPart where
  get_set := fun _ _ => rfl
  within := fun _ _ _ _ => True.intro
  allows := fun _ held _ lawful _ same => lists_allow held fun entry member =>
    lawful entry (same ▸ member)

theorem lists_ensure_draw (state : ModuleStore) :
    (listRules tables).Ensures (fun _ _ _ => True) drawId state ∅ :=
  Sharing.Ensures.atomic fun _ reached =>
    ⟨∅, lists_allow ∅ reached.lawful, fun _ => True.intro⟩

theorem lists_ensure_publish {κ ν : Type} [DecidableEq κ] {part : Part ModuleStore (Cache κ ν)}
    (counts : (listRules tables).Counts part)
    (same : ∀ store cache, (part.set store cache).names = store.names) (key : κ) (value : ν)
    (state : ModuleStore) (held : Set Empty) :
    (listRules tables).Ensures (fun _ _ _ => True) (part.atomic (Cache.publish key value)) state
      held := by
  refine counts.publish key value (fun _ _ _ _ => True.intro) fun found reached _ => ?_
  refine ⟨held, lists_allow held ?_, True.intro⟩
  rw [same]
  exact reached.lawful

theorem CandidatesAnswer.of_kept {name : String} {store : ModuleStore} {found : List Module}
    (lawful : ∀ entry ∈ store.names.entries, IsKept tables entry)
    (present : store.names.find? (SimpleName.ofText name).key = some found) :
    CandidatesAnswer tables name (.ok (some found)) := by
  have kept := lawful _ (Cache.mem_of_find? present)
  obtain ⟨other, same_key, listed⟩ := kept.listed
  rw [tables.paths_congr same_key] at listed
  exact .found found kept.nonempty kept.distinct listed

variable [Image.Parser]

theorem lists_ensure_load (path : Path) (state : ModuleStore) :
    (listRules tables).Ensures (fun _ _ outcome => ∀ error, outcome = .error error →
        error.IsFailure)
      (load files path) state ∅ := by
  refine Sharing.Ensures.load ?_ ?_
  · intro error failure other same
    cases same
    exact failure
  · exact fun _ _ _ => (lists_ensure_draw state).weaken fun _ _ _ _ => nofun

theorem lists_ensure_fromPath (path : Path) (state : ModuleStore) :
    (listRules tables).Ensures (fun _ _ outcome => ∀ error, outcome = .error error →
        error.IsFailure)
      (fromPath files path) state ∅ := by
  unfold fromPath
  cases canonical_eq : canonicalize files path with
  | error error =>
    apply Sharing.Ensures.pure
    intro other same
    cases same
    exact isFailure_of_canonicalize canonical_eq
  | ok canonical =>
    refine (lists_count_paths.getOrTryCreate canonical _ (fun _ _ outcome => ∀ error,
      outcome = .error error → error.IsFailure) (fun _ _ _ _ => nofun)
      (fun _ found _ _ _ => lists_ensure_load canonical found) ?_ ?_).bind ?_
    · exact fun _ _ _ failed => failed
    · intro found kept value _
      apply (lists_ensure_publish lists_count_paths (fun _ _ => rfl) canonical value found
        kept).weaken
      exact fun _ _ _ _ => nofun
    · intro found kept outcome failed
      cases outcome with
      | error error =>
        apply Sharing.Ensures.pure
        intro other same
        cases same
        exact failed error rfl
      | ok loaded =>
        apply (lists_ensure_publish lists_count_ids (fun _ _ => rfl) loaded.id loaded found
          kept).bind
        exact fun _ _ _ _ => Sharing.Ensures.pure nofun

theorem lists_ensure_collect (name : String) (paths : List Path) (known : List Module)
    (distinct : (known.map (·.id)).Nodup) (state : ModuleStore) :
    (listRules tables).Ensures (fun _ _ outcome =>
        (∀ error, outcome = .error error → error.IsFailure) ∧
        ∀ found, outcome = .ok found → (found.map (·.id)).Nodup ∧
          (paths ≠ [] ∨ known ≠ [] → found ≠ []))
      (collect files name paths known) state ∅ := by
  -- The modules known so far stay different, and there is one as soon as a path has been visited.
  induction paths generalizing known state with
  | nil =>
    refine Sharing.Ensures.pure ⟨nofun, ?_⟩
    intro found same
    cases same
    exact ⟨distinct, fun some => some.resolve_left fun none => none rfl⟩
  | cons path rest ih =>
    rw [collect]
    apply (lists_ensure_fromPath path state).bind
    intro final kept outcome failed
    cases outcome with
    | error error =>
      refine Sharing.Ensures.pure ⟨?_, nofun⟩
      intro other same
      cases same
      exact failed error rfl
    | ok loaded =>
      dsimp only
      cases verified : loaded.verifyName name with
      | error error =>
        refine Sharing.Ensures.pure ⟨?_, nofun⟩
        intro other same
        cases same
        exact Module.isFailure_of_verifyName verified
      | ok =>
        dsimp only
        split
        · rename_i present
          have known_some : known ≠ [] := by
            intro nothing
            subst nothing
            simp at present
          apply ((ih known distinct final).hold kept).weaken
          intro _ _ _ collected
          obtain ⟨failed, made⟩ := collected
          exact ⟨failed, fun found found_eq =>
            ⟨(made found found_eq).1, fun _ => (made found found_eq).2 (.inr known_some)⟩⟩
        · rename_i absent
          have still_distinct : ((known ++ [loaded]).map (·.id)).Nodup := by
            rw [List.map_append, List.nodup_append]
            refine ⟨distinct, by simp, ?_⟩
            intro id member new single
            obtain ⟨other, present, rfl⟩ := List.mem_map.mp member
            obtain rfl := List.mem_singleton.mp single
            exact fun same => absent (List.any_eq_true.mpr ⟨other, present, by simpa using same⟩)
          apply ((ih (known ++ [loaded]) still_distinct final).hold kept).weaken
          intro _ _ _ collected
          obtain ⟨failed, made⟩ := collected
          exact ⟨failed, fun found found_eq =>
            ⟨(made found found_eq).1, fun _ => (made found found_eq).2 (.inr (by simp))⟩⟩

theorem lists_ensure_candidates (name : String) (state : ModuleStore) :
    (listRules tables).Ensures (fun _ _ outcome => CandidatesAnswer tables name outcome)
      (candidates files tables.paths name) state ∅ := by
  unfold candidates
  refine (lists_count_names.tryGet _ (fun _ kept answer => kept = ∅ ∧
    ∀ found, answer = some found → CandidatesAnswer tables name (.ok (some found))) ?_).bind ?_
  · exact fun found reached => ⟨rfl, fun list looked => .of_kept reached.lawful looked⟩
  intro missed kept answer looked
  obtain ⟨rfl, known⟩ := looked
  cases answer with
  | none =>
    dsimp only
    split
    · rename_i unlisted
      exact Sharing.Ensures.pure (.unlisted (List.isEmpty_iff.mp unlisted))
    · rename_i some_path
      have listed : tables.paths name ≠ [] := fun none => some_path (List.isEmpty_iff.mpr none)
      refine (lists_count_names.getOrTryCreate _ _ (fun _ _ outcome =>
        CandidatesAnswer tables name (outcome.map some)) ?_
        (fun _ found _ _ _ => lists_ensure_collect name _ [] List.nodup_nil found) ?_ ?_).bind ?_
      · exact fun found list reached looked => .of_kept reached.lawful looked
      · exact fun _ _ error failed => .failed error (failed.1 error rfl) listed
      · intro found kept list made
        obtain ⟨distinct, nonempty⟩ := made.2 list rfl
        have answer := CandidatesAnswer.found list (nonempty (.inl listed)) distinct listed
        refine lists_count_names.publish _ list ?_ ?_
        · exact fun later visible reached looked => .of_kept reached.lawful looked
        · intro later reached absent
          refine ⟨kept, lists_allow kept ?_, answer⟩
          intro entry member
          rcases Cache.mem_published.mp member with old | rfl
          · exact reached.lawful entry old
          · exact ⟨nonempty (.inl listed), distinct, name, rfl, listed⟩
      · intro final kept outcome answer
        cases outcome with
        | error error => exact Sharing.Ensures.pure answer
        | ok list => exact Sharing.Ensures.pure answer
  | some found => exact Sharing.Ensures.pure (known found rfl)

end ModuleStore

namespace Catalog

open ModuleStore

variable [Image.Parser]

theorem lists_ensure_routine (tables : PathTables) (call : Call) (state : ModuleStore) :
    (listRules tables).Ensures (fun _ _ _ => True) (call.routine tables) state ∅ := by
  cases call with
  | fromPath files path =>
    apply (lists_ensure_fromPath path state).bind
    exact fun _ _ _ _ => Sharing.Ensures.pure True.intro
  | candidates files name =>
    apply (lists_ensure_candidates name state).bind
    exact fun _ _ _ _ => Sharing.Ensures.pure True.intro
  | byId id =>
    refine (lists_count_ids.tryGet id (fun _ _ _ => True) fun _ _ => True.intro).bind ?_
    exact fun _ _ _ _ => Sharing.Ensures.pure True.intro
  | openModule files path expected =>
    have loads := (@lists_ensure_load tables files _ path state).weaken
      fun _ _ _ _ => True.intro
    apply (loads.openModule expected).bind
    exact fun _ _ _ _ => Sharing.Ensures.pure True.intro
  | preload files schedule =>
    have finds := fun name => (@lists_ensure_candidates tables files _ name state).weaken
      fun _ _ _ _ => True.intro
    apply (Sharing.Ensures.preload finds tables.inputs.names schedule).bind
    exact fun _ _ _ _ => Sharing.Ensures.pure True.intro
  | elsewhere =>
    apply (lists_ensure_draw state).bind
    exact fun _ _ _ _ => Sharing.Ensures.pure True.intro

/-- A state that calls of the catalog lead to, whatever the files are during each of them and in
    whatever order the calls take their steps. -/
def Reachable (catalog : Catalog) : Prop :=
  ∃ calls schedule, catalog.store = ((pool catalog.tables calls).run schedule).state

theorem reachable_run (tables : PathTables) (calls : List Call) (schedule : List Nat) :
    Reachable ⟨tables, ((pool tables calls).run schedule).state⟩ := ⟨calls, schedule, rfl⟩

theorem Reachable.kept {catalog : Catalog} (reachable : catalog.Reachable) :
    ∀ entry ∈ catalog.store.names.entries, IsKept catalog.tables entry := by
  obtain ⟨calls, schedule, store_eq⟩ := reachable
  have begins : (listRules catalog.tables).Follows (fun _ _ _ _ => True)
      (pool catalog.tables calls) fun _ => ∅ := by
    refine Sharing.Follows.start nofun fun number routine present => ?_
    obtain ⟨call, -, rfl⟩ := pool_routine present
    exact lists_ensure_routine catalog.tables call _
  obtain ⟨-, held, follows⟩ := begins.run schedule fun _ _ => True.intro
  rw [store_eq]
  exact follows.lawful

theorem Reachable.candidates {catalog : Catalog} (reachable : catalog.Reachable)
    (files : FileSystem) (name : String) :
    CandidatesAnswer catalog.tables name (catalog.candidates files name).1 := by
  have ensures := @lists_ensure_candidates catalog.tables files _ name catalog.store
  obtain ⟨-, -, answer⟩ := ensures.run (fun _ => True.intro) reachable.kept nofun
  exact answer

end Catalog

end Managed
