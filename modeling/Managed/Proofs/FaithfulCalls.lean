import Managed.Proofs.CatalogCallRules
import Managed.Proofs.TruthfulStore

namespace Managed

namespace ModuleStore

variable {disk : FileSystem} {tables : PathTables} {store : ModuleStore}

theorem knows_nil (store : ModuleStore) : store.Knows [] :=
  fun _ member => absurd member List.not_mem_nil

/-- Modules that are known have the same id only if they have the same path. -/
theorem id_eq_iff {canonicalize : Path → Except FileError Path}
    (lawful : Lawful canonicalize store) {left right : Module}
    (left_known : (left.id, left) ∈ store.ids.entries)
    (right_known : (right.id, right) ∈ store.ids.entries) :
    left.id = right.id ↔ left.path = right.path := by
  have left_visible := lawful.id_path _ left_known
  have right_visible := lawful.id_path _ right_known
  constructor
  · exact fun same => congrArg Prod.fst (lawful.told_apart _ left_visible _ right_visible same)
  · intro same
    have found := lawful.find_path left_visible
    rw [same, lawful.find_path right_visible] at found
    obtain rfl := Option.some.inj found
    rfl

theorem adjoin_withoutId {canonicalize : Path → Except FileError Path}
    (lawful : Lawful canonicalize store) {known : List Module} (knows : store.Knows known)
    {loaded : Module} (loaded_known : (loaded.id, loaded) ∈ store.ids.entries) :
    adjoin (known.map Module.withoutId) loaded.withoutId =
      (if known.any (·.id = loaded.id) then known else known ++ [loaded]).map
        Module.withoutId := by
  have same_any : (known.map Module.withoutId).any (·.path = loaded.withoutId.path) =
      known.any (·.id = loaded.id) := by
    rw [List.any_map, Bool.eq_iff_iff, List.any_eq_true, List.any_eq_true]
    have same : ∀ other ∈ known, other.id = loaded.id ↔ other.path = loaded.path :=
      fun other member => id_eq_iff lawful (knows other member) loaded_known
    simp only [Function.comp_apply, decide_eq_true_eq]
    constructor
    · rintro ⟨other, member, at_path⟩
      exact ⟨other, member, (same other member).mpr at_path⟩
    · rintro ⟨other, member, with_id⟩
      exact ⟨other, member, (same other member).mp with_id⟩
  rw [adjoin, same_any]
  split
  · rfl
  · rw [List.map_append]
    rfl

variable [Image.Parser]

def faithful (disk : FileSystem) (tables : PathTables) : Sharing ModuleStore Claim :=
  (rules disk.canonicalize).also (Truthful disk tables)

theorem faithful_counts_names : (faithful disk tables).Counts namesPart :=
  counts_names.also governs_names.counted

theorem faithful_ensures_fromPath (idempotent : disk.IsIdempotent) (path : Path)
    (state : ModuleStore) :
    (faithful disk tables).Ensures (fun final kept outcome =>
        (∀ loaded, outcome = .ok loaded →
          Finds (Canonical disk.canonicalize) disk.canonicalize path loaded final kept) ∧
        outcome.map Module.withoutId = moduleAt disk path)
      (fromPath disk path) state ∅ := by
  have finds := ensures_fromPath (fits_of_fixed idempotent rfl) path state
  have answers := @truth_ensures_fromPath _ disk tables state ∅ idempotent path
  apply (finds.also answers).weaken
  intro final kept outcome answered
  obtain ⟨⟨-, found⟩, answer⟩ := answered
  exact ⟨found, answer.withoutId fun loaded same => (found loaded same).at_path⟩

inductive Collected (gathered : Except Error (List Module)) (store : ModuleStore) :
    Except Error (List Module) → Prop where
  | found (list : List Module) (knows : store.Knows list)
      (same : gathered = .ok (list.map Module.withoutId)) : Collected gathered store (.ok list)
  | failed (error : Error) (same : gathered = .error error) :
    Collected gathered store (.error error)

theorem faithful_ensures_collect (idempotent : disk.IsIdempotent) (name : String)
    (paths : List Path) (known : List Module) (state : ModuleStore)
    (lawful : (faithful disk tables).Lawful state) (knows : state.Knows known) :
    (faithful disk tables).Ensures (fun final _ outcome =>
        Collected (gather disk name paths (known.map Module.withoutId)) final outcome)
      (collect disk name paths known) state ∅ := by
  -- The modules known so far stay known, and without their ids they are the ones gathered so far.
  induction paths generalizing known state with
  | nil => exact Sharing.Ensures.pure (.found known knows rfl)
  | cons path rest ih =>
    rw [collect]
    apply ((faithful_ensures_fromPath idempotent path state).lawful lawful).later.bind
    intro final kept outcome served
    obtain ⟨later, lawful_final, finds, read⟩ := served
    rw [gather, ← read]
    cases outcome with
    | error error => exact Sharing.Ensures.pure (.failed error rfl)
    | ok loaded =>
      have grown : (rules disk.canonicalize).Later state final := later
      have still : final.Knows known := knows.later grown
      have loaded_known := (finds loaded rfl).by_id
      have same_check : loaded.withoutId.verifyName name = loaded.verifyName name := rfl
      simp only [Except.map, same_check]
      cases loaded.verifyName name with
      | error error => exact Sharing.Ensures.pure (.failed error rfl)
      | ok =>
        dsimp only
        rw [adjoin_withoutId lawful_final.1 still loaded_known]
        split
        · exact (ih known final lawful_final still).hold kept
        · refine (ih (known ++ [loaded]) final lawful_final ?_).hold kept
          intro other member
          rcases List.mem_append.mp member with old | new
          · exact still other old
          · obtain rfl := List.mem_singleton.mp new
            exact loaded_known

theorem due_of_find {name : String} {list : List Module}
    (lawful : (faithful disk tables).Lawful store)
    (looked : store.names.find? (SimpleName.ofText name).key = some list) :
    candidatesAt disk tables.paths name = .ok (some (list.map Module.withoutId)) :=
  lawful.2.names _ (Cache.mem_of_find? looked) name rfl

theorem faithful_ensures_publish_name {name : String} {list : List Module} {state : ModuleStore}
    {held : Set Claim} (knows : state.Knows list)
    (due : candidatesAt disk tables.paths name = .ok (some (list.map Module.withoutId))) :
    (faithful disk tables).Ensures (fun _ _ visible =>
        candidatesAt disk tables.paths name = .ok (some (visible.map Module.withoutId)))
      (namesPart.atomic (Cache.publish (SimpleName.ofText name).key list)) state held := by
  refine faithful_counts_names.publish _ list ?_ ?_
  · exact fun found visible reached looked => due_of_find reached.lawful looked
  · intro found reached absent
    have known := knows.later reached.of_also.later
    refine ⟨held, ?_, due⟩
    exact (allows_publish_name reached.lawful.1 reached.holds known).also
      fun _ => reached.lawful.2.publish_name due

theorem faithful_ensures_candidates (idempotent : disk.IsIdempotent) (name : String)
    (state : ModuleStore) :
    (faithful disk tables).Ensures (fun _ _ outcome =>
        candidatesAt disk tables.paths name = outcome.map (Option.map (List.map Module.withoutId)))
      (candidates disk tables.paths name) state ∅ := by
  unfold candidates
  refine (faithful_counts_names.tryGet _ (fun _ kept answer => kept = ∅ ∧
    ∀ list, answer = some list →
      candidatesAt disk tables.paths name = .ok (some (list.map Module.withoutId))) ?_).bind ?_
  · exact fun found reached => ⟨rfl, fun list looked => due_of_find reached.lawful looked⟩
  intro missed kept answer looked
  obtain ⟨rfl, due⟩ := looked
  cases answer with
  | some list => exact Sharing.Ensures.pure (due list rfl)
  | none =>
    dsimp only
    split
    · rename_i unlisted
      exact Sharing.Ensures.pure (if_pos unlisted)
    · rename_i listed
      have gathered : candidatesAt disk tables.paths name =
          (gather disk name (tables.paths name) ([].map Module.withoutId)).map some := if_neg listed
      refine (faithful_counts_names.getOrTryCreate _ _ (fun _ _ outcome =>
        candidatesAt disk tables.paths name =
          outcome.map fun list => some (list.map Module.withoutId)) ?_
        (fun _ found _ _ reached => faithful_ensures_collect idempotent name _ [] found
          reached.lawful (knows_nil found)) ?_ ?_).bind ?_
      · exact fun found list reached looked => due_of_find reached.lawful looked
      · intro found kept error made
        cases made with
        | failed error same =>
          rw [gathered, same]
          rfl
      · intro found kept list made
        cases made with
        | found list knows same =>
          apply faithful_ensures_publish_name knows
          rw [gathered, same]
          rfl
      · intro final kept outcome made
        cases outcome with
        | error error => exact Sharing.Ensures.pure made
        | ok list => exact Sharing.Ensures.pure made

end ModuleStore

namespace Catalog

open ModuleStore

def Call.Reads (disk : FileSystem) : Call → Prop
  | fromPath files _ => files = disk
  | candidates files _ => files = disk
  | byId _ => True
  | openModule files _ _ => files = disk
  | preload files _ => files = disk
  | elsewhere => True

theorem Call.Reads.canonicalizes {disk : FileSystem} {call : Call} (reads : call.Reads disk) :
    call.Canonicalizes disk.canonicalize := by
  cases call with
  | fromPath files path => exact congrArg FileSystem.canonicalize reads
  | candidates files name => exact congrArg FileSystem.canonicalize reads
  | byId id => exact True.intro
  | openModule files path expected => exact congrArg FileSystem.canonicalize reads
  | preload files schedule => exact congrArg FileSystem.canonicalize reads
  | elsewhere => exact True.intro

variable {disk : FileSystem} {tables : PathTables}

variable [Image.Parser]

theorem faithful_ensures_draw (state : ModuleStore) :
    (faithful disk tables).Ensures (fun _ _ _ => True) drawId state ∅ :=
  ((ensures_draw state).also (@truth_ensures_draw _ disk tables state ∅)).weaken
    fun _ _ _ _ => True.intro

theorem faithful_ensures_routine (idempotent : disk.IsIdempotent) {call : Call}
    (reads : call.Reads disk) (state : ModuleStore) :
    (faithful disk tables).Ensures (fun _ _ _ => True) (call.routine tables) state ∅ := by
  cases call with
  | fromPath files path =>
    cases reads
    apply (faithful_ensures_fromPath idempotent path state).bind
    exact fun _ _ _ _ => Sharing.Ensures.pure True.intro
  | candidates files name =>
    cases reads
    apply (faithful_ensures_candidates idempotent name state).bind
    exact fun _ _ _ _ => Sharing.Ensures.pure True.intro
  | byId id =>
    have counts : (faithful disk tables).Counts idsPart := counts_ids.also governs_ids.counted
    refine (counts.tryGet id (fun _ _ _ => True) fun _ _ => True.intro).bind ?_
    exact fun _ _ _ _ => Sharing.Ensures.pure True.intro
  | openModule files path expected =>
    cases reads
    have loads : (faithful disk tables).Ensures (fun _ _ _ => True) (load disk path) state ∅ :=
      ((ensures_load path state).also (@truth_ensures_load _ disk tables state ∅ path)).weaken
        fun _ _ _ _ => True.intro
    apply (loads.openModule expected).bind
    exact fun _ _ _ _ => Sharing.Ensures.pure True.intro
  | preload files schedule =>
    cases reads
    have finds := fun name =>
      (@faithful_ensures_candidates disk tables _ idempotent name state).weaken
        fun _ _ _ _ => True.intro
    apply (Sharing.Ensures.preload finds tables.inputs.names schedule).bind
    exact fun _ _ _ _ => Sharing.Ensures.pure True.intro
  | elsewhere =>
    apply (faithful_ensures_draw state).bind
    exact fun _ _ _ _ => Sharing.Ensures.pure True.intro

end Catalog

end Managed
