import Managed.Proofs.CatalogSharing
import Managed.Proofs.StoreRules

namespace Managed.ModuleStore

variable {placed : Path → Module → Prop} {canonicalize : Path → Except FileError Path}
  {files : FileSystem}

def Fits (placed : Path → Module → Prop) (files : FileSystem) : Prop :=
  ∀ path canonical, files.canonicalize path = .ok canonical →
    ∀ loaded : Module, files.canonicalize canonical = .ok loaded.path → placed canonical loaded

theorem fits_of_fixed {disk : FileSystem} (idempotent : disk.IsIdempotent)
    (fixed : files.canonicalize = disk.canonicalize) :
    Fits (Canonical disk.canonicalize) files := by
  intro path canonical at_path loaded loaded_at
  have settled := idempotent path canonical (fixed ▸ at_path)
  rw [fixed, settled] at loaded_at
  cases loaded_at
  exact ⟨rfl, settled⟩

theorem fits_ok (idempotent : files.IsIdempotent) : Fits (Canonical .ok) files := by
  intro path canonical at_path loaded loaded_at
  rw [idempotent path canonical at_path] at loaded_at
  cases loaded_at
  exact ⟨rfl, rfl⟩

def Posted (store : ModuleStore) (kept : Set Claim) : Prop :=
  ∀ loaded, .visible loaded ∈ kept → (loaded.id, loaded) ∈ store.ids.entries

theorem posted_none (store : ModuleStore) : store.Posted ∅ := fun _ none => none.elim

theorem Posted.later {first last : ModuleStore} {kept : Set Claim} (posted : first.Posted kept)
    (later : (rulesBy placed).Later first last) : last.Posted kept :=
  fun loaded member => id_later later (posted loaded member)

/-- What has been listed by its id while a call went on stays so. -/
theorem ensures_onward {α : Type} {fact : ModuleStore → α → Prop} {routine : Routine ModuleStore α}
    {state : ModuleStore} {kept : Set Claim} (posted : state.Posted kept)
    (ensures : (rulesBy placed).Ensures (fun final own result => final.Posted own ∧ fact final result)
      routine state ∅) :
    (rulesBy placed).Ensures (fun final own result => final.Posted own ∧ fact final result)
      routine state kept := by
  have framed := ensures.later.frame kept fun claim _ => Set.notMem_empty claim
  rw [Set.empty_union] at framed
  apply framed.weaken
  rintro final _ result ⟨own, rfl, -, later, own_posted, holds⟩
  exact ⟨fun loaded member => member.elim (own_posted loaded) (posted.later later loaded), holds⟩

theorem ensures_draw (state : ModuleStore) :
    (rulesBy placed).Ensures (fun _ kept id => kept = {.drawn id}) drawId state ∅ :=
  Sharing.Ensures.atomic fun _ reached => ⟨_, allows_draw reached.lawful, fun _ => rfl⟩

theorem ensures_publish_id {state : ModuleStore} {held : Set Claim} {loaded : Module}
    (visible : loaded ∈ state.paths.values) :
    (rulesBy placed).Ensures (fun final kept answer => answer = loaded ∧ kept = held ∧
        (loaded.id, loaded) ∈ final.ids.entries)
      (Cache.getOrInsert idsPart loaded.id loaded) state held := by
  have still : ∀ found, (rulesBy placed).Later state found → loaded ∈ found.paths.values := by
    intro found later
    obtain ⟨entry, member, rfl⟩ := List.mem_map.mp visible
    exact List.mem_map_of_mem (path_later later member)
  refine counts_ids.publish loaded.id loaded ?_ ?_
  · intro found other reached present
    have member := Cache.mem_of_find? present
    have same_id : other.id = loaded.id := reached.lawful.by_id _ member
    obtain ⟨entry, seen, rfl⟩ := List.mem_map.mp (reached.lawful.visible _ member)
    obtain ⟨entry', seen', rfl⟩ := List.mem_map.mp (still found reached.later)
    obtain rfl := reached.lawful.told_apart entry seen entry' seen' same_id
    exact ⟨rfl, rfl, member⟩
  · intro found reached absent
    exact ⟨held, allows_publish_id reached.lawful reached.holds (still found reached.later) absent,
      rfl, rfl, Cache.mem_published.mpr (.inr rfl)⟩

structure Sees (placed : Path → Module → Prop) (canonical : Path) (loaded : Module)
    (store : ModuleStore) (kept : Set Claim) : Prop where
  placed : placed canonical loaded
  visible : loaded ∈ store.paths.values
  own : ∀ other, .visible other ∈ kept → other = loaded

theorem sees_present {store : ModuleStore} {canonical : Path} {loaded : Module} {kept : Set Claim}
    (lawful : LawfulBy placed store) (present : store.paths.find? canonical = some loaded)
    (none : ∀ other, .visible other ∉ kept) : Sees placed canonical loaded store kept := by
  have member := Cache.mem_of_find? present
  exact ⟨lawful.placed _ member, List.mem_map_of_mem member, fun other claimed =>
    absurd claimed (none other)⟩

theorem ensures_publish_path {state : ModuleStore} {canonical : Path} {loaded : Module}
    (due : placed canonical loaded) :
    (rulesBy placed).Ensures (fun final kept answer => Sees placed canonical answer final kept)
      (pathsPart.atomic (Cache.publish canonical loaded)) state {.drawn loaded.id} := by
  refine counts_paths.publish canonical loaded ?_ ?_
  · exact fun found visible reached present => sees_present reached.lawful present nofun
  · intro found reached absent
    have drawn := reached.holds _ rfl
    refine ⟨_, allows_publish_path reached.lawful due drawn absent, due, ?_, ?_⟩
    · exact List.mem_map.mpr ⟨_, Cache.mem_published.mpr (.inr rfl), rfl⟩
    · intro other claimed
      exact Claim.visible.inj claimed

theorem ensures_byId (id : ModuleId) (state : ModuleStore) :
    (rulesBy placed).Ensures (fun final kept answer => kept = ∅ ∧ ∀ loaded, answer = some loaded →
        (loaded.id, loaded) ∈ final.ids.entries)
      (byId id) state ∅ := by
  refine counts_ids.tryGet id _ fun found reached => ⟨rfl, fun loaded looked => ?_⟩
  have member := Cache.mem_of_find? looked
  have same_id : loaded.id = id := reached.lawful.by_id _ member
  exact same_id ▸ member

structure Finds (placed : Path → Module → Prop) (canonicalize : Path → Except FileError Path)
    (path : Path) (loaded : Module) (store : ModuleStore) (kept : Set Claim) : Prop where
  placed : ∃ canonical, canonicalize path = .ok canonical ∧ placed canonical loaded
  by_id : (loaded.id, loaded) ∈ store.ids.entries
  own : ∀ other, .visible other ∈ kept → other = loaded

theorem Finds.at_path {map : Path → Except FileError Path} {path : Path} {loaded : Module}
    {store : ModuleStore} {kept : Set Claim}
    (finds : Finds (Canonical canonicalize) map path loaded store kept) :
    map path = .ok loaded.path := by
  obtain ⟨canonical, at_path, rfl, -⟩ := finds.placed
  exact at_path

variable [Image.Parser]

theorem ensures_load (path : Path) (state : ModuleStore) :
    (rulesBy placed).Ensures (fun _ kept outcome => (∀ error, outcome = .error error → kept = ∅) ∧
        ∀ loaded, outcome = .ok loaded →
          kept = {.drawn loaded.id} ∧ files.canonicalize path = .ok loaded.path)
      (load files path) state ∅ := by
  refine Sharing.Ensures.load (fun _ _ => ⟨fun _ _ => rfl, nofun⟩) fun canonical contents
    canonical_eq => ?_
  apply (ensures_draw state).weaken
  intro drawn kept id same
  subst same
  refine ⟨nofun, fun loaded built => ?_⟩
  cases built
  exact ⟨rfl, canonical_eq⟩

theorem ensures_fromPath (fits : Fits placed files) (path : Path) (state : ModuleStore) :
    (rulesBy placed).Ensures (fun final kept outcome => final.Posted kept ∧
        ∀ loaded, outcome = .ok loaded → Finds placed files.canonicalize path loaded final kept)
      (fromPath files path) state ∅ := by
  unfold fromPath
  cases canonical_eq : ModuleStore.canonicalize files path with
  | error error => exact Sharing.Ensures.pure ⟨posted_none _, nofun⟩
  | ok canonical =>
    have at_path := canonicalize_eq_ok.mp canonical_eq
    refine (counts_paths.getOrTryCreate canonical _ (fun final kept outcome =>
      (∀ error, outcome = .error error → kept = ∅) ∧
        ∀ loaded, outcome = .ok loaded → Sees placed canonical loaded final kept) ?_
      (fun _ found _ _ _ => ensures_load canonical found) ?_ ?_).bind ?_
    · intro found value reached looked
      refine ⟨nofun, fun loaded loaded_eq => ?_⟩
      cases loaded_eq
      exact sees_present reached.lawful looked nofun
    · exact fun found kept error made => ⟨made.1, nofun⟩
    · intro found kept value made
      obtain ⟨rfl, value_path⟩ := made.2 value rfl
      apply (ensures_publish_path (fits path canonical at_path value value_path)).weaken
      intro final kept answer sees
      refine ⟨nofun, fun loaded loaded_eq => ?_⟩
      cases loaded_eq
      exact sees
    · intro found kept outcome made
      cases outcome with
      | error error =>
        obtain rfl := made.1 error rfl
        exact Sharing.Ensures.pure ⟨posted_none _, nofun⟩
      | ok loaded =>
        have sees := made.2 loaded rfl
        apply (ensures_publish_id sees.visible).bind
        intro final _ _ listed
        obtain ⟨rfl, rfl, by_id⟩ := listed
        refine Sharing.Ensures.pure ⟨fun other claimed => ?_, fun other loaded_eq => ?_⟩
        · exact sees.own other claimed ▸ by_id
        · cases loaded_eq
          exact ⟨⟨canonical, at_path, sees.placed⟩, by_id, sees.own⟩

theorem ensures_collect (fits : Fits placed files) (name : String) (paths : List Path)
    (known : List Module) (state : ModuleStore) (knows : state.Knows known) :
    (rulesBy placed).Ensures (fun final kept outcome => final.Posted kept ∧
        ∀ found, outcome = .ok found → final.Knows found)
      (collect files name paths known) state ∅ := by
  -- What is known stays known while the next module is looked for.
  induction paths generalizing known state with
  | nil =>
    refine Sharing.Ensures.pure ⟨posted_none _, fun found found_eq => ?_⟩
    cases found_eq
    exact knows
  | cons path rest ih =>
    rw [collect]
    apply (ensures_fromPath fits path state).later.bind
    intro final kept outcome served
    obtain ⟨later, posted, finds⟩ := served
    cases outcome with
    | error error => exact Sharing.Ensures.pure ⟨posted, nofun⟩
    | ok loaded =>
      have still : final.Knows known := knows.later later
      dsimp only
      cases loaded.verifyName name with
      | error error => exact Sharing.Ensures.pure ⟨posted, nofun⟩
      | ok =>
        dsimp only
        split
        · exact ensures_onward posted (ih known final still)
        · refine ensures_onward posted (ih (known ++ [loaded]) final ?_)
          intro other member
          rcases List.mem_append.mp member with old | new
          · exact still other old
          · obtain rfl := List.mem_singleton.mp new
            exact (finds other rfl).by_id

theorem ensures_candidates (fits : Fits placed files) (listed : String → List Path) (name : String)
    (state : ModuleStore) :
    (rulesBy placed).Ensures (fun final kept outcome => final.Posted kept ∧
        ∀ found, outcome = .ok (some found) → final.Knows found)
      (candidates files listed name) state ∅ := by
  unfold candidates
  refine (counts_names.tryGet _ (fun found kept answer => kept = ∅ ∧
    ∀ list, answer = some list → found.Knows list) ?_).bind ?_
  · exact fun found reached =>
      ⟨rfl, fun list looked => reached.lawful.names _ (Cache.mem_of_find? looked)⟩
  intro missed kept answer looked
  obtain ⟨rfl, knows⟩ := looked
  cases answer with
  | none =>
    dsimp only
    split
    · exact Sharing.Ensures.pure ⟨posted_none _, nofun⟩
    · refine (counts_names.getOrTryCreate _ _ (fun final kept outcome => final.Posted kept ∧
        ∀ found, outcome = .ok found → final.Knows found) ?_
        (fun _ found _ _ _ => ensures_collect fits name _ [] found nofun) ?_ ?_).bind ?_
      · intro found list reached looked
        refine ⟨posted_none _, fun other list_eq => ?_⟩
        cases list_eq
        exact reached.lawful.names _ (Cache.mem_of_find? looked)
      · exact fun _ _ _ made => made
      · intro found kept list made
        obtain ⟨posted, known⟩ := made
        refine counts_names.publish _ list ?_ ?_
        · intro later visible reached looked
          refine ⟨posted.later reached.later, fun other visible_eq => ?_⟩
          cases visible_eq
          exact reached.lawful.names _ (Cache.mem_of_find? looked)
        · intro later reached absent
          have knows := (known list rfl).later reached.later
          have still : later.Posted kept := posted.later reached.later
          refine ⟨kept, allows_publish_name reached.lawful reached.holds knows, still,
            fun other list_eq => ?_⟩
          cases list_eq
          exact knows
      · intro final kept outcome made
        obtain ⟨posted, known⟩ := made
        cases outcome with
        | error error => exact Sharing.Ensures.pure ⟨posted, nofun⟩
        | ok list =>
          refine Sharing.Ensures.pure ⟨posted, fun found found_eq => ?_⟩
          cases found_eq
          exact known list rfl
  | some list =>
    refine Sharing.Ensures.pure ⟨posted_none _, fun found found_eq => ?_⟩
    cases found_eq
    exact knows list rfl

theorem ensures_preload (fits : Fits placed files) (listed : String → List Path)
    (names : List String) (schedule : List Nat) (state : ModuleStore) :
    (rulesBy placed).Ensures (fun final kept _ => final.Posted kept)
      (preload files listed names schedule) state ∅ := by
  apply (Sharing.Ensures.preload (fun name => ensures_candidates fits listed name state) names
    schedule).weaken
  intro final kept _ ended loaded claimed
  obtain ⟨results, own, ended⟩ := ended
  rw [ended.claims] at claimed
  obtain ⟨number, mine⟩ := Set.mem_iUnion.mp claimed
  cases present : results[number]? with
  | none =>
    rw [ended.idle number present] at mine
    exact mine.elim
  | some result =>
    obtain ⟨earlier, later, posted, -⟩ := ended.results number result present
    exact posted.later later loaded mine

end Managed.ModuleStore

namespace Managed.Catalog

open ModuleStore

structure Call.Serves (placed : Path → Module → Prop) (canonicalize : Path → Except FileError Path)
    (call : Call) (store : ModuleStore) (kept : Set Claim) (answer : Answer) : Prop where
  knows : store.Knows answer.handed
  finds : ∀ files path loaded, call = .fromPath files path → answer = .fromPath (.ok loaded) →
    Finds placed canonicalize path loaded store kept

theorem Call.Serves.of_none {placed : Path → Module → Prop}
    {canonicalize : Path → Except FileError Path} {call : Call} {store : ModuleStore}
    {kept : Set Claim} {answer : Answer} (handed : answer.handed = [])
    (other : ∀ loaded, answer ≠ .fromPath (.ok loaded)) :
    call.Serves placed canonicalize store kept answer where
  knows := by
    rw [handed]
    exact nofun
  finds := fun _ _ loaded _ same => absurd same (other loaded)

def Call.LooksAt (stated : FileSystem → Prop) : Call → Prop
  | fromPath files _ => stated files
  | candidates files _ => stated files
  | byId _ => True
  | openModule files _ _ => stated files
  | preload files _ => stated files
  | elsewhere => True

theorem Call.LooksAt.weaken {stated weaker : FileSystem → Prop} {call : Call}
    (looks : call.LooksAt stated) (implies : ∀ files, stated files → weaker files) :
    call.LooksAt weaker := by
  cases call with
  | byId => exact True.intro
  | elsewhere => exact True.intro
  | fromPath => exact implies _ looks
  | candidates => exact implies _ looks
  | openModule => exact implies _ looks
  | preload => exact implies _ looks

variable [Image.Parser]

/-- The files may be others in every call. -/
theorem ensures_call {placed : Path → Module → Prop} (tables : PathTables) {call : Call}
    (looks : call.LooksAt (Fits placed)) (state : ModuleStore) :
    (rulesBy placed).Ensures (fun final kept answer => final.Posted kept ∧
        ∀ map, call.Canonicalizes map → call.Serves placed map final kept answer)
      (call.routine tables) state ∅ := by
  cases call with
  | fromPath files path =>
    apply (ensures_fromPath looks path state).bind
    intro final kept outcome served
    obtain ⟨posted, finds⟩ := served
    refine Sharing.Ensures.pure ⟨posted, fun map fixed => ?_⟩
    cases outcome with
    | error error => exact .of_none rfl nofun
    | ok loaded =>
      refine ⟨?_, ?_⟩
      · intro other member
        obtain rfl := List.mem_singleton.mp member
        exact (finds other rfl).by_id
      · intro other_files other_path other asked answered
        cases asked
        cases answered
        obtain rfl : files.canonicalize = map := fixed
        exact finds loaded rfl
  | candidates files name =>
    apply (ensures_candidates looks tables.paths name state).bind
    intro final kept outcome served
    obtain ⟨posted, knows⟩ := served
    refine Sharing.Ensures.pure ⟨posted, fun map fixed => ?_⟩
    match outcome with
    | .error error => exact .of_none rfl nofun
    | .ok none => exact .of_none rfl nofun
    | .ok (some found) => exact ⟨knows found rfl, nofun⟩
  | byId id =>
    apply (ensures_byId id state).bind
    intro final kept answer served
    obtain ⟨rfl, known⟩ := served
    refine Sharing.Ensures.pure ⟨posted_none _, fun map fixed => ?_⟩
    cases answer with
    | none => exact .of_none rfl nofun
    | some loaded =>
      refine ⟨?_, nofun⟩
      intro other member
      obtain rfl := List.mem_singleton.mp member
      exact known other rfl
  | openModule files path expected =>
    have loads : (rulesBy placed).Ensures (fun final kept _ => final.Posted kept) (load files path)
        state ∅ := by
      apply (ensures_load path state).weaken
      intro final kept outcome loaded other claimed
      cases outcome with
      | error error =>
        rw [loaded.1 error rfl] at claimed
        cases claimed
      | ok made =>
        rw [(loaded.2 made rfl).1] at claimed
        cases claimed
    apply (loads.openModule expected).bind
    exact fun _ _ _ posted => Sharing.Ensures.pure ⟨posted, fun _ _ => .of_none rfl nofun⟩
  | preload files schedule =>
    apply (ensures_preload looks tables.paths tables.inputs.names schedule state).bind
    exact fun _ _ _ posted => Sharing.Ensures.pure ⟨posted, fun _ _ => .of_none rfl nofun⟩
  | elsewhere =>
    apply (ensures_draw state).bind
    intro final kept id drawn
    subst drawn
    exact Sharing.Ensures.pure ⟨nofun, fun _ _ => .of_none rfl nofun⟩

theorem ensures_routine {disk : FileSystem} (idempotent : disk.IsIdempotent)
    (tables : PathTables) {call : Call} (fixed : call.Canonicalizes disk.canonicalize)
    (state : ModuleStore) :
    (rules disk.canonicalize).Ensures
      (call.Serves (Canonical disk.canonicalize) disk.canonicalize) (call.routine tables) state
      ∅ := by
  have same : call.LooksAt fun files => files.canonicalize = disk.canonicalize := by
    cases call <;> exact fixed
  have looks := same.weaken fun files fixed => fits_of_fixed idempotent fixed
  exact (ensures_call tables looks state).weaken fun _ _ _ served => served.2 disk.canonicalize fixed

end Managed.Catalog
