import Mathlib.Data.List.Nodup
import Managed.Image.Headers
import Managed.Proofs.CatalogRuns

namespace Managed.Catalog

open ModuleStore

variable {disk : FileSystem}

section

variable [Image.Parser]

structure Gives (disk : FileSystem) (store : ModuleStore) (loaded : Module) : Prop where
  by_id : ((ModuleStore.byId loaded.id).run store).1 = some loaded
  own_path : disk.canonicalize loaded.path = .ok loaded.path
  by_path : ∀ (files : FileSystem) (path : Path), files.canonicalize path = .ok loaded.path →
    ((ModuleStore.fromPath files path).run store).1 = .ok loaded

inductive Call.Due (disk : FileSystem) (loaded : Module) : Call → Answer → Prop where
  | byId : Due disk loaded (.byId loaded.id) (.byId (some loaded))
  | fromPath (files : FileSystem) (path : Path)
      (at_path : disk.canonicalize path = .ok loaded.path) :
      Due disk loaded (.fromPath files path) (.fromPath (.ok loaded))

theorem run_fromPath {files : FileSystem} {path : Path} {loaded : Module} {store : ModuleStore}
    (at_path : files.canonicalize path = .ok loaded.path)
    (visible : store.paths.find? loaded.path = some loaded)
    (known : store.ids.find? loaded.id = some loaded) :
    ((ModuleStore.fromPath files path).run store).1 = .ok loaded := by
  have canonical := canonicalize_eq_ok.mpr at_path
  have hit : Cache.tryGet loaded.path store.paths =
      (some loaded, { store.paths with hits := store.paths.hits + 1 }) := by
    simp only [Cache.tryGet, visible]
  have taken : Cache.publish loaded.id loaded store.ids = (loaded, store.ids) :=
    Cache.publish_taken known
  simp only [ModuleStore.fromPath, canonical, Cache.getOrTryCreate, Cache.getOrInsert, Part.atomic,
    bind, pure, Routine.run_bind, Routine.run_atomic, Routine.run_done, pathsPart, idsPart, hit,
    taken]

theorem gives_of_mem {store : ModuleStore} (lawful : Lawful disk.canonicalize store)
    {loaded : Module} (known : (loaded.id, loaded) ∈ store.ids.entries) :
    Gives disk store loaded where
  by_id := by
    rw [ModuleStore.byId, Part.atomic, Routine.run_atomic]
    exact (Cache.tryGet_fst _ _).trans (lawful.find_id known)
  own_path := lawful.settled _ (lawful.id_path _ known)
  by_path := fun files path at_path =>
    run_fromPath at_path (lawful.find_path (lawful.id_path _ known)) (lawful.find_id known)

theorem ensures_due {tables : PathTables} {call : Call} {due : Answer} {loaded : Module}
    (asks : call.Due disk loaded due) (fixed : call.Canonicalizes disk.canonicalize)
    {state : ModuleStore} (lawful : Lawful disk.canonicalize state)
    (known : (loaded.id, loaded) ∈ state.ids.entries) :
    (rules disk.canonicalize).Ensures (fun _ _ answer => answer = due) (call.routine tables)
      state ∅ := by
  have known_later : ∀ found, (rules disk.canonicalize).Reaches state ∅ found →
      (idsPart.get found).find? loaded.id = some loaded :=
    fun found reached => reached.lawful.find_id (id_later reached.later known)
  have visible_later : ∀ found, (rules disk.canonicalize).Reaches state ∅ found →
      (pathsPart.get found).find? loaded.path = some loaded :=
    fun found reached =>
      reached.lawful.find_path (path_later reached.later (lawful.id_path _ known))
  cases asks with
  | byId =>
    apply (counts_ids.tryGet loaded.id (fun _ _ answer => answer = some loaded)
      known_later).bind
    intro _ _ answer same
    subst same
    exact Sharing.Ensures.pure rfl
  | fromPath files path at_path =>
    have canonical : ModuleStore.canonicalize files path = .ok loaded.path :=
      canonicalize_eq_ok.mpr (fixed ▸ at_path)
    suffices found : (rules disk.canonicalize).Ensures (fun _ _ outcome => outcome = .ok loaded)
        (ModuleStore.fromPath files path) state ∅ by
      apply found.bind
      intro _ _ outcome same
      subst same
      exact Sharing.Ensures.pure rfl
    unfold ModuleStore.fromPath
    rw [canonical]
    refine (counts_paths.getOrTryCreate loaded.path (fun _ _ _ => False)
      (fun final kept outcome => kept = ∅ ∧
        (rules disk.canonicalize).Reaches state ∅ final ∧ outcome = .ok loaded)
      ?_ ?_ ?_ ?_).bind ?_
    · intro found value reached looked
      rw [visible_later found reached] at looked
      cases looked
      exact ⟨rfl, reached, rfl⟩
    · intro missed found reached looked
      rw [visible_later missed reached] at looked
      cases looked
    · exact fun _ _ _ impossible => impossible.elim
    · exact fun _ _ _ impossible => impossible.elim
    · intro final kept outcome looked
      obtain ⟨rfl, reached, rfl⟩ := looked
      have published : (rules disk.canonicalize).Ensures (fun _ _ answer => answer = loaded)
          (Cache.getOrInsert idsPart loaded.id loaded) final ∅ := by
        refine counts_ids.publish loaded.id loaded ?_ ?_
        · intro found visible again looked
          rw [known_later found (reached.trans again)] at looked
          exact (Option.some.inj looked).symm
        · intro found again absent
          rw [known_later found (reached.trans again)] at absent
          cases absent
      apply published.bind
      intro _ _ answer same
      subst same
      exact Sharing.Ensures.pure rfl

def Expected (disk : FileSystem) (calls : List Call) (number : Nat) (store : ModuleStore)
    (kept : Set Claim) (answer : Answer) : Prop :=
  ∃ call, calls[number]? = some call ∧
    call.Serves (Canonical disk.canonicalize) disk.canonicalize store kept answer

theorem follows_start (idempotent : disk.IsIdempotent) (tables : PathTables) {calls : List Call}
    (fixed : ∀ call ∈ calls, call.Canonicalizes disk.canonicalize) :
    (rules disk.canonicalize).Follows (Expected disk calls) (pool tables calls) fun _ => ∅ := by
  refine Sharing.Follows.start lawful_start fun number routine present => ?_
  obtain ⟨call, found, rfl⟩ := pool_routine present
  apply (ensures_routine idempotent tables (fixed call (List.mem_of_getElem? found))
    _).weaken
  exact fun _ _ _ serves => ⟨call, found, serves⟩

end

section

variable {calls : List Call} {current : Pool ModuleStore Answer} {held : Nat → Set Claim}

theorem known_of_shows
    (follows : (rules disk.canonicalize).Follows (Expected disk calls) current held)
    {loaded : Module} (shown : Shows current loaded) :
    (loaded.id, loaded) ∈ current.state.ids.entries := by
  rcases shown with ⟨number, answer, ended, handed⟩ | member
  · obtain ⟨state, later, call, -, serves⟩ := follows.result ended
    exact id_later later (serves.knows loaded handed)
  · obtain ⟨⟨id, other⟩, present, rfl⟩ := List.mem_map.mp member
    have same_id : other.id = id := follows.lawful.by_id _ present
    exact same_id ▸ present

theorem shows_of_known {loaded : Module}
    (known : (loaded.id, loaded) ∈ current.state.ids.entries) : Shows current loaded :=
  .inr (List.mem_map.mpr ⟨_, known, rfl⟩)

theorem eq_of_path
    (follows : (rules disk.canonicalize).Follows (Expected disk calls) current held)
    {first second : Module} (first_shown : Shows current first)
    (second_shown : Shows current second) (same : first.path = second.path) : first = second := by
  have first_found := follows.lawful.find_path
    (follows.lawful.id_path _ (known_of_shows follows first_shown))
  have second_found := follows.lawful.find_path
    (follows.lawful.id_path _ (known_of_shows follows second_shown))
  rw [same, second_found] at first_found
  exact (Option.some.inj first_found).symm

theorem unshown_of_drawn
    (follows : (rules disk.canonicalize).Follows (Expected disk calls) current held) {number : Nat}
    {id : ModuleId} (drawn : .drawn id ∈ held number) {loaded : Module}
    (shown : Shows current loaded) : loaded.id ≠ id :=
  (follows.holds number _ drawn).2 _ (follows.lawful.id_path _ (known_of_shows follows shown))

theorem unshown_of_answer
    (follows : (rules disk.canonicalize).Follows (Expected disk calls) current held)
    {start : Pool ModuleStore Answer} {held' : Nat → Set Claim} {schedule : List Nat}
    (kept : Kept start held' schedule held) {number : Nat} {files : FileSystem} {path : Path}
    {loaded : Module} (called : calls[number]? = some (.fromPath files path))
    (ended : current.results[number]? = some (some (.fromPath (.ok loaded)))) :
    disk.canonicalize path = .ok loaded.path ∧
      ∀ id, (number, id) ∈ draws start schedule → id ≠ loaded.id →
        ∀ other, Shows current other → other.id ≠ id := by
  obtain ⟨state, -, call, call_eq, serves⟩ := follows.result ended
  rw [called, Option.some.injEq] at call_eq
  have finds := serves.finds files path loaded call_eq.symm rfl
  refine ⟨finds.at_path, fun id drew differs other shown => ?_⟩
  obtain ⟨claim, member, rfl⟩ := kept.draws number id drew
  cases claim with
  | drawn id => exact unshown_of_drawn follows member shown
  | visible winner =>
    obtain rfl := finds.own winner member
    exact absurd rfl differs

/-- What a call loaded that is not visible when the call ends is not visible when others have taken
    steps. -/
theorem unshown_of_ended
    (follows : (rules disk.canonicalize).Follows (Expected disk calls) current held)
    {start last : Pool ModuleStore Answer} {first held' : Nat → Set Claim}
    {earlier later : List Nat} (kept : Kept start first earlier held)
    (follows_last : (rules disk.canonicalize).Follows (Expected disk calls) last held')
    (kept_last : Kept current held later held') {number : Nat} {answer : Answer} {id : ModuleId}
    (ended : current.results[number]? = some (some answer))
    (drew : (number, id) ∈ draws start earlier)
    (lost : ∀ visible ∈ current.state.paths.values, visible.id ≠ id) {other : Module}
    (shown : Shows last other) : other.id ≠ id := by
  obtain ⟨claim, member, rfl⟩ := kept.draws number id drew
  cases claim with
  | drawn id =>
    rw [← kept_last.ended number answer (Pool.results_eq_some.mp ended)] at member
    exact unshown_of_drawn follows_last member shown
  | visible winner =>
    exact absurd rfl (lost winner (follows.holds number _ member))

end

/-- The modules of a catalog that many callers use at once, in whatever order their calls take their
    steps: one module is shown at every canonical path; who asks for it afterwards is given it; and
    what a call loaded that did not come to be visible when the call ended is never shown. -/
theorem one_module_per_path [Image.Parser] (tables : PathTables) (idempotent : disk.IsIdempotent)
    (calls : List Call) (fixed : ∀ call ∈ calls, call.Canonicalizes disk.canonicalize)
    (earlier later : List Nat)
    (few : (draws (pool tables calls) (earlier ++ later)).length < UInt32.size - 1) :
    let start := pool tables calls
    let before := start.run earlier
    let after := start.run (earlier ++ later)
    (∀ first second, Shows after first → Shows after second → first.path = second.path →
      first = second) ∧
    (∀ loaded, Shows before loaded → Shows after loaded ∧ Gives disk after.state loaded ∧
      ∀ number call due answer, number ∉ earlier → calls[number]? = some call →
        call.Due disk loaded due → after.results[number]? = some (some answer) → answer = due) ∧
    (∀ number files path loaded, calls[number]? = some (.fromPath files path) →
      after.results[number]? = some (some (.fromPath (.ok loaded))) →
      disk.canonicalize path = .ok loaded.path ∧
      ∀ id, (number, id) ∈ draws start (earlier ++ later) → id ≠ loaded.id →
        ∀ other, Shows after other → other.id ≠ id) ∧
    (∀ number answer id, before.results[number]? = some (some answer) →
      (number, id) ∈ draws start earlier →
      (∀ visible ∈ before.state.paths.values, visible.id ≠ id) →
      ∀ other, Shows after other → other.id ≠ id) ∧
    ((draws start (earlier ++ later)).map Prod.snd).Nodup := by
  intro start before after
  have begins := follows_start idempotent tables fixed
  have few_all : start.state.nextId.toNat + (draws start (earlier ++ later)).length < UInt32.size := by
    have first : start.state.nextId.toNat = 1 := rfl
    rw [first]
    exact Nat.add_lt_of_lt_sub' few
  have few_before : start.state.nextId.toNat + (draws start earlier).length < UInt32.size := by
    rw [draws_append, List.length_append] at few_all
    omega
  obtain ⟨-, held, at_before, kept_before⟩ := follows_run begins earlier few_before
  have few_later : before.state.nextId.toNat + (draws before later).length < UInt32.size := by
    rw [nextId_run begins earlier few_before, Nat.add_assoc, ← List.length_append, ← draws_append]
    exact few_all
  have after_eq : after = before.run later := Pool.run_append start earlier later
  obtain ⟨grown, held', at_after, kept_after⟩ := follows_run at_before later few_later
  obtain ⟨-, held_all, at_end, kept_all⟩ := follows_run begins (earlier ++ later) few_all
  rw [← after_eq] at grown at_after
  refine ⟨?_, ?_, ?_, ?_, ?_⟩
  · exact fun first second => eq_of_path at_after
  · intro loaded shown
    have known := known_of_shows at_before shown
    have known_after := id_later grown known
    refine ⟨shows_of_known known_after, gives_of_mem at_after.lawful known_after, ?_⟩
    intro number call due answer unstarted called asks ended
    have expected := at_before.expect number (fun _ answer => answer = due)
      fun routine present => by
        rw [Pool.run_other unstarted] at present
        obtain ⟨same_call, same_called, rfl⟩ := pool_routine present
        rw [called, Option.some.injEq] at same_called
        subst same_called
        exact ensures_due asks (fixed call (List.mem_of_getElem? called)) at_before.lawful known
    obtain ⟨-, _, at_answer, -⟩ := follows_run expected later few_later
    rw [after_eq] at ended
    obtain ⟨_, -, answered⟩ := at_answer.result ended
    rw [Function.update_self] at answered
    exact answered
  · exact fun number files path loaded called ended => unshown_of_answer at_end kept_all called ended
  · exact fun number answer id ended drew lost other shown =>
      unshown_of_ended at_before kept_before at_after kept_after ended drew lost shown
  · have consecutive := draws_consecutive begins (earlier ++ later) few_all
    have distinct : ((draws start (earlier ++ later)).map (·.2.value.toNat)).Nodup := by
      rw [consecutive]
      exact List.nodup_range'
    apply List.Nodup.of_map (fun id : ModuleId => id.value.toNat)
    rw [List.map_map]
    exact distinct

open scoped Image.Container

/-- Two calls that take their steps by turns load the same file; the second publishes its module
    first. -/
def racing : List Call := [.fromPath smallFiles "/link", .fromPath smallFiles "/Part.netmodule"]

def race : List Nat := [0, 1, 0, 1, 0, 1, 1, 0, 1, 0]

/-- The first of the two calls draws the id 1 and loses: no module with it is shown. -/
theorem loser_is_not_shown :
    draws (pool {} racing) race = [(0, ⟨1⟩), (1, ⟨2⟩)] ∧
      ∀ other, Shows ((pool {} racing).run race) other → other.id ≠ ⟨1⟩ := by
  have drawn : draws (pool {} racing) race = [(0, ⟨1⟩), (1, ⟨2⟩)] := by decide +kernel
  have lost : ∀ visible ∈ ((pool {} racing).run race).state.paths.values,
      visible.id ≠ ⟨1⟩ := by decide +kernel
  have ended : ((pool {} racing).run race).results[0]?.join.isSome = true := by decide +kernel
  have fixed : ∀ call ∈ racing, call.Canonicalizes smallFiles.canonicalize := by
    simp [racing, Call.Canonicalizes]
  have few : (draws (pool {} racing) (race ++ [])).length < UInt32.size - 1 := by
    rw [List.append_nil, drawn]
    decide
  obtain ⟨answer, answered⟩ := Option.isSome_iff_exists.mp ended
  have law := one_module_per_path {} smallFiles_idempotent racing fixed race [] few
  rw [List.append_nil] at law
  refine ⟨drawn, law.2.2.2.1 0 answer ⟨1⟩ (Option.join_eq_some_iff.mp answered) ?_ lost⟩
  rw [drawn]
  exact List.mem_cons_self

end Managed.Catalog
