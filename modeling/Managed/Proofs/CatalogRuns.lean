import Managed.Proofs.CatalogCallRules

namespace Managed.Catalog

open ModuleStore

variable {canonicalize : Path → Except FileError Path}
  {posts : Nat → ModuleStore → Set Claim → Answer → Prop} {pool : Pool ModuleStore Answer}
  {held : Nat → Set Claim}

theorem nextId_advance (follows : (rules canonicalize).Follows posts pool held) (number : Nat)
    (rest : List Nat)
    (few : pool.state.nextId.toNat + (draws pool (number :: rest)).length < UInt32.size) :
    (pool.advance number).state.nextId ≠ 0 ∧
      (pool.advance number).state.nextId.toNat +
        (draws (pool.advance number) rest).length < UInt32.size ∧
      ((pool.advance number).state.nextId ≠ pool.state.nextId →
        (pool.advance number).state.nextId.toNat = pool.state.nextId.toNat + 1) := by
  by_cases same : (pool.advance number).state.nextId = pool.state.nextId
  · rw [draws, if_pos same] at few
    refine ⟨?_, ?_, fun differs => absurd same differs⟩
    · rw [same]
      exact follows.lawful.started
    · rw [same]
      exact few
  · rw [draws, if_neg same, List.length_cons] at few
    have next : (pool.advance number).state.nextId = pool.state.nextId + 1 := by
      rcases follows.moves number with idle | moves
      · rw [idle] at same
        exact absurd rfl same
      · exact moves.nextId.resolve_left same
    have value : (pool.advance number).state.nextId.toNat = pool.state.nextId.toNat + 1 := by
      have below : pool.state.nextId.toNat + 1 < UInt32.size := by omega
      rw [next]
      exact toNat_succ below
    exact ⟨ne_zero_of_toNat value, by omega, fun _ => value⟩

structure Kept (pool : Pool ModuleStore Answer) (held : Nat → Set Claim) (schedule : List Nat)
    (held' : Nat → Set Claim) : Prop where
  keeps : ∀ number, ∀ claim ∈ held number, ∃ still ∈ held' number, still.id = claim.id
  draws : ∀ number id, (number, id) ∈ draws pool schedule → ∃ claim ∈ held' number, claim.id = id
  ended : ∀ number result, pool.routines[number]? = some (.done result) →
    held' number = held number

theorem kept_advance (follows : (rules canonicalize).Follows posts pool held) (number : Nat)
    (within : (pool.advance number).state.nextId ≠ 0) :
    ∃ held', (rules canonicalize).Follows posts (pool.advance number) held' ∧
      Kept pool held [number] held' := by
  obtain ⟨kept, advanced, how⟩ := follows.advance number within
  refine ⟨_, advanced, ?_⟩
  rcases how with ⟨idle, rfl⟩ | ⟨⟨act, next, found⟩, tracks⟩
  · rw [Function.update_eq_self]
    refine ⟨fun _ claim member => ⟨claim, member, rfl⟩, fun other id member => ?_, fun _ _ _ => rfl⟩
    rw [draws, idle, if_pos rfl] at member
    cases member
  · constructor
    · intro other claim member
      by_cases same : other = number
      · subst same
        rw [Function.update_self]
        exact tracks.keeps claim member
      · rw [Function.update_of_ne same]
        exact ⟨claim, member, rfl⟩
    · intro other id member
      rw [draws] at member
      split at member
      · cases member
      · rename_i drew
        obtain ⟨rfl, rfl⟩ := Prod.mk.inj (List.mem_singleton.mp member)
        rw [Function.update_self]
        exact tracks.draws drew
    · intro other result present
      by_cases same : other = number
      · subst same
        rw [found] at present
        cases present
      · rw [Function.update_of_ne same]

theorem Kept.trans {held' held'' : Nat → Set Claim} {number : Nat} {rest : List Nat}
    (first : Kept pool held [number] held') (second : Kept (pool.advance number) held' rest held'') :
    Kept pool held (number :: rest) held'' where
  keeps := fun other claim member => by
    obtain ⟨middle, middle_member, middle_id⟩ := first.keeps other claim member
    obtain ⟨last, last_member, last_id⟩ := second.keeps other middle middle_member
    exact ⟨last, last_member, last_id.trans middle_id⟩
  draws := fun other id member => by
    change (other, id) ∈ Catalog.draws pool ([number] ++ rest) at member
    rw [draws_append] at member
    rcases List.mem_append.mp member with now | later
    · obtain ⟨middle, middle_member, middle_id⟩ := first.draws other id now
      obtain ⟨last, last_member, last_id⟩ := second.keeps other middle middle_member
      exact ⟨last, last_member, last_id.trans middle_id⟩
    · exact second.draws other id later
  ended := fun other result present => by
    have result_some := Pool.results_eq_some.mpr present
    have still := Pool.results_eq_some.mp (Pool.results_run [number] result_some)
    exact (second.ended other result still).trans (first.ended other result present)

theorem follows_run (follows : (rules canonicalize).Follows posts pool held) (schedule : List Nat)
    (few : pool.state.nextId.toNat + (draws pool schedule).length < UInt32.size) :
    (rules canonicalize).Later pool.state (pool.run schedule).state ∧
      ∃ held', (rules canonicalize).Follows posts (pool.run schedule) held' ∧
        Kept pool held schedule held' := by
  induction schedule generalizing pool held with
  | nil =>
    exact ⟨Sharing.Later.refl _, held, follows, fun _ claim member => ⟨claim, member, rfl⟩, nofun,
      fun _ _ _ => rfl⟩
  | cons number rest ih =>
    obtain ⟨within, few_rest, -⟩ := nextId_advance follows number rest few
    obtain ⟨held', advanced, first⟩ := kept_advance follows number within
    obtain ⟨later, held'', reached, second⟩ := ih advanced few_rest
    exact ⟨(follows.later_advance number).trans later, held'', reached, first.trans second⟩

theorem nextId_run (follows : (rules canonicalize).Follows posts pool held) (schedule : List Nat)
    (few : pool.state.nextId.toNat + (draws pool schedule).length < UInt32.size) :
    (pool.run schedule).state.nextId.toNat =
      pool.state.nextId.toNat + (draws pool schedule).length := by
  induction schedule generalizing pool held with
  | nil => rfl
  | cons number rest ih =>
    obtain ⟨within, few_rest, value⟩ := nextId_advance follows number rest few
    obtain ⟨held', advanced, -⟩ := kept_advance follows number within
    have tail : (pool.run (number :: rest)).state.nextId.toNat = _ := ih advanced few_rest
    by_cases same : (pool.advance number).state.nextId = pool.state.nextId
    · rw [draws, if_pos same, tail, same]
    · rw [draws, if_neg same, tail, value same, List.length_cons]
      omega

theorem draws_consecutive (follows : (rules canonicalize).Follows posts pool held)
    (schedule : List Nat)
    (few : pool.state.nextId.toNat + (draws pool schedule).length < UInt32.size) :
    (draws pool schedule).map (·.2.value.toNat) =
      List.range' pool.state.nextId.toNat (draws pool schedule).length := by
  induction schedule generalizing pool held with
  | nil => rfl
  | cons number rest ih =>
    obtain ⟨within, few_rest, value⟩ := nextId_advance follows number rest few
    obtain ⟨held', advanced, -⟩ := kept_advance follows number within
    have tail := ih advanced few_rest
    by_cases same : (pool.advance number).state.nextId = pool.state.nextId
    · rw [draws, if_pos same, tail, same]
    · rw [draws, if_neg same, List.map_cons, List.length_cons, List.range'_succ, tail, value same]

theorem lawful_start {placed : Path → Module → Prop} : LawfulBy placed {} where
  started := by decide
  paths_distinct := List.nodup_nil
  ids_distinct := List.nodup_nil
  placed := nofun
  drawn := nofun
  told_apart := nofun
  by_id := nofun
  visible := nofun
  names := nofun

variable [Image.Parser]

/-- What a catalog has come to by calls side by side, each with files of its own, while that many
    modules have been loaded in the process. The calls need not have ended. -/
def Reached (tables : PathTables) (loaded : Nat) (store : ModuleStore) : Prop :=
  ∃ calls schedule, (∀ call ∈ calls, call.LooksAt FileSystem.IsIdempotent) ∧
    (draws (Catalog.pool tables calls) schedule).length = loaded ∧
      ((Catalog.pool tables calls).run schedule).state = store

theorem Reached.lawful {tables : PathTables} {loaded : Nat} {store : ModuleStore}
    (reached : Reached tables loaded store) (few : loaded < UInt32.size - 1) :
    Lawful .ok store ∧ store.nextId.toNat = loaded + 1 := by
  obtain ⟨calls, schedule, idempotent, rfl, rfl⟩ := reached
  have follows :
      (rules .ok).Follows (fun _ _ _ _ => True) (Catalog.pool tables calls) fun _ => ∅ := by
    refine Sharing.Follows.start lawful_start fun number routine present => ?_
    obtain ⟨call, found, rfl⟩ := pool_routine present
    have looks :=
      Call.LooksAt.weaken (idempotent call (List.mem_of_getElem? found)) fun _ => fits_ok
    exact (ensures_call tables looks _).weaken fun _ _ _ _ => True.intro
  have first : (Catalog.pool tables calls).state.nextId.toNat = 1 := rfl
  obtain ⟨-, held, run, -⟩ := follows_run follows schedule (by omega)
  have nextId := nextId_run follows schedule (by omega)
  exact ⟨run.lawful, by omega⟩

end Managed.Catalog
