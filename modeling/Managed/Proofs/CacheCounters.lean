import Mathlib.Algebra.Group.Action.Defs
import Mathlib.Algebra.Order.BigOperators.Group.List
import Mathlib.Algebra.Order.Group.Nat
import Mathlib.Data.List.Dedup
import Managed.Proofs.LedgerSession

namespace Managed.Cache

variable {κ ν ε ω α : Type}

namespace Account

def creates (account : Account κ ν ε) : Bool :=
  match account.errand with
  | .creation => true
  | _ => false

def inserts (account : Account κ ν ε) : Bool :=
  match account.errand with
  | .insertion _ => true
  | _ => false

def finds (account : Account κ ν ε) : Bool :=
  match account.errand, account.answer with
  | .lookup, some (.ok (some _)) => true
  | _, _ => false

def started (account : Account κ ν ε) : Bool :=
  match account.construction with
  | .unneeded => false
  | _ => true

def publishes (account : Account κ ν ε) : Bool :=
  match account.errand, account.construction, account.answer with
  | .insertion _, _, some _ => true
  | .creation, .ended (.ok _), some _ => true
  | _, _, _ => false

end Account

namespace Stage

variable {account : Account κ ν ε} {effect : Effect κ}

theorem counts (stage : Stage account effect) : effect.hits + effect.misses ≤ 1 := by
  cases stage with
  | made key seen own value effect published =>
    rcases published with rfl | rfl <;> simp [Effect.add, Effect.miss, Effect.publication]
  | inserted key seen own value effect published =>
    rcases published with rfl | rfl <;> simp [Effect.publication]
  | _ => simp [Effect.hit, Effect.miss, Effect.publication, Effect.add]

theorem keys_length (stage : Stage account effect) :
    effect.keys.length ≤ effect.misses + account.inserts.toNat := by
  cases stage with
  | made key seen own value effect published =>
    rcases published with rfl | rfl <;> simp [Effect.add, Effect.miss, Effect.publication]
  | inserted key seen own value effect published =>
    rcases published with rfl | rfl <;> simp [Effect.publication, Account.inserts]
  | _ => simp [Effect.hit, Effect.miss, Effect.publication, Effect.add, Account.inserts]

theorem effect_failed {error : ε} (stage : Stage account effect)
    (answered : account.answer = some (.error error)) : effect = .miss := by
  cases stage <;> first | rfl | cases answered

theorem effect_inserting {own : ν} (stage : Stage account effect)
    (inserts : account.errand = .insertion own) : effect.hits = 0 ∧ effect.misses = 0 := by
  cases stage with
  | begun => exact ⟨rfl, rfl⟩
  | added => exact ⟨rfl, rfl⟩
  | inserted key seen own value effect published =>
    rcases published with rfl | rfl <;> exact ⟨rfl, rfl⟩
  | hit key errand seen asks => exact absurd inserts (asks own)
  | found key errand seen value asks => exact absurd inserts (asks own)
  | _ => cases inserts

variable (settled : account.answer = none → account.construction = .running)
include settled

theorem misses_settled (stage : Stage account effect) :
    effect.misses = account.started.toNat := by
  cases stage with
  | begun | hit | missed | added => cases settled rfl
  | made key seen own value effect published => rcases published with rfl | rfl <;> rfl
  | inserted key seen own value effect published => rcases published with rfl | rfl <;> rfl
  | _ => rfl

theorem lookups_settled (stage : Stage account effect) :
    effect.hits + effect.misses = account.creates.toNat + account.finds.toNat := by
  cases stage with
  | begun | hit | missed | ended | added | published => cases settled rfl
  | found key errand seen value asks =>
    cases errand with
    | insertion own => exact absurd rfl (asks own)
    | _ => rfl
  | made key seen own value effect published => rcases published with rfl | rfl <;> rfl
  | inserted key seen own value effect published => rcases published with rfl | rfl <;> rfl
  | _ => rfl

theorem publishes_settled (stage : Stage account effect) {key : κ} (member : key ∈ effect.keys) :
    account.publishes ∧ account.key = key := by
  cases stage with
  | published => cases settled rfl
  | added => cases settled rfl
  | made own seen value visible effect published =>
    rcases published with rfl | rfl
    · cases member
    · exact ⟨rfl, (List.mem_singleton.mp member).symm⟩
  | inserted own seen value visible effect published =>
    rcases published with rfl | rfl
    · cases member
    · exact ⟨rfl, (List.mem_singleton.mp member).symm⟩
  | _ => cases member

omit settled in
theorem answer_publishes (stage : Stage account effect) (publishes : account.publishes) :
    ∃ value, account.answer = some (.ok (some value)) := by
  cases stage with
  | made | inserted => exact ⟨_, rfl⟩
  | found key errand seen value asks => exact ⟨_, rfl⟩
  | _ => simp [Account.publishes] at publishes

end Stage

namespace Ledger

/-- Every call has its answer or is within its constructor. -/
def Settled (ledger : Ledger κ ν ε ω) : Prop :=
  ∀ call ∈ ledger.calls, call.answer = none → call.construction = .running

theorem lawful_start (world : ω) : Lawful ({ world } : Ledger κ ν ε ω) where
  distinct := List.nodup_nil
  hits := rfl
  misses := rfl
  keys := .nil
  staged := nofun
  visible := nofun

theorem sum_toNat (calls : List (Call κ ν ε)) (holds : Account κ ν ε → Bool) :
    (calls.map fun call => (holds call.toAccount).toNat).sum =
      calls.countP fun call => holds call.toAccount := by
  induction calls with
  | nil => rfl
  | cons call rest ih =>
    rw [List.map_cons, List.sum_cons, List.countP_cons, ih]
    cases holds call.toAccount <;> simp [Nat.add_comm]

/-- No counter wraps as long as there are not more calls than it can count. -/
theorem counter_toNat {calls : List (Call κ ν ε)} {count : Effect κ → Nat} {counter : UInt64}
    (counted : counter = .ofNat (calls.map fun call => count call.effect).sum)
    (once : ∀ call ∈ calls, count call.effect ≤ 1) (few : calls.length < 2 ^ 64) :
    counter.toNat = (calls.map fun call => count call.effect).sum := by
  have bound : (calls.map fun call => count call.effect).sum ≤ calls.length := by
    have each := List.sum_le_card_nsmul (calls.map fun call => count call.effect) 1
      (List.forall_mem_map.mpr once)
    rwa [List.length_map, smul_eq_mul, Nat.mul_one] at each
  rw [counted, UInt64.toNat_ofNat']
  exact Nat.mod_eq_of_lt (by omega)

variable {ledger : Ledger κ ν ε ω}

theorem Lawful.hits_toNat (lawful : ledger.Lawful) (few : ledger.calls.length < 2 ^ 64) :
    ledger.cache.hits.toNat = (ledger.calls.map fun call => call.effect.hits).sum :=
  counter_toNat lawful.hits
    (fun call member => (Nat.le_add_right _ _).trans (lawful.staged call member).counts) few

theorem Lawful.misses_toNat (lawful : ledger.Lawful) (few : ledger.calls.length < 2 ^ 64) :
    ledger.cache.misses.toNat = (ledger.calls.map fun call => call.effect.misses).sum :=
  counter_toNat lawful.misses
    (fun call member => (Nat.le_add_left _ _).trans (lawful.staged call member).counts) few

theorem Lawful.misses_settled (lawful : ledger.Lawful) (few : ledger.calls.length < 2 ^ 64)
    (settled : ledger.Settled) :
    ledger.cache.misses.toNat = ledger.calls.countP fun call => call.started := by
  rw [lawful.misses_toNat few, ← sum_toNat]
  congr 1
  exact List.map_congr_left fun call member =>
    (lawful.staged call member).misses_settled (settled call member)

theorem Lawful.lookups_settled (lawful : ledger.Lawful) (few : ledger.calls.length < 2 ^ 64)
    (settled : ledger.Settled) :
    ledger.cache.hits.toNat + ledger.cache.misses.toNat =
      (ledger.calls.countP fun call => call.creates) +
        ledger.calls.countP fun call => call.finds := by
  rw [lawful.hits_toNat few, lawful.misses_toNat few, ← List.sum_map_add, ← sum_toNat, ← sum_toNat,
    ← List.sum_map_add]
  congr 1
  exact List.map_congr_left fun call member =>
    (lawful.staged call member).lookups_settled (settled call member)

theorem Lawful.mem_keys_settled (lawful : ledger.Lawful) (settled : ledger.Settled) (key : κ) :
    key ∈ ledger.cache.entries.map Prod.fst ↔
      key ∈ (ledger.calls.filter fun call => call.publishes).map fun call => call.key := by
  constructor
  · intro present
    obtain ⟨call, member, charged⟩ := List.mem_flatMap.mp (lawful.keys.mem_iff.mp present)
    obtain ⟨publishes, rfl⟩ :=
      (lawful.staged call member).publishes_settled (settled call member) charged
    exact List.mem_map_of_mem (List.mem_filter.mpr ⟨member, publishes⟩)
  · intro published
    obtain ⟨call, member, rfl⟩ := List.mem_map.mp published
    obtain ⟨known, publishes⟩ := List.mem_filter.mp member
    obtain ⟨value, answered⟩ := (lawful.staged call known).answer_publishes publishes
    exact lawful.visible call known value answered

theorem Lawful.entries_settled [DecidableEq κ] (lawful : ledger.Lawful)
    (settled : ledger.Settled) :
    ledger.cache.size =
      ((ledger.calls.filter fun call => call.publishes).map fun call => call.key).dedup.length := by
  have same : (ledger.cache.entries.map Prod.fst).Perm
      ((ledger.calls.filter fun call => call.publishes).map fun call => call.key).dedup := by
    refine (List.perm_ext_iff_of_nodup lawful.distinct (List.nodup_dedup _)).mpr fun key => ?_
    rw [List.mem_dedup]
    exact lawful.mem_keys_settled settled key
  rw [← same.length_eq, List.length_map]
  rfl

theorem Lawful.size_le (lawful : ledger.Lawful) (few : ledger.calls.length < 2 ^ 64) :
    ledger.cache.size ≤
      ledger.cache.misses.toNat + ledger.calls.countP fun call => call.inserts := by
  have counted := lawful.keys.length_eq
  rw [List.length_map, List.length_flatMap] at counted
  rw [Cache.size, counted, lawful.misses_toNat few, ← sum_toNat, ← List.sum_map_add]
  exact List.sum_le_sum fun call member => (lawful.staged call member).keys_length

def Serves (earlier : List (Call κ ν ε)) (ledger : Ledger κ ν ε ω) : Prop :=
  ∃ call own, ledger.calls = earlier ++ call :: own ∧ ∀ call ∈ own, call.answer.isSome

def Keeps (earlier : List (Call κ ν ε)) (routine : Routine (Ledger κ ν ε ω) α) : Prop :=
  ∀ ledger, Serves earlier ledger → Serves earlier (routine.run ledger).2

/-- Run alone, the routine leaves the calls that it finds as they are, and none of its own open. -/
def Completes (routine : Routine (Ledger κ ν ε ω) α) : Prop :=
  ∀ ledger, ∃ own, (routine.run ledger).2.calls = ledger.calls ++ own ∧
    ∀ call ∈ own, call.answer.isSome

theorem Keeps.pure {earlier : List (Call κ ν ε)} (result : α) :
    Keeps earlier (Pure.pure result : Routine (Ledger κ ν ε ω) α) := fun _ serves => serves

theorem Keeps.bind {β : Type} {earlier : List (Call κ ν ε)} {routine : Routine (Ledger κ ν ε ω) α}
    {continuation : α → Routine (Ledger κ ν ε ω) β} (first : Keeps earlier routine)
    (second : ∀ result, Keeps earlier (continuation result)) :
    Keeps earlier (routine >>= continuation) := by
  intro ledger serves
  change Serves earlier ((routine.bind continuation).run ledger).2
  rw [Routine.run_bind]
  exact second _ _ (first _ serves)

theorem Keeps.amend (earlier : List (Call κ ν ε)) (change : Account κ ν ε → Account κ ν ε) :
    Keeps earlier (amend earlier.length change : Routine (Ledger κ ν ε ω) Unit) := by
  intro ledger serves
  obtain ⟨call, own, calls_eq, finished⟩ := serves
  refine ⟨call.revise change {}, own, ?_, finished⟩
  change ledger.calls.modify _ _ = _
  rw [calls_eq, modify_middle]

theorem Keeps.atomic (earlier : List (Call κ ν ε)) (act : Cache κ ν → α × Cache κ ν) :
    Keeps earlier ((cachePart earlier.length : Part (Ledger κ ν ε ω) _).atomic act) := by
  intro ledger serves
  obtain ⟨call, own, calls_eq, finished⟩ := serves
  refine ⟨call.revise id (.between ledger.cache (act ledger.cache).2), own, ?_, finished⟩
  change ledger.calls.modify _ _ = _
  rw [calls_eq, modify_middle]
  rfl

theorem Completes.keeps {routine : Routine (Ledger κ ν ε ω) α} (completes : Completes routine)
    (earlier : List (Call κ ν ε)) : Keeps earlier routine := by
  intro ledger serves
  obtain ⟨call, own, calls_eq, finished⟩ := serves
  obtain ⟨further, added, ended⟩ := completes ledger
  refine ⟨call, own ++ further, ?_, List.forall_mem_append.mpr ⟨finished, ended⟩⟩
  rw [added, calls_eq, List.append_assoc, List.cons_append]

theorem Keeps.constructing {outcome : α → Except ε ν} {create : Routine (Ledger κ ν ε ω) α}
    (completes : Completes create) (earlier : List (Call κ ν ε)) :
    Keeps earlier (constructing earlier.length outcome create) :=
  (Keeps.amend earlier _).bind fun _ => (completes.keeps earlier).bind fun _ =>
    (Keeps.amend earlier _).bind fun _ => Keeps.pure _

theorem Completes.pure (result : α) :
    Completes (Pure.pure result : Routine (Ledger κ ν ε ω) α) :=
  fun _ => ⟨[], (List.append_nil _).symm, nofun⟩

variable [DecidableEq κ]

theorem Completes.call {β : Type} {key : κ} {errand : Errand ν}
    {body : Nat → Routine (Ledger κ ν ε ω) β} {answer : β → Except ε (Option ν)}
    {rest : β → Routine (Ledger κ ν ε ω) α}
    (called : ∀ earlier : List (Call κ ν ε), Keeps earlier (body earlier.length))
    (goes_on : ∀ result, Completes (rest result)) :
    Completes (do
      let number ← begin key errand
      let result ← body number
      Ledger.amend number (Account.reply (answer result))
      rest result) := by
  intro ledger
  let opened : Ledger κ ν ε ω := { ledger with calls :=
    ledger.calls ++ [{ key, errand, seen := ledger.cache.find? key }] }
  have begun : Serves ledger.calls opened := ⟨_, [], rfl, nofun⟩
  obtain ⟨call, own, calls_eq, finished⟩ := called ledger.calls opened begun
  let result := (body ledger.calls.length).run opened
  let reply : Call κ ν ε → Call κ ν ε := Call.revise (Account.reply (answer result.1)) {}
  let closed : Ledger κ ν ε ω :=
    { result.2 with calls := result.2.calls.modify ledger.calls.length reply }
  have closed_eq : closed.calls = ledger.calls ++ reply call :: own := by
    change result.2.calls.modify _ _ = _
    rw [calls_eq, modify_middle]
  obtain ⟨further, added, ended⟩ := goes_on result.1 closed
  refine ⟨reply call :: (own ++ further), ?_, ?_⟩
  · simp only [bind, Routine.run_bind, begin, Ledger.amend, Routine.run_atomic]
    change ((rest result.1).run closed).2.calls = _
    rw [added, closed_eq, List.append_assoc, List.cons_append]
  · exact List.forall_mem_cons.mpr ⟨rfl, List.forall_mem_append.mpr ⟨finished, ended⟩⟩

theorem completes_program (program : Program κ ν ε ω α) : Completes program.charged := by
  induction program with
  | done result => exact Completes.pure result
  | other act next ih => exact fun ledger => ih ledger.world _
  | tryGet key next ih => exact Completes.call (fun earlier => Keeps.atomic earlier _) ih
  | getOrCreate key create next create_ih ih =>
    refine Completes.call (fun earlier => ?_) ih
    refine (Keeps.atomic earlier _).bind fun found => ?_
    cases found with
    | some value => exact Keeps.pure value
    | none =>
      exact (Keeps.atomic earlier _).bind fun _ =>
        (Keeps.constructing create_ih earlier).bind fun _ => Keeps.atomic earlier _
  | getOrTryCreate key create next create_ih ih =>
    refine Completes.call (fun earlier => ?_) ih
    refine (Keeps.atomic earlier _).bind fun found => ?_
    cases found with
    | some value => exact Keeps.pure _
    | none =>
      refine (Keeps.atomic earlier _).bind fun _ =>
        (Keeps.constructing create_ih earlier).bind fun outcome => ?_
      cases outcome with
      | error error => exact Keeps.pure _
      | ok value => exact (Keeps.atomic earlier _).bind fun _ => Keeps.pure _
  | getOrInsert key value next ih => exact Completes.call (fun earlier => Keeps.atomic earlier _) ih

/-- Whoever starts when no call is in the middle of a step, and is alone, ends so too. -/
theorem settled_run (program : Program κ ν ε ω α) {ledger : Ledger κ ν ε ω}
    (settled : ledger.Settled) : (program.charged.run ledger).2.Settled := by
  obtain ⟨own, calls_eq, finished⟩ := completes_program program ledger
  intro call member open_still
  rw [calls_eq, List.mem_append] at member
  rcases member with earlier | new
  · exact settled call earlier open_still
  · have answered := finished call new
    rw [open_still] at answered
    cases answered

structure Exact (ledger : Ledger κ ν ε ω) : Prop where
  started : ledger.Settled →
    ledger.cache.stats.misses.toNat = ledger.calls.countP fun call => call.started
  lookups : ledger.Settled →
    ledger.cache.stats.hits.toNat + ledger.cache.stats.misses.toNat =
      (ledger.calls.countP fun call => call.creates) +
        ledger.calls.countP fun call => call.finds
  published : ledger.Settled →
    ledger.cache.stats.entries =
      ((ledger.calls.filter fun call => call.publishes).map fun call => call.key).dedup.length
  alone : ledger.Settled →
    ∀ program : Program κ ν ε ω Unit, (program.charged.run ledger).2.Settled
  size : ledger.cache.stats.entries = ledger.cache.size
  empty : ledger.cache.isEmpty ↔ ledger.cache.stats.entries = 0
  bounded : ledger.cache.stats.entries ≤
    ledger.cache.stats.misses.toNat + ledger.calls.countP fun call => call.inserts
  hits : ledger.cache.stats.hits.toNat = (ledger.calls.map fun call => call.effect.hits).sum
  misses : ledger.cache.stats.misses.toNat = (ledger.calls.map fun call => call.effect.misses).sum
  keys : (ledger.cache.entries.map Prod.fst).Perm
    (ledger.calls.flatMap fun call => call.effect.keys)
  failing : ∀ call ∈ ledger.calls, ∀ error, call.answer = some (.error error) →
    call.effect = { hits := 0, misses := 1, keys := [] }
  inserting : ∀ call ∈ ledger.calls, ∀ value, call.errand = .insertion value →
    call.effect.hits = 0 ∧ call.effect.misses = 0

theorem Lawful.exact (lawful : ledger.Lawful) (few : ledger.calls.length < 2 ^ 64) :
    ledger.Exact where
  started := lawful.misses_settled few
  lookups := lawful.lookups_settled few
  published := lawful.entries_settled
  alone := fun settled program => settled_run program settled
  size := rfl
  empty := List.isEmpty_iff_length_eq_zero
  bounded := lawful.size_le few
  hits := lawful.hits_toNat few
  misses := lawful.misses_toNat few
  keys := lawful.keys
  failing := fun call member _ answered => (lawful.staged call member).effect_failed answered
  inserting := fun call member _ inserts => (lawful.staged call member).effect_inserting inserts

theorem follows_pool (world : ω) (programs : List (Program κ ν ε ω Unit)) (schedule : List Nat) :
    ∃ held, rules.Follows (fun _ _ _ _ => True) ((pool world programs).run schedule) held := by
  have start : rules.Follows (fun _ _ _ _ => True) (pool world programs) fun _ => ∅ := by
    refine Sharing.Follows.start (lawful_start world) fun number routine present => ?_
    rw [pool, List.getElem?_map, Option.map_eq_some_iff] at present
    obtain ⟨program, -, rfl⟩ := present
    exact (ensures_program program _).weaken fun _ _ _ _ => True.intro
  exact (start.run schedule fun _ _ => True.intro).2

theorem counters_exact (world : ω) (programs : List (Program κ ν ε ω Unit))
    (schedule later : List Nat)
    (few : ((pool world programs).run schedule).state.calls.length < 2 ^ 64) :
    let ledger := ((pool world programs).run schedule).state
    let grown := ((pool world programs).run (schedule ++ later)).state
    ledger.session = ((Session.pool world programs).run schedule).state ∧ ledger.Exact ∧
      ledger.cache.entries <+: grown.cache.entries ∧
        ledger.cache.stats.entries ≤ grown.cache.stats.entries := by
  intro ledger grown
  obtain ⟨held, follows⟩ := follows_pool world programs schedule
  have prefixed : ledger.cache.entries <+: grown.cache.entries := by
    have grows := (follows.run later fun _ _ => True.intro).1
    rw [← Pool.run_append] at grows
    exact grows.keep (fun state => ledger.cache.entries <+: state.cache.entries)
      (fun _ _ moves before => before.trans moves) List.prefix_rfl
  exact ⟨session_run world programs schedule, follows.lawful.exact few, prefixed,
    prefixed.length_le⟩

/-- A constructor that makes the value of another key before it fails, while somebody else is
    inserting. -/
def nestedPrograms : List (Program Nat Nat String Unit Unit) :=
  [.getOrTryCreate 1 (.getOrCreate 2 (.done 20) fun _ => .done (.error "none")) fun _ =>
      .tryGet 2 fun _ => .done (),
    .getOrInsert 3 30 fun _ => .done ()]

def nestedSchedule : List Nat := [0, 0, 1, 0, 0, 0, 1, 0, 0, 0, 0, 1, 0, 0, 0, 0, 0, 0, 0]

theorem nested_counters :
    let ledger := ((pool () nestedPrograms).run nestedSchedule).state
    ledger.calls.length < 2 ^ 64 ∧ ledger.Settled ∧ ledger.Exact ∧
      ledger.cache.stats = ⟨1, 2, 2⟩ := by
  have few : ((pool () nestedPrograms).run nestedSchedule).state.calls.length < 2 ^ 64 := by
    decide +kernel
  refine ⟨few, ?_, (counters_exact () nestedPrograms nestedSchedule [] few).2.1,
    by decide +kernel⟩
  have finished : ((pool () nestedPrograms).run nestedSchedule).state.calls.all
      fun call => call.answer.isSome := by decide +kernel
  intro call member open_still
  have answered := List.all_eq_true.mp finished call member
  rw [open_still] at answered
  cases answered

end Ledger

end Managed.Cache
