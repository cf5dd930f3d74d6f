import Mathlib.Algebra.BigOperators.Group.List.Basic
import Mathlib.Algebra.GroupWithZero.Nat
import Managed.Proofs.CacheSession
import Managed.Proofs.Publication

namespace Managed.Cache

/-- What somebody has changed of a cache: by how much the counters went up and the keys that came
    in. -/
structure Effect (κ : Type) where
  hits : Nat := 0
  misses : Nat := 0
  keys : List κ := []
deriving DecidableEq

namespace Effect

variable {κ ν : Type}

def between (before after : Cache κ ν) : Effect κ where
  hits := (after.hits - before.hits).toNat
  misses := (after.misses - before.misses).toNat
  keys := (after.entries.drop before.entries.length).map Prod.fst

def add (first second : Effect κ) : Effect κ where
  hits := first.hits + second.hits
  misses := first.misses + second.misses
  keys := first.keys ++ second.keys

def hit : Effect κ := { hits := 1 }

def miss : Effect κ := { misses := 1 }

def publication (key : κ) : Effect κ := { keys := [key] }

@[simp] theorem add_none (effect : Effect κ) : effect.add {} = effect := by
  simp only [add, Nat.add_zero, List.append_nil]

@[simp] theorem none_add (effect : Effect κ) : ({} : Effect κ).add effect = effect := by
  simp only [add, Nat.zero_add, List.nil_append]

theorem between_self (cache : Cache κ ν) : between cache cache = {} := by
  simp only [between, UInt64.sub_self, List.drop_length, List.map_nil]
  rfl

theorem between_hit (cache : Cache κ ν) : between cache cache.hit = hit := by
  have one : cache.hits + 1 - cache.hits = 1 := by rw [UInt64.add_comm, UInt64.add_sub_cancel]
  simp only [between, Cache.hit, one, UInt64.sub_self, List.drop_length, List.map_nil]
  rfl

theorem between_missed (cache : Cache κ ν) : between cache cache.missed = miss := by
  have one : cache.misses + 1 - cache.misses = 1 := by
    rw [UInt64.add_comm, UInt64.add_sub_cancel]
  simp only [between, Cache.missed, one, UInt64.sub_self, List.drop_length, List.map_nil]
  rfl

theorem between_published (cache : Cache κ ν) (key : κ) (value : ν) :
    between cache (cache.published key value) = publication key := by
  simp only [between, Cache.published, UInt64.sub_self, List.drop_left, List.map_cons, List.map_nil]
  rfl

end Effect

/-- The account of a call, with what the steps of the call itself have changed of the cache. The
    steps of the calls that its constructor makes are theirs. -/
structure Call (κ ν ε : Type) extends Account κ ν ε where
  effect : Effect κ := {}

structure Ledger (κ ν ε ω : Type) where
  cache : Cache κ ν := {}
  world : ω
  calls : List (Call κ ν ε) := []

variable {κ ν ε ω α : Type}

def Call.revise (change : Account κ ν ε → Account κ ν ε) (effect : Effect κ) (call : Call κ ν ε) :
    Call κ ν ε where
  toAccount := change call.toAccount
  effect := call.effect.add effect

namespace Ledger

def revised (ledger : Ledger κ ν ε ω) (number : Nat) (change : Account κ ν ε → Account κ ν ε)
    (cache : Cache κ ν) : Ledger κ ν ε ω :=
  { ledger with
    cache
    calls := ledger.calls.modify number (Call.revise change (.between ledger.cache cache)) }

def cachePart (number : Nat) : Part (Ledger κ ν ε ω) (Cache κ ν) where
  get ledger := ledger.cache
  set ledger cache := ledger.revised number id cache

def begin [DecidableEq κ] (key : κ) (errand : Errand ν) : Routine (Ledger κ ν ε ω) Nat :=
  Routine.atomic fun ledger =>
    (ledger.calls.length, { ledger with calls :=
      ledger.calls ++ [{ key, errand, seen := ledger.cache.find? key }] })

def amend (number : Nat) (change : Account κ ν ε → Account κ ν ε) :
    Routine (Ledger κ ν ε ω) Unit :=
  Routine.atomic fun ledger =>
    ((), { ledger with calls := ledger.calls.modify number (Call.revise change {}) })

def constructing (number : Nat) (outcome : α → Except ε ν) (create : Routine (Ledger κ ν ε ω) α) :
    Routine (Ledger κ ν ε ω) α := do
  amend number Account.start
  let made ← create
  amend number (Account.finish (outcome made))
  return made

theorem modify_middle (before behind : List (Call κ ν ε)) (call : Call κ ν ε)
    (change : Call κ ν ε → Call κ ν ε) :
    (before ++ call :: behind).modify before.length change = before ++ change call :: behind := by
  induction before with
  | nil => rfl
  | cons first rest ih => exact congrArg (first :: ·) ih

theorem split_modify {calls : List (Call κ ν ε)} {number : Nat} {call : Call κ ν ε}
    (own : calls[number]? = some call) (change : Call κ ν ε → Call κ ν ε) :
    ∃ before behind, calls = before ++ call :: behind ∧
      calls.modify number change = before ++ change call :: behind := by
  obtain ⟨inside, rfl⟩ := List.getElem?_eq_some_iff.mp own
  have split : calls = calls.take number ++ calls[number] :: calls.drop (number + 1) := by
    rw [← List.drop_eq_getElem_cons inside, List.take_append_drop]
  have modified := modify_middle (calls.take number) (calls.drop (number + 1)) calls[number] change
  rw [← split, List.length_take_of_le (Nat.le_of_lt inside)] at modified
  exact ⟨_, _, split, modified⟩

theorem hits_between (before after : Cache κ ν) :
    after.hits = before.hits + .ofNat (Effect.between before after).hits := by
  rw [Effect.between, UInt64.ofNat_toNat, UInt64.add_comm, UInt64.sub_add_cancel]

theorem misses_between (before after : Cache κ ν) :
    after.misses = before.misses + .ofNat (Effect.between before after).misses := by
  rw [Effect.between, UInt64.ofNat_toNat, UInt64.add_comm, UInt64.sub_add_cancel]

/-- What is counted over the calls goes up by what is charged to one of them. -/
theorem count_revised (count : Effect κ → Nat)
    (adds : ∀ first second, count (first.add second) = count first + count second)
    {before behind : List (Call κ ν ε)} {call : Call κ ν ε} {change : Account κ ν ε → Account κ ν ε}
    {effect : Effect κ} {counter : UInt64}
    (counted : counter =
      .ofNat ((before ++ call :: behind).map fun call => count call.effect).sum) :
    counter + .ofNat (count effect) =
      .ofNat ((before ++ call.revise change effect :: behind).map
        fun call => count call.effect).sum := by
  rw [counted, ← UInt64.ofNat_add]
  simp only [List.map_append, List.map_cons, List.sum_append, List.sum_cons, Call.revise, adds]
  congr 1
  omega

end Ledger

def Program.charged [DecidableEq κ] {α : Type} : Program κ ν ε ω α → Routine (Ledger κ ν ε ω) α
  | .done result => return result
  | .other act next =>
    .step (fun ledger => { ledger with world := act ledger.world })
      fun ledger => (next ledger.world).charged
  | .tryGet key next => do
    let number ← Ledger.begin key .lookup
    let found ← (Ledger.cachePart number).atomic (Cache.tryGet key)
    Ledger.amend number (Account.reply (.ok found))
    (next found).charged
  | .getOrCreate key create next => do
    let number ← Ledger.begin key .creation
    let value ← Cache.getOrCreate (Ledger.cachePart number) key
      (Ledger.constructing number .ok create.charged)
    Ledger.amend number (Account.reply (.ok (some value)))
    (next value).charged
  | .getOrTryCreate key create next => do
    let number ← Ledger.begin key .creation
    let outcome ← Cache.getOrTryCreate (Ledger.cachePart number) key
      (Ledger.constructing number id create.charged)
    Ledger.amend number (Account.reply (outcome.map some))
    (next outcome).charged
  | .getOrInsert key value next => do
    let number ← Ledger.begin key (.insertion value)
    let visible ← Cache.getOrInsert (Ledger.cachePart number) key value
    Ledger.amend number (Account.reply (.ok (some visible)))
    (next visible).charged

def Ledger.pool [DecidableEq κ] (world : ω) (programs : List (Program κ ν ε ω Unit)) :
    Pool (Ledger κ ν ε ω) Unit :=
  ⟨{ world }, programs.map Program.charged⟩

inductive Stage : Account κ ν ε → Effect κ → Prop where
  | begun (key : κ) (errand : Errand ν) (seen : Option ν) : Stage { key, errand, seen } {}
  | nothing (key : κ) (seen : Option ν) :
    Stage { key, errand := .lookup, seen, answer := some (.ok none) } {}
  | hit (key : κ) (errand : Errand ν) (seen : Option ν)
    (asks : ∀ value, errand ≠ .insertion value) : Stage { key, errand, seen } .hit
  | found (key : κ) (errand : Errand ν) (seen : Option ν) (value : ν)
    (asks : ∀ value, errand ≠ .insertion value) :
    Stage { key, errand, seen, answer := some (.ok (some value)) } .hit
  | missed (key : κ) (seen : Option ν) : Stage { key, errand := .creation, seen } .miss
  | running (key : κ) (seen : Option ν) :
    Stage { key, errand := .creation, seen, construction := .running } .miss
  | ended (key : κ) (seen : Option ν) (outcome : Except ε ν) :
    Stage { key, errand := .creation, seen, construction := .ended outcome } .miss
  | failed (key : κ) (seen : Option ν) (error : ε) :
    Stage {
      key
      errand := .creation
      seen
      construction := .ended (.error error)
      answer := some (.error error) } .miss
  | published (key : κ) (seen : Option ν) (own : ν) :
    Stage { key, errand := .creation, seen, construction := .ended (.ok own) }
      (Effect.miss.add (.publication key))
  | made (key : κ) (seen : Option ν) (own value : ν) (effect : Effect κ)
    (published : effect = {} ∨ effect = .publication key) :
    Stage {
      key
      errand := .creation
      seen
      construction := .ended (.ok own)
      answer := some (.ok (some value)) } (Effect.miss.add effect)
  | added (key : κ) (seen : Option ν) (value : ν) :
    Stage { key, errand := .insertion value, seen } (.publication key)
  | inserted (key : κ) (seen : Option ν) (own value : ν) (effect : Effect κ)
    (published : effect = {} ∨ effect = .publication key) :
    Stage { key, errand := .insertion own, seen, answer := some (.ok (some value)) } effect

namespace Ledger

structure Lawful (ledger : Ledger κ ν ε ω) : Prop where
  distinct : ledger.cache.Distinct
  hits : ledger.cache.hits = .ofNat (ledger.calls.map fun call => call.effect.hits).sum
  misses : ledger.cache.misses = .ofNat (ledger.calls.map fun call => call.effect.misses).sum
  keys : (ledger.cache.entries.map Prod.fst).Perm
    (ledger.calls.flatMap fun call => call.effect.keys)
  staged : ∀ call ∈ ledger.calls, Stage call.toAccount call.effect
  visible : ∀ call ∈ ledger.calls, ∀ value, call.answer = some (.ok (some value)) →
    call.key ∈ ledger.cache.entries.map Prod.fst

/-- What is published stays, and nobody changes the record of somebody else's call. -/
def rules : Sharing (Ledger κ ν ε ω) (Nat × Call κ ν ε) where
  Lawful := Lawful
  Moves before after := before.cache.entries <+: after.cache.entries
  Holds claim ledger := ledger.calls[claim.1]? = some claim.2
  Tracks _ _ _ _ := True
  tracks_union := fun _ _ _ _ _ _ => True.intro
  Within _ := True

section Revision

variable {ledger : Ledger κ ν ε ω} {number : Nat} {call : Call κ ν ε} {cache : Cache κ ν}
  {change : Account κ ν ε → Account κ ν ε}

theorem mem_revised (own : ledger.calls[number]? = some call) {other : Call κ ν ε}
    (member : other ∈ (ledger.revised number change cache).calls) :
    other = call.revise change (.between ledger.cache cache) ∨ other ∈ ledger.calls := by
  obtain ⟨before, behind, calls_eq, modified_eq⟩ :=
    split_modify own (Call.revise change (.between ledger.cache cache))
  rw [revised, modified_eq, List.mem_append, List.mem_cons] at member
  rw [calls_eq, List.mem_append, List.mem_cons]
  rcases member with earlier | same | later
  · exact .inr (.inl earlier)
  · exact .inl same
  · exact .inr (.inr (.inr later))

theorem keys_revised (known : (ledger.cache.entries.map Prod.fst).Perm
      (ledger.calls.flatMap fun call => call.effect.keys))
    (own : ledger.calls[number]? = some call) (grown : ledger.cache.entries <+: cache.entries) :
    (cache.entries.map Prod.fst).Perm
      ((ledger.revised number change cache).calls.flatMap fun call => call.effect.keys) := by
  obtain ⟨before, behind, calls_eq, modified_eq⟩ :=
    split_modify own (Call.revise change (.between ledger.cache cache))
  obtain ⟨added, entries_eq⟩ := grown
  have added_eq : (Effect.between ledger.cache cache).keys = added.map Prod.fst := by
    rw [Effect.between, ← entries_eq, List.drop_left]
  have longer := known.append_right (added.map Prod.fst)
  rw [← List.map_append, entries_eq, calls_eq] at longer
  refine longer.trans ?_
  rw [revised, modified_eq]
  simp only [List.flatMap_append, List.flatMap_cons, Call.revise, Effect.add, added_eq,
    List.append_assoc]
  -- The new keys stand after those of the call instead of after those of all calls.
  exact (List.perm_append_comm.append_left _).append_left _

theorem Lawful.revised (lawful : ledger.Lawful) (own : ledger.calls[number]? = some call)
    (distinct : cache.Distinct) (grown : ledger.cache.entries <+: cache.entries)
    (staged : Stage (change call.toAccount) (call.effect.add (.between ledger.cache cache)))
    (visible : ∀ value, (change call.toAccount).answer = some (.ok (some value)) →
      (change call.toAccount).key ∈ cache.entries.map Prod.fst) :
    (ledger.revised number change cache).Lawful := by
  obtain ⟨before, behind, calls_eq, modified_eq⟩ :=
    split_modify own (Call.revise change (.between ledger.cache cache))
  constructor
  case distinct => exact distinct
  case hits =>
    have counted := lawful.hits
    rw [calls_eq] at counted
    rw [Ledger.revised, hits_between ledger.cache cache, modified_eq]
    exact count_revised Effect.hits (fun _ _ => rfl) counted
  case misses =>
    have counted := lawful.misses
    rw [calls_eq] at counted
    rw [Ledger.revised, misses_between ledger.cache cache, modified_eq]
    exact count_revised Effect.misses (fun _ _ => rfl) counted
  case keys => exact keys_revised lawful.keys own grown
  case staged =>
    intro other member
    rcases mem_revised own member with rfl | known
    · exact staged
    · exact lawful.staged other known
  case visible =>
    intro other member
    rcases mem_revised own member with rfl | known
    · exact visible
    · exact fun value answered =>
        (grown.map Prod.fst).subset (lawful.visible other known value answered)

theorem allows_own (change : Account κ ν ε → Account κ ν ε) (lawful : ledger.Lawful)
    (own : ledger.calls[number]? = some call) (distinct : cache.Distinct)
    (grown : ledger.cache.entries <+: cache.entries)
    (staged : Stage (change call.toAccount) (call.effect.add (.between ledger.cache cache)))
    (visible : ∀ value, (change call.toAccount).answer = some (.ok (some value)) →
      (change call.toAccount).key ∈ cache.entries.map Prod.fst) :
    rules.Allows ledger {(number, call)} (ledger.revised number change cache)
      {(number, call.revise change (.between ledger.cache cache))} := by
  constructor
  case moves => exact grown
  case tracks => exact True.intro
  case fresh =>
    intro claim member
    obtain rfl := member
    by_cases same : call.revise change (.between ledger.cache cache) = call
    · left
      rw [same]
      rfl
    · right
      change ledger.calls[number]? ≠ _
      rw [own]
      exact fun equal => same (Option.some.inj equal).symm
  case lawful => exact fun _ => lawful.revised own distinct grown staged visible
  case holds =>
    intro _ claim member
    obtain rfl := member
    change (ledger.calls.modify number _)[number]? = _
    rw [List.getElem?_modify_eq, own]
    rfl
  case spared =>
    intro _ claim unheld holds
    obtain ⟨other, theirs⟩ := claim
    by_cases here : other = number
    · subst here
      obtain rfl := Option.some.inj (own.symm.trans holds)
      exact absurd rfl unheld
    · exact (List.getElem?_modify_ne _ _ (Ne.symm here)).trans holds

end Revision

theorem allows_other {ledger : Ledger κ ν ε ω} (world : ω) (lawful : ledger.Lawful) :
    rules.Allows ledger ∅ { ledger with world } ∅ where
  moves := List.prefix_rfl
  tracks := True.intro
  fresh := fun _ member => .inl member
  lawful := fun _ => ⟨lawful.distinct, lawful.hits, lawful.misses, lawful.keys, lawful.staged,
    lawful.visible⟩
  holds := fun _ _ member => member.elim
  spared := fun _ _ _ holds => holds

/-- A step of a call that has no answer yet. -/
theorem ensures_charged {β : Type} (act : Cache κ ν → β × Cache κ ν) (number : Nat)
    (call : Call κ ν ε) (met : Cache κ ν → Effect κ → β → Prop) {state : Ledger κ ν ε ω}
    (unanswered : call.answer = none)
    (does : ∀ cache : Cache κ ν, cache.Distinct →
      (cache.entries <+: (act cache).2.entries ∧ (act cache).2.Distinct) ∧
        Stage call.toAccount (call.effect.add (.between cache (act cache).2)) ∧
          met (act cache).2 (.between cache (act cache).2) (act cache).1) :
    rules.Ensures (fun final kept result => ∃ effect,
        kept = {(number, call.revise id effect)} ∧ met final.cache effect result)
      ((cachePart number).atomic act) state {(number, call)} := by
  refine Sharing.Ensures.atomic fun found reached => ?_
  obtain ⟨⟨grown, distinct⟩, staged, holds⟩ := does found.cache reached.lawful.distinct
  refine ⟨_, allows_own id reached.lawful (reached.holds _ rfl) distinct grown staged ?_,
    fun _ => ⟨_, rfl, holds⟩⟩
  intro value answered
  rw [id, unanswered] at answered
  cases answered

theorem allows_amend {number : Nat} {call : Call κ ν ε} {state found : Ledger κ ν ε ω}
    {change : Account κ ν ε → Account κ ν ε} (reached : rules.Reaches state {(number, call)} found)
    (staged : Stage (change call.toAccount) call.effect)
    (visible : ∀ value, (change call.toAccount).answer = some (.ok (some value)) →
      (change call.toAccount).key ∈ state.cache.entries.map Prod.fst) :
    rules.Allows found {(number, call)}
      { found with calls := found.calls.modify number (Call.revise change {}) }
      {(number, call.revise change {})} := by
  have later : ∀ key ∈ state.cache.entries.map Prod.fst, key ∈ found.cache.entries.map Prod.fst :=
    fun key member => reached.later.keep (fun ledger => key ∈ ledger.cache.entries.map Prod.fst)
      (fun _ _ grown present => (grown.map Prod.fst).subset present) member
  have allowed := allows_own change reached.lawful (reached.holds _ rfl) reached.lawful.distinct
    List.prefix_rfl (by rwa [Effect.between_self, Effect.add_none])
    fun value answered => later _ (visible value answered)
  rwa [revised, Effect.between_self] at allowed

theorem ensures_amend {number : Nat} {call : Call κ ν ε} {state : Ledger κ ν ε ω}
    (change : Account κ ν ε → Account κ ν ε) (staged : Stage (change call.toAccount) call.effect)
    (unanswered : (change call.toAccount).answer = none) :
    rules.Ensures (fun _ kept _ => kept = {(number, call.revise change {})}) (amend number change)
      state {(number, call)} := by
  refine Sharing.Ensures.atomic fun found reached =>
    ⟨_, allows_amend reached staged ?_, fun _ => rfl⟩
  intro value answered
  rw [unanswered] at answered
  cases answered

theorem ensures_recordMiss (key : κ) (seen : Option ν) (number : Nat) (state : Ledger κ ν ε ω) :
    rules.Ensures
      (fun _ kept _ => kept = {(number, { key, errand := .creation, seen, effect := .miss })})
      ((cachePart number).atomic Cache.recordMiss) state
      {(number, { key, errand := .creation, seen })} := by
  refine (ensures_charged Cache.recordMiss number { key, errand := .creation, seen }
    (fun _ effect _ => effect = .miss) rfl ?_).weaken ?_
  · intro cache distinct
    rw [recordMiss_eq, Effect.between_missed, Effect.none_add]
    exact ⟨⟨List.prefix_rfl, distinct⟩, .missed _ _, rfl⟩
  · intro final kept _ after
    obtain ⟨_, rfl, rfl⟩ := after
    simp only [Call.revise, id, Effect.none_add]

/-- The calls of a constructor are not charged to the call that runs it. -/
theorem ensures_constructing {β : Type} (key : κ) (seen : Option ν) (number : Nat)
    {outcome : β → Except ε ν} {create : Routine (Ledger κ ν ε ω) β}
    (runs : ∀ state, rules.Ensures (fun _ kept _ => kept = ∅) create state ∅)
    (state : Ledger κ ν ε ω) :
    rules.Ensures
      (fun _ kept made => kept = {(number,
        ⟨{ key, errand := .creation, seen, construction := .ended (outcome made) }, .miss⟩)})
      (constructing number outcome create) state
      {(number, { key, errand := .creation, seen, effect := .miss })} := by
  unfold constructing
  refine (ensures_amend Account.start (.running key seen) rfl).bind ?_
  intro started kept _ begun
  subst begun
  have framed := (runs started).frame
    {(number, ⟨{ key, errand := .creation, seen, construction := .running }, Effect.miss⟩)}
    fun claim _ => Set.notMem_empty claim
  rw [Set.empty_union] at framed
  apply framed.bind
  intro built _ made ended
  obtain ⟨_, rfl, -, rfl⟩ := ended
  rw [Set.empty_union]
  have ended := Stage.ended key seen (outcome made)
  refine (ensures_amend (Account.finish (outcome made)) ended rfl).bind ?_
  intro final kept _ finished
  subst finished
  exact Sharing.Ensures.pure rfl

variable [DecidableEq κ]

theorem allows_begin {ledger : Ledger κ ν ε ω} (key : κ) (errand : Errand ν)
    (lawful : ledger.Lawful) :
    let call : Call κ ν ε := { key, errand, seen := ledger.cache.find? key }
    rules.Allows ledger ∅ { ledger with calls := ledger.calls ++ [call] }
      {(ledger.calls.length, call)} := by
  intro call
  constructor
  case moves => exact List.prefix_rfl
  case tracks => exact True.intro
  case fresh =>
    intro claim member
    obtain rfl := member
    right
    change ledger.calls[ledger.calls.length]? ≠ some call
    rw [List.getElem?_eq_none (Nat.le_refl _)]
    exact Option.some_ne_none call |>.symm
  case lawful =>
    intro _
    constructor
    case distinct => exact lawful.distinct
    case hits => simpa [call] using lawful.hits
    case misses => simpa [call] using lawful.misses
    case keys => simpa [call] using lawful.keys
    case staged =>
      intro other member
      rcases List.mem_append.mp member with earlier | new
      · exact lawful.staged other earlier
      · obtain rfl := List.mem_singleton.mp new
        exact .begun _ _ _
    case visible =>
      intro other member
      rcases List.mem_append.mp member with earlier | new
      · exact lawful.visible other earlier
      · obtain rfl := List.mem_singleton.mp new
        intro value answered
        cases answered
  case holds =>
    intro _ claim member
    obtain rfl := member
    exact List.getElem?_concat_length
  case spared =>
    intro _ claim _ holds
    have inside := (List.getElem?_eq_some_iff.mp holds).1
    exact (List.getElem?_append_left inside).trans holds

theorem ensures_call {β : Type} {key : κ} {errand : Errand ν}
    {body : Nat → Routine (Ledger κ ν ε ω) β} {answer : β → Except ε (Option ν)}
    {rest : β → Routine (Ledger κ ν ε ω) α}
    (called : ∀ number seen state, rules.Ensures
      (fun final kept result => ∃ call : Call κ ν ε, kept = {(number, call)} ∧
        Stage (call.toAccount.reply (answer result)) call.effect ∧
          ∀ value, answer result = .ok (some value) →
            call.key ∈ final.cache.entries.map Prod.fst)
      (body number) state {(number, { key, errand, seen })})
    (goes_on : ∀ result state, rules.Ensures (fun _ kept _ => kept = ∅) (rest result) state ∅)
    (state : Ledger κ ν ε ω) :
    rules.Ensures (fun _ kept _ => kept = ∅)
      (do
        let number ← begin key errand
        let result ← body number
        amend number (Account.reply (answer result))
        rest result)
      state ∅ := by
  have opened : rules.Ensures (fun _ kept number => ∃ seen, kept =
      {(number, { key, errand, seen })}) (begin key errand) state ∅ :=
    Sharing.Ensures.atomic fun found reached =>
      ⟨_, allows_begin key errand reached.lawful, fun _ => ⟨_, rfl⟩⟩
  apply opened.bind
  intro opening _ number opened_as
  obtain ⟨seen, rfl⟩ := opened_as
  apply (called number seen opening).bind
  intro final _ result ended
  obtain ⟨call, rfl, staged, visible⟩ := ended
  have answered : rules.Ensures (fun _ kept _ => kept = ∅)
      (amend number (Account.reply (answer result))) final {(number, call)} := by
    refine Sharing.Ensures.atomic fun found reached => ⟨∅, ?_, fun _ => rfl⟩
    refine (allows_amend reached staged ?_).drop (Set.empty_subset _) True.intro
    exact fun value answered => visible value (Option.some.inj answered)
  apply answered.bind
  intro closing kept _ dropped
  subst dropped
  exact goes_on result closing

theorem ensures_tryGet {key : κ} {errand : Errand ν} (seen : Option ν) (number : Nat)
    (state : Ledger κ ν ε ω) (asks : ∀ value, errand ≠ .insertion value) :
    rules.Ensures
      (fun final kept found => ∃ effect, kept = {(number, { key, errand, seen, effect })} ∧
        (effect = .hit ∧ key ∈ final.cache.entries.map Prod.fst ∧ found.isSome ∨
          effect = {} ∧ found = none))
      ((cachePart number).atomic (Cache.tryGet key)) state {(number, { key, errand, seen })} := by
  refine (ensures_charged (Cache.tryGet key) number { key, errand, seen }
    (fun cache effect found => effect = .hit ∧ key ∈ cache.entries.map Prod.fst ∧ found.isSome ∨
      effect = {} ∧ found = none) rfl ?_).weaken ?_
  · intro cache distinct
    simp only [Effect.none_add]
    cases found : cache.find? key with
    | some value =>
      rw [tryGet_present found, Effect.between_hit]
      exact ⟨⟨List.prefix_rfl, distinct⟩, .hit _ _ _ asks,
        .inl ⟨rfl, List.mem_map_of_mem (mem_of_find? found), rfl⟩⟩
    | none =>
      rw [tryGet_absent found, Effect.between_self]
      exact ⟨⟨List.prefix_rfl, distinct⟩, .begun _ _ _, .inr ⟨rfl, rfl⟩⟩
  · intro final kept found after
    obtain ⟨effect, rfl, answered⟩ := after
    refine ⟨effect, ?_, answered⟩
    simp only [Call.revise, id, Effect.none_add]

theorem ensures_publish {account : Account κ ν ε} {effect : Effect κ} (value : ν) (number : Nat)
    (state : Ledger κ ν ε ω) (unanswered : account.answer = none) (before : Stage account effect)
    (after : Stage account (effect.add (.publication account.key))) :
    rules.Ensures
      (fun final kept _ => ∃ published, kept = {(number, ⟨account, effect.add published⟩)} ∧
        (published = {} ∨ published = .publication account.key) ∧
          account.key ∈ final.cache.entries.map Prod.fst)
      ((cachePart number).atomic (Cache.publish account.key value)) state
      {(number, ⟨account, effect⟩)} := by
  refine ensures_charged (Cache.publish account.key value) number ⟨account, effect⟩
    (fun cache published _ => (published = {} ∨ published = .publication account.key) ∧
      account.key ∈ cache.entries.map Prod.fst) unanswered fun cache distinct => ?_
  have present : account.key ∈ (publish account.key value cache).2.entries.map Prod.fst :=
    List.mem_map_of_mem (mem_of_find? (find?_publish account.key value cache))
  cases found : cache.find? account.key with
  | some visible =>
    rw [publish_taken found] at present ⊢
    rw [Effect.between_self, Effect.add_none]
    exact ⟨⟨List.prefix_rfl, distinct⟩, before, .inl rfl, present⟩
  | none =>
    rw [publish_absent found] at present ⊢
    rw [Effect.between_published]
    exact ⟨⟨published_grows _ _ _, published_distinct distinct found⟩, after, .inr rfl, present⟩

theorem ensures_orCreate {β γ : Type} {key : κ} {outcome : β → Except ε ν} {known : ν → γ}
    {create : Routine (Ledger κ ν ε ω) β} {finish : β → Routine (Ledger κ ν ε ω) γ}
    {post : Ledger κ ν ε ω → Set (Nat × Call κ ν ε) → γ → Prop} (number : Nat) (seen : Option ν)
    (state : Ledger κ ν ε ω)
    (runs : ∀ state, rules.Ensures (fun _ kept _ => kept = ∅) create state ∅)
    (hit : ∀ (final : Ledger κ ν ε ω) value, key ∈ final.cache.entries.map Prod.fst →
      post final {(number, { key, errand := .creation, seen, effect := .hit })} (known value))
    (made : ∀ result state, rules.Ensures post (finish result) state {(number,
      ⟨{ key, errand := .creation, seen, construction := .ended (outcome result) }, .miss⟩)}) :
    rules.Ensures post
      ((cachePart number).atomic (Cache.tryGet key) >>= fun
        | some value => pure (known value)
        | none => do
          (cachePart number).atomic Cache.recordMiss
          finish (← constructing number outcome create))
      state {(number, { key, errand := .creation, seen })} := by
  have asks : ∀ value : ν, Errand.creation ≠ .insertion value := nofun
  apply (ensures_tryGet seen number state asks).bind
  intro looking kept found looked
  obtain ⟨_, rfl, ⟨rfl, present, there⟩ | ⟨rfl, rfl⟩⟩ := looked
  · obtain ⟨value, rfl⟩ := Option.isSome_iff_exists.mp there
    exact Sharing.Ensures.pure (hit looking value present)
  · apply (ensures_recordMiss key seen number looking).bind
    intro missed kept _ recorded
    subst recorded
    apply (ensures_constructing key seen number runs missed).bind
    intro built kept result ended
    subst ended
    exact made result built

theorem ensures_getOrTryCreate {key : κ} {create : Routine (Ledger κ ν ε ω) (Except ε ν)}
    (runs : ∀ state, rules.Ensures (fun _ kept _ => kept = ∅) create state ∅) (number : Nat)
    (seen : Option ν) (state : Ledger κ ν ε ω) :
    rules.Ensures
      (fun final kept outcome => ∃ call : Call κ ν ε, kept = {(number, call)} ∧
        Stage (call.toAccount.reply (outcome.map some)) call.effect ∧
          ∀ value, outcome.map some = .ok (some value) →
            call.key ∈ final.cache.entries.map Prod.fst)
      (Cache.getOrTryCreate (cachePart number) key (constructing number id create)) state
      {(number, { key, errand := .creation, seen })} := by
  apply ensures_orCreate number seen state runs
  · intro final value present
    exact ⟨_, rfl, .found key .creation seen value nofun, fun _ _ => present⟩
  · intro result built
    cases result with
    | error error => exact Sharing.Ensures.pure ⟨_, rfl, .failed key seen error, nofun⟩
    | ok own =>
      apply (ensures_publish own number built rfl (.ended key seen (.ok own))
        (.published key seen own)).bind
      intro final kept visible after
      obtain ⟨published, rfl, known, present⟩ := after
      exact Sharing.Ensures.pure
        ⟨_, rfl, .made key seen own visible published known, fun _ _ => present⟩

theorem ensures_getOrCreate {key : κ} {create : Routine (Ledger κ ν ε ω) ν}
    (runs : ∀ state, rules.Ensures (fun _ kept _ => kept = ∅) create state ∅) (number : Nat)
    (seen : Option ν) (state : Ledger κ ν ε ω) :
    rules.Ensures
      (fun final kept value => ∃ call : Call κ ν ε, kept = {(number, call)} ∧
        Stage (call.toAccount.reply (.ok (some value))) call.effect ∧
          ∀ visible, (.ok (some value) : Except ε (Option ν)) = .ok (some visible) →
            call.key ∈ final.cache.entries.map Prod.fst)
      (Cache.getOrCreate (cachePart number) key (constructing number .ok create)) state
      {(number, { key, errand := .creation, seen })} := by
  apply ensures_orCreate number seen state runs
  · intro final value present
    exact ⟨_, rfl, .found key .creation seen value nofun, fun _ _ => present⟩
  · intro own built
    refine (ensures_publish own number built rfl (.ended key seen (.ok own))
      (.published key seen own)).weaken ?_
    intro final kept visible after
    obtain ⟨published, rfl, known, present⟩ := after
    exact ⟨_, rfl, .made key seen own visible published known, fun _ _ => present⟩

/-- Whoever keeps to a program keeps the records in order, whatever the others do meanwhile. -/
theorem ensures_program (program : Program κ ν ε ω α) (state : Ledger κ ν ε ω) :
    rules.Ensures (fun _ kept _ => kept = ∅) program.charged state ∅ := by
  induction program generalizing state with
  | done result => exact Sharing.Ensures.pure rfl
  | other act next ih =>
    exact fun found reached => ⟨∅, allows_other _ reached.lawful, fun _ => ih _ _⟩
  | tryGet key next ih =>
    have asks : ∀ value : ν, Errand.lookup ≠ .insertion value := nofun
    refine ensures_call (fun number seen state => ?_) (fun found state => ih found state) state
    refine (ensures_tryGet seen number state asks).weaken ?_
    intro final kept found looked
    obtain ⟨effect, rfl, ⟨rfl, present, there⟩ | ⟨rfl, rfl⟩⟩ := looked
    · obtain ⟨value, rfl⟩ := Option.isSome_iff_exists.mp there
      exact ⟨_, rfl, .found key .lookup seen value nofun, fun _ _ => present⟩
    · exact ⟨_, rfl, .nothing key seen, nofun⟩
  | getOrCreate key create next create_ih ih =>
    exact ensures_call (ensures_getOrCreate create_ih) (fun value state => ih value state) state
  | getOrTryCreate key create next create_ih ih =>
    exact ensures_call (ensures_getOrTryCreate create_ih) (fun outcome state => ih outcome state)
      state
  | getOrInsert key value next ih =>
    refine ensures_call (fun number seen state => ?_) (fun visible state => ih visible state) state
    have begun : Stage ({ key, errand := .insertion value, seen } : Account κ ν ε) {} :=
      .begun key _ seen
    refine (ensures_publish value number state rfl begun ?_).weaken ?_
    · rw [Effect.none_add]
      exact .added key seen value
    · intro final kept visible after
      obtain ⟨published, rfl, known, present⟩ := after
      rw [Effect.none_add]
      exact ⟨_, rfl, .inserted key seen value visible published known, fun _ _ => present⟩

end Ledger

end Managed.Cache
