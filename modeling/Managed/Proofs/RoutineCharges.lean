import Mathlib.Algebra.BigOperators.Group.List.Basic
import Managed.Routine

namespace Managed

variable {σ τ α β M : Type}

namespace Routine

def Leaves (look : σ → τ) : Routine σ α → Prop
  | .done _ => True
  | .step act next => ∀ state, look (act state) = look state ∧ Leaves look (next state)

variable {look : σ → τ}

theorem Leaves.pure (result : α) : (Pure.pure result : Routine σ α).Leaves look := True.intro

theorem Leaves.bind {routine : Routine σ α} {continuation : α → Routine σ β}
    (first : routine.Leaves look) (rest : ∀ result, (continuation result).Leaves look) :
    (routine >>= continuation).Leaves look := by
  change (routine.bind continuation).Leaves look
  induction routine with
  | done result => exact rest result
  | step act next ih => exact fun state => ⟨(first state).1, ih state (first state).2⟩

theorem Leaves.map {routine : Routine σ α} (leaves : routine.Leaves look) (f : α → β) :
    (routine.map f).Leaves look := leaves.bind fun result => .pure (f result)

theorem Leaves.atomic {act : σ → α × σ} (same : ∀ state, look (act state).2 = look state) :
    (Routine.atomic act).Leaves look := fun state => ⟨same state, True.intro⟩

theorem Leaves.run {routine : Routine σ α} (leaves : routine.Leaves look) (state : σ) :
    look (routine.run state).2 = look state := by
  induction routine generalizing state with
  | done result => rfl
  | step act next ih => exact (ih state (leaves state).2 (act state)).trans (leaves state).1

end Routine

structure Meter (σ M : Type) [AddCommMonoid M] where
  Adds : σ → M → σ → Prop
  zero : ∀ state, Adds state 0 state
  add : ∀ first second third more further, Adds first more second → Adds second further third →
    Adds first (more + further) third

namespace Meter

variable [AddCommMonoid M] (meter : Meter σ M)

/-- A routine that has already added so much adds as much on the whole as its result tells, whatever
    others do between its steps. -/
def Charges (cost : α → M) : (spent : M) → Routine σ α → Prop
  | spent, .done result => cost result = spent
  | spent, .step act next => ∀ state, ∃ more, meter.Adds state more (act state) ∧
    Charges cost (spent + more) (next state)

variable {meter} {cost : α → M} {spent : M} {routine : Routine σ α}

theorem Charges.pure {result : α} (told : cost result = spent) :
    meter.Charges cost spent (Pure.pure result) := told

theorem Charges.atomic {act : σ → α × σ}
    (adds : ∀ state, ∃ more, meter.Adds state more (act state).2 ∧
      cost (act state).1 = spent + more) :
    meter.Charges cost spent (Routine.atomic act) := adds

theorem Charges.bind {middle : α → M} {cost : β → M} {continuation : α → Routine σ β}
    (first : meter.Charges middle spent routine)
    (rest : ∀ result, meter.Charges cost (middle result) (continuation result)) :
    meter.Charges cost spent (routine >>= continuation) := by
  change meter.Charges cost spent (routine.bind continuation)
  induction routine generalizing spent with
  | done result =>
    obtain rfl : middle result = spent := first
    exact rest result
  | step act next ih =>
    intro state
    obtain ⟨more, adds, onward⟩ := first state
    exact ⟨more, adds, ih state onward⟩

theorem Charges.map {cost : β → M} {f : α → β}
    (charges : meter.Charges (fun result => cost (f result)) spent routine) :
    meter.Charges cost spent (routine.map f) := charges.bind fun _ => rfl

theorem Charges.frame (charges : meter.Charges cost spent routine) (extra : M) :
    meter.Charges (fun result => cost result + extra) (spent + extra) routine := by
  induction routine generalizing spent with
  | done result => exact congrArg (· + extra) charges
  | step act next ih =>
    intro state
    obtain ⟨more, adds, onward⟩ := charges state
    refine ⟨more, adds, ?_⟩
    rw [add_right_comm]
    exact ih state onward

theorem Charges.run (charges : meter.Charges cost spent routine) (state : σ) :
    ∃ more, meter.Adds state more (routine.run state).2 ∧
      spent + more = cost (routine.run state).1 := by
  induction routine generalizing spent state with
  | done result => exact ⟨0, meter.zero state, (add_zero spent).trans charges.symm⟩
  | step act next ih =>
    obtain ⟨more, adds, onward⟩ := charges state
    obtain ⟨further, adds_onward, total⟩ := ih state onward (act state)
    refine ⟨more + further, meter.add _ _ _ _ _ adds adds_onward, ?_⟩
    rw [← add_assoc]
    exact total

theorem sum_set_add {amounts : List M} {number : Nat} {amount : M}
    (present : amounts[number]? = some amount) (more : M) :
    (amounts.set number (amount + more)).sum = amounts.sum + more := by
  induction amounts generalizing number with
  | nil => cases present
  | cons first rest ih =>
    cases number with
    | zero =>
      obtain rfl := Option.some.inj present
      rw [List.set_cons_zero, List.sum_cons, List.sum_cons, add_right_comm]
    | succ number => rw [List.set_cons_succ, List.sum_cons, List.sum_cons, ih present, add_assoc]

theorem Charges.sequence {accounts : List (M × Routine σ α)}
    (charges : ∀ account ∈ accounts, meter.Charges cost account.1 account.2) :
    meter.Charges (fun results => (results.map cost).sum) (accounts.map Prod.fst).sum
      (Routine.sequence (accounts.map Prod.snd)) := by
  induction accounts with
  | nil => exact .pure rfl
  | cons account rest ih =>
    obtain ⟨first, others⟩ := List.forall_mem_cons.mp charges
    refine (first.frame (rest.map Prod.fst).sum).bind fun result => ?_
    have onward := (ih others).frame (cost result)
    rw [add_comm] at onward
    refine onward.bind fun results => .pure ?_
    rw [List.map_cons, List.sum_cons, add_comm]

/-- Routines that take their steps in any order add together what all their results tell. -/
theorem Charges.interleave_accounts (schedule : List Nat) {accounts : List (M × Routine σ α)}
    (charges : ∀ account ∈ accounts, meter.Charges cost account.1 account.2) :
    meter.Charges (fun results => (results.map cost).sum) (accounts.map Prod.fst).sum
      (Routine.interleave schedule (accounts.map Prod.snd)) := by
  induction schedule generalizing accounts with
  | nil => exact .sequence charges
  | cons number rest ih =>
    rw [Routine.interleave]
    split
    · rename_i act next active
      rw [List.getElem?_map, Option.map_eq_some_iff] at active
      obtain ⟨⟨spent, routine⟩, present, same⟩ := active
      obtain rfl : routine = .step act next := same
      intro state
      obtain ⟨more, adds, onward⟩ := charges _ (List.mem_of_getElem? present) state
      refine ⟨more, adds, ?_⟩
      have after : ∀ account ∈ accounts.set number (spent + more, next state),
          meter.Charges cost account.1 account.2 := by
        intro account member
        rcases List.mem_or_eq_of_mem_set member with old | rfl
        · exact charges account old
        · exact onward
      have total := ih after
      rw [List.map_set, List.map_set, sum_set_add (by rw [List.getElem?_map, present]; rfl)] at total
      exact total
    · exact ih charges

theorem Charges.interleave (schedule : List Nat) {routines : List (Routine σ α)}
    (charges : ∀ routine ∈ routines, meter.Charges cost 0 routine) :
    meter.Charges (fun results => (results.map cost).sum) 0
      (Routine.interleave schedule routines) := by
  have accounts := @Charges.interleave_accounts _ _ _ _ meter cost schedule
    (routines.map fun routine => (0, routine)) fun account member => by
      obtain ⟨routine, present, rfl⟩ := List.mem_map.mp member
      exact charges routine present
  simpa [Function.comp_def] using accounts

end Meter

end Managed
