namespace Managed

/-- A computation over a shared state. Each step looks at the state, replaces it and decides how to
    go on, all at once; between two steps others may change the state. -/
inductive Routine (σ α : Type) where
  | done (result : α)
  | step (act : σ → σ) (next : σ → Routine σ α)

namespace Routine

variable {σ τ α β γ : Type}

def bind : Routine σ α → (α → Routine σ β) → Routine σ β
  | .done result, continuation => continuation result
  | .step act next, continuation => .step act fun state => (next state).bind continuation

instance : Monad (Routine σ) where
  pure := .done
  bind := bind

def atomic (act : σ → α × σ) : Routine σ α :=
  .step (fun state => (act state).2) fun state => .done (act state).1

def run : Routine σ α → σ → α × σ
  | .done result, state => (result, state)
  | .step act next, state => (next state).run (act state)

def result? : Routine σ α → Option α
  | .done result => some result
  | .step _ _ => none

def map (f : α → β) (routine : Routine σ α) : Routine σ β :=
  routine.bind fun result => .done (f result)

def sequence : (routines : List (Routine σ α)) → Routine σ (List α)
  | [] => return []
  | first :: rest => do return (← first) :: (← sequence rest)

/-- Takes the steps of the routines in the order in which the schedule names them. What is left of
    the routines then is done one after another. -/
def interleave : (schedule : List Nat) → (routines : List (Routine σ α)) → Routine σ (List α)
  | [], routines => sequence routines
  | number :: rest, routines =>
    match routines[number]? with
    | some (.step act next) =>
      .step act fun state => interleave rest (routines.set number (next state))
    | _ => interleave rest routines

@[simp] theorem run_done (result : α) (state : σ) :
    (Routine.done result : Routine σ α).run state = (result, state) := rfl

theorem run_bind (routine : Routine σ α) (continuation : α → Routine σ β) (state : σ) :
    (routine.bind continuation).run state =
      (continuation (routine.run state).1).run (routine.run state).2 := by
  induction routine generalizing state with
  | done result => rfl
  | step act next ih => exact ih state (act state)

theorem run_map (routine : Routine σ α) (f : α → β) (state : σ) :
    (routine.map f).run state = (f (routine.run state).1, (routine.run state).2) := run_bind _ _ _

@[simp] theorem run_atomic (act : σ → α × σ) (state : σ) : (atomic act).run state = act state := rfl

theorem bind_assoc (routine : Routine σ α) (second : α → Routine σ β) (third : β → Routine σ γ) :
    (routine.bind second).bind third = routine.bind fun result => (second result).bind third := by
  induction routine with
  | done result => rfl
  | step act next ih => exact congrArg (Routine.step act) (funext fun state => ih state)

theorem map_id (routine : Routine σ α) : (routine.map fun result => result) = routine := by
  induction routine with
  | done result => rfl
  | step act next ih => exact congrArg (Routine.step act) (funext fun state => ih state)

theorem map_map (f : α → β) (g : β → γ) (routine : Routine σ α) :
    (routine.map f).map g = routine.map fun result => g (f result) := bind_assoc routine _ _

end Routine

structure Part (σ τ : Type) where
  get : σ → τ
  set : σ → τ → σ

def Part.atomic {σ τ α : Type} (part : Part σ τ) (act : τ → α × τ) : Routine σ α :=
  Routine.atomic fun state =>
    let outcome := act (part.get state)
    (outcome.1, part.set state outcome.2)

structure Pool (σ α : Type) where
  state : σ
  routines : List (Routine σ α)

namespace Pool

variable {σ α : Type}

def advance (pool : Pool σ α) (number : Nat) : Pool σ α :=
  match pool.routines[number]? with
  | some (.step act next) =>
    ⟨act pool.state, pool.routines.set number (next pool.state)⟩
  | _ => pool

def run (pool : Pool σ α) (schedule : List Nat) : Pool σ α :=
  schedule.foldl advance pool

def results (pool : Pool σ α) : List (Option α) :=
  pool.routines.map Routine.result?

end Pool

end Managed
