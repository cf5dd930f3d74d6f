import Managed.Proofs.CacheLedger

namespace Managed

variable {σ τ α β : Type} {view : σ → τ}

namespace Routine

/-- Two routines that take the same steps on what there is to see of the state, and so come to the
    same result. -/
inductive Mirrors (view : σ → τ) : Routine σ α → Routine τ α → Prop where
  | done (result : α) : Mirrors view (.done result) (.done result)
  | step {act : σ → σ} {next : σ → Routine σ α} {act' : τ → τ} {next' : τ → Routine τ α}
    (acts : ∀ state, view (act state) = act' (view state))
    (goes_on : ∀ state, Mirrors view (next state) (next' (view state))) :
    Mirrors view (.step act next) (.step act' next')

namespace Mirrors

theorem bind {routine : Routine σ α} {image : Routine τ α} {continuation : α → Routine σ β}
    {continuation' : α → Routine τ β} (first : Mirrors view routine image)
    (second : ∀ result, Mirrors view (continuation result) (continuation' result)) :
    Mirrors view (routine >>= continuation) (image >>= continuation') := by
  induction first with
  | done result => exact second result
  | step acts _ ih => exact .step acts ih

theorem atomic {act : σ → α × σ} {act' : τ → α × τ}
    (results : ∀ state, (act state).1 = (act' (view state)).1)
    (states : ∀ state, view (act state).2 = (act' (view state)).2) :
    Mirrors view (Routine.atomic act) (Routine.atomic act') := by
  refine .step states fun state => ?_
  rw [results]
  exact .done _

end Mirrors

end Routine

namespace Pool

structure Mirrors (view : σ → τ) (pool : Pool σ α) (image : Pool τ α) : Prop where
  state : view pool.state = image.state
  routines : ∀ number : Nat,
    Option.Rel (Routine.Mirrors view) pool.routines[number]? image.routines[number]?

variable {pool : Pool σ α} {image : Pool τ α}

theorem Mirrors.advance (mirrors : Mirrors view pool image) (number : Nat) :
    Mirrors view (pool.advance number) (image.advance number) := by
  have here := mirrors.routines number
  generalize found : pool.routines[number]? = routine at here
  generalize found' : image.routines[number]? = routine' at here
  cases here with
  | none =>
    rw [advance_idle (by simp [found]), advance_idle (by simp [found'])]
    exact mirrors
  | some same =>
    cases same with
    | done result =>
      rw [advance_idle (by simp [found]), advance_idle (by simp [found'])]
      exact mirrors
    | step acts goes_on =>
      rw [advance_step found, advance_step found', ← mirrors.state]
      refine ⟨acts _, fun other => ?_⟩
      rw [List.getElem?_set, List.getElem?_set]
      by_cases equal : number = other
      · subst equal
        have inside := (List.getElem?_eq_some_iff.mp found).1
        have inside' := (List.getElem?_eq_some_iff.mp found').1
        simp only [if_true, inside, inside']
        exact .some (goes_on _)
      · rw [if_neg equal, if_neg equal]
        exact mirrors.routines other

theorem Mirrors.run (mirrors : Mirrors view pool image) (schedule : List Nat) :
    Mirrors view (pool.run schedule) (image.run schedule) := by
  induction schedule generalizing pool image with
  | nil => exact mirrors
  | cons first rest ih => exact ih (mirrors.advance first)

end Pool

namespace Cache

variable {κ ν ε ω : Type}

namespace Ledger

def session (ledger : Ledger κ ν ε ω) : Session κ ν ε ω where
  cache := ledger.cache
  world := ledger.world
  accounts := ledger.calls.map Call.toAccount

theorem map_revise (calls : List (Call κ ν ε)) (number : Nat)
    (change : Account κ ν ε → Account κ ν ε) (effect : Effect κ) :
    (calls.modify number (Call.revise change effect)).map Call.toAccount =
      (calls.map Call.toAccount).modify number change := by
  induction calls generalizing number with
  | nil => cases number <;> rfl
  | cons call rest ih =>
    cases number with
    | zero => rfl
    | succ earlier => exact congrArg (call.toAccount :: ·) (ih earlier)

theorem session_revised (ledger : Ledger κ ν ε ω) (number : Nat)
    (change : Account κ ν ε → Account κ ν ε) (cache : Cache κ ν) :
    (ledger.revised number change cache).session =
      { ledger.session with
        cache
        accounts := ledger.session.accounts.modify number change } := by
  simp only [session, revised, map_revise]

theorem mirrors_cachePart (number : Nat) (act : Cache κ ν → α × Cache κ ν) :
    Routine.Mirrors session ((cachePart number : Part (Ledger κ ν ε ω) _).atomic act)
      (Session.cachePart.atomic act) := by
  refine .atomic (fun _ => rfl) fun ledger => ?_
  change (ledger.revised number id (act ledger.cache).2).session = _
  rw [session_revised, List.modify_id]
  rfl

theorem mirrors_amend (number : Nat) (change : Account κ ν ε → Account κ ν ε) :
    Routine.Mirrors session (amend number change : Routine (Ledger κ ν ε ω) Unit)
      (Session.amend number change) :=
  .atomic (fun _ => rfl) fun ledger => by simp only [session, map_revise]

theorem mirrors_constructing {outcome : α → Except ε ν} {create : Routine (Ledger κ ν ε ω) α}
    {create' : Routine (Session κ ν ε ω) α} (number : Nat)
    (creates : Routine.Mirrors session create create') :
    Routine.Mirrors session (constructing number outcome create)
      (Session.constructing number outcome create') :=
  (mirrors_amend number _).bind fun _ => creates.bind fun _ =>
    (mirrors_amend number _).bind fun _ => .done _

variable [DecidableEq κ]

theorem mirrors_begin (key : κ) (errand : Errand ν) :
    Routine.Mirrors session (begin key errand : Routine (Ledger κ ν ε ω) Nat)
      (Session.begin key errand) :=
  .atomic (fun _ => by simp only [session, List.length_map]) fun _ => by
    simp only [session, List.map_append, List.map_cons, List.map_nil]

theorem mirrors_getOrTryCreate {create : Routine (Ledger κ ν ε ω) (Except ε ν)}
    {create' : Routine (Session κ ν ε ω) (Except ε ν)} (number : Nat) (key : κ)
    (creates : Routine.Mirrors session create create') :
    Routine.Mirrors session (Cache.getOrTryCreate (cachePart number) key create)
      (Cache.getOrTryCreate Session.cachePart key create') := by
  refine (mirrors_cachePart number _).bind fun found => ?_
  cases found with
  | some value => exact .done _
  | none =>
    refine (mirrors_cachePart number _).bind fun _ => creates.bind fun outcome => ?_
    cases outcome with
    | error error => exact .done _
    | ok value => exact (mirrors_cachePart number _).bind fun _ => .done _

theorem mirrors_getOrCreate {create : Routine (Ledger κ ν ε ω) ν}
    {create' : Routine (Session κ ν ε ω) ν} (number : Nat) (key : κ)
    (creates : Routine.Mirrors session create create') :
    Routine.Mirrors session (Cache.getOrCreate (cachePart number) key create)
      (Cache.getOrCreate Session.cachePart key create') := by
  refine (mirrors_cachePart number _).bind fun found => ?_
  cases found with
  | some value => exact .done _
  | none =>
    exact (mirrors_cachePart number _).bind fun _ => creates.bind fun _ =>
      mirrors_cachePart number _

theorem mirrors_call {key : κ} {errand : Errand ν} {body : Nat → Routine (Ledger κ ν ε ω) β}
    {body' : Nat → Routine (Session κ ν ε ω) β} {answer : β → Except ε (Option ν)}
    {rest : β → Routine (Ledger κ ν ε ω) α} {rest' : β → Routine (Session κ ν ε ω) α}
    (called : ∀ number, Routine.Mirrors session (body number) (body' number))
    (goes_on : ∀ result, Routine.Mirrors session (rest result) (rest' result)) :
    Routine.Mirrors session
      (do
        let number ← begin key errand
        let result ← body number
        amend number (Account.reply (answer result))
        rest result)
      (do
        let number ← Session.begin key errand
        let result ← body' number
        Session.amend number (Account.reply (answer result))
        rest' result) :=
  (mirrors_begin key errand).bind fun number => (called number).bind fun result =>
    (mirrors_amend number _).bind fun _ => goes_on result

theorem mirrors_program (program : Program κ ν ε ω α) :
    Routine.Mirrors session program.charged program.routine := by
  induction program with
  | done result => exact .done result
  | other act next ih => exact .step (fun _ => rfl) fun ledger => ih ledger.world
  | tryGet key next ih => exact mirrors_call (fun number => mirrors_cachePart number _) ih
  | getOrCreate key create next create_ih ih =>
    exact mirrors_call
      (fun number => mirrors_getOrCreate number key (mirrors_constructing number create_ih)) ih
  | getOrTryCreate key create next create_ih ih =>
    exact mirrors_call
      (fun number => mirrors_getOrTryCreate number key (mirrors_constructing number create_ih)) ih
  | getOrInsert key value next ih =>
    exact mirrors_call (fun number => mirrors_cachePart number _) ih

theorem mirrors_pool (world : ω) (programs : List (Program κ ν ε ω Unit)) :
    Pool.Mirrors session (pool world programs) (Session.pool world programs) where
  state := rfl
  routines := fun number => by
    rw [pool, Session.pool, List.getElem?_map, List.getElem?_map]
    cases programs[number]? with
    | none => exact .none
    | some program => exact .some (mirrors_program program)

/-- The charges are kept beside what happens and change nothing of it. -/
theorem session_run (world : ω) (programs : List (Program κ ν ε ω Unit)) (schedule : List Nat) :
    ((pool world programs).run schedule).state.session =
      ((Session.pool world programs).run schedule).state :=
  ((mirrors_pool world programs).run schedule).state

end Ledger

end Cache

end Managed
