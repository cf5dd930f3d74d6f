import Managed.Context.Basic

namespace Managed

inductive SymbolRequest where
  | attach (attacher : SymbolAttacher) (loaded : Module)
  | attachSymbols (context : Context) (loaded : Module)
  | sequencePoints (context : Context) (method : MethodHandle)
  | localNames (context : Context) (method : MethodHandle)

inductive SymbolAnswer where
  | reader (reader : Option SymbolReader)
  | points (points : Option (List SequencePoint))
  | names (names : Option (List String))

/-- Files change from call to call, and so do the answers of the factories that read them. -/
structure SymbolStep where
  files : FileSystem
  request : SymbolRequest

namespace SymbolRequest

def attacher : SymbolRequest → SymbolAttacher
  | attach attacher _ => attacher
  | attachSymbols context _ => context.attacher
  | sequencePoints context _ => context.attacher
  | localNames context _ => context.attacher

def target? : SymbolRequest → Option Module
  | attach _ loaded => some loaded
  | attachSymbols _ loaded => some loaded
  | sequencePoints context method => (context.byId method.owner).1
  | localNames context method => (context.byId method.owner).1

def view : SymbolRequest → Option SymbolReader → SymbolAnswer
  | attach _ _, found => .reader found
  | attachSymbols _ _, found => .reader found
  | sequencePoints _ method, found => .points (found.map (·.sequencePoints method.token))
  | localNames _ method, found => .names (found.map (·.localNames method.token))

def perform (files : FileSystem) (store : SymbolStore) : SymbolRequest → SymbolAnswer × SymbolStore
  | attach attacher loaded =>
    let outcome := attacher.attach files loaded store
    (.reader outcome.1, outcome.2)
  | attachSymbols context loaded =>
    let outcome := { context with symbols := store }.attachSymbols files loaded
    (.reader outcome.1, outcome.2.symbols)
  | sequencePoints context method =>
    let outcome := { context with symbols := store }.sequencePointsFor files method
    (.points outcome.1, outcome.2.symbols)
  | localNames context method =>
    let outcome := { context with symbols := store }.localNamesFor files method
    (.names outcome.1, outcome.2.symbols)

end SymbolRequest

namespace SymbolStep

def perform (step : SymbolStep) (store : SymbolStore) : SymbolAnswer × SymbolStore :=
  step.request.perform step.files store

def made (step : SymbolStep) (store : SymbolStore) : List SymbolCall :=
  (step.perform store).2.calls.drop store.calls.length

def Reaches (step : SymbolStep) (id : ModuleId) : Prop :=
  step.request.target?.map (·.id) = some id

instance (step : SymbolStep) (id : ModuleId) : Decidable (step.Reaches id) :=
  inferInstanceAs (Decidable (_ = _))

def Tries (step : SymbolStep) (id : ModuleId) : Prop :=
  step.request.attacher.enabled = true ∧ step.Reaches id

end SymbolStep

namespace SymbolStore

def after (store : SymbolStore) (steps : List SymbolStep) : SymbolStore :=
  steps.foldl (fun store step => (step.perform store).2) store

def callsFor (id : ModuleId) : (store : SymbolStore) → (steps : List SymbolStep) → List SymbolCall
  | _, [] => []
  | store, step :: rest =>
    (if step.Reaches id then step.made store else []) ++ callsFor id (step.perform store).2 rest

theorem after_append (store : SymbolStore) (first second : List SymbolStep) :
    store.after (first ++ second) = (store.after first).after second := by
  rw [after, List.foldl_append]
  rfl

theorem after_cons (store : SymbolStore) (step : SymbolStep) (rest : List SymbolStep) :
    store.after (step :: rest) = after (step.perform store).2 rest := rfl

theorem callsFor_append (id : ModuleId) (store : SymbolStore) (first second : List SymbolStep) :
    callsFor id store (first ++ second) =
      callsFor id store first ++ callsFor id (store.after first) second := by
  induction first generalizing store with
  | nil => rfl
  | cons step rest ih => rw [List.cons_append, callsFor, callsFor, ih, List.append_assoc, after_cons]

theorem slot?_settled {store : SymbolStore} {id other : ModuleId} {outcome : Option SymbolReader}
    {calls : List SymbolCall} (free : store.slot? other = none) :
    slot? ⟨store.slots ++ [(other, outcome)], calls⟩ id =
      if id = other then some outcome else store.slot? id := by
  have looked : slot? ⟨store.slots ++ [(other, outcome)], calls⟩ id =
      (store.slot? id).or ([(other, outcome)].lookup id) := List.lookup_append
  by_cases same : id = other
  · rw [looked, if_pos same, same, free, Option.none_or, List.lookup_cons_self]
  · have apart : (id == other) = false := beq_eq_false_iff_ne.mpr same
    rw [looked, if_neg same, List.lookup_cons, apart]
    exact Option.or_none

end SymbolStore

namespace SymbolAttacher

variable {attacher : SymbolAttacher} {files : FileSystem} {loaded : Module} {store : SymbolStore}

theorem attach_disabled (disabled : attacher.enabled = false) :
    attacher.attach files loaded store = (none, store) := by
  rw [attach, disabled]
  rfl

theorem attach_settled (enabled : attacher.enabled = true) {outcome : Option SymbolReader}
    (settled : store.slot? loaded.id = some outcome) :
    attacher.attach files loaded store = (outcome, store) := by
  rw [attach, if_pos enabled, settled]

theorem attach_free (enabled : attacher.enabled = true) (free : store.slot? loaded.id = none) :
    attacher.attach files loaded store =
      ((attacher.openSymbols files loaded.path).1,
        ⟨store.slots ++ [(loaded.id, (attacher.openSymbols files loaded.path).1)],
          store.calls ++ (attacher.openSymbols files loaded.path).2⟩) := by
  rw [attach, if_pos enabled, free]

structure Opens (attacher : SymbolAttacher) (files : FileSystem) (path : Path)
    (outcome : Option SymbolReader) (calls : List SymbolCall) : Prop where
  inTurn : calls <+: [.portable (attacher.symbolPath path), .legacy path]
  present : calls ≠ [] → files.isFile (attacher.symbolPath path) = true
  notPortable : .legacy path ∈ calls →
    attacher.factory.openPortable files (attacher.symbolPath path) = .absent
  found : ∀ reader, outcome = some reader ↔
    files.isFile (attacher.symbolPath path) = true ∧
      (attacher.factory.openPortable files (attacher.symbolPath path) = .found reader ∨
        attacher.factory.openPortable files (attacher.symbolPath path) = .absent ∧
          attacher.factory.openLegacy files path = .found reader)

theorem opens_openSymbols (attacher : SymbolAttacher) (files : FileSystem) (path : Path) :
    attacher.Opens files path (attacher.openSymbols files path).1
      (attacher.openSymbols files path).2 := by
  unfold openSymbols
  dsimp only
  split
  case isFalse missing =>
    constructor <;> simp [missing]
  case isTrue present =>
    cases portable : attacher.factory.openPortable files (attacher.symbolPath path) with
    | found reader =>
      constructor <;> simp [present, portable]
    | failed =>
      constructor <;> simp [present, portable]
    | absent =>
      constructor <;> simp [present, portable]
      cases attacher.factory.openLegacy files path <;> simp [Opening.reader?]

end SymbolAttacher

namespace Context

variable {context : Context} {method : MethodHandle}

theorem symbolsFor_stray (files : FileSystem) (store : SymbolStore)
    (stray : (context.byId method.owner).1 = none) :
    { context with symbols := store }.symbolsFor files method =
      (none, { (context.byId method.owner).2 with symbols := store }) := by
  have looked : { context with symbols := store }.byId method.owner =
      (none, { (context.byId method.owner).2 with symbols := store }) := Prod.ext stray rfl
  rw [symbolsFor, looked]

theorem symbolsFor_target (files : FileSystem) (store : SymbolStore) {loaded : Module}
    (target : (context.byId method.owner).1 = some loaded) :
    { context with symbols := store }.symbolsFor files method =
      { (context.byId method.owner).2 with symbols := store }.attachSymbols files loaded := by
  have looked : { context with symbols := store }.byId method.owner =
      (some loaded, { (context.byId method.owner).2 with symbols := store }) :=
    Prod.ext target rfl
  rw [symbolsFor, looked]

end Context

namespace SymbolStep

variable {step : SymbolStep} {store : SymbolStore} {id : ModuleId}

theorem perform_stray (stray : step.request.target? = none) :
    step.perform store = (step.request.view none, store) := by
  obtain ⟨files, request⟩ := step
  cases request with
  | attach => cases stray
  | attachSymbols => cases stray
  | sequencePoints context method =>
    have found := Context.symbolsFor_stray files store stray
    simp only [perform, SymbolRequest.perform, Context.sequencePointsFor, found]
    rfl
  | localNames context method =>
    have found := Context.symbolsFor_stray files store stray
    simp only [perform, SymbolRequest.perform, Context.localNamesFor, found]
    rfl

theorem perform_target {loaded : Module} (target : step.request.target? = some loaded) :
    step.perform store =
      (step.request.view (step.request.attacher.attach step.files loaded store).1,
        (step.request.attacher.attach step.files loaded store).2) := by
  obtain ⟨files, request⟩ := step
  cases request with
  | attach =>
    cases target
    rfl
  | attachSymbols =>
    cases target
    rfl
  | sequencePoints context method =>
    have found := Context.symbolsFor_target files store target
    simp only [perform, SymbolRequest.perform, Context.sequencePointsFor, found]
    rfl
  | localNames context method =>
    have found := Context.symbolsFor_target files store target
    simp only [perform, SymbolRequest.perform, Context.localNamesFor, found]
    rfl

theorem perform_disabled (disabled : step.request.attacher.enabled = false) :
    step.perform store = (step.request.view none, store) := by
  cases target : step.request.target? with
  | none => exact perform_stray target
  | some loaded => rw [perform_target target, SymbolAttacher.attach_disabled disabled]

theorem perform_settled (tries : step.Tries id) {outcome : Option SymbolReader}
    (settled : store.slot? id = some outcome) :
    step.perform store = (step.request.view outcome, store) := by
  obtain ⟨loaded, target, rfl⟩ := Option.map_eq_some_iff.mp tries.2
  rw [perform_target target, SymbolAttacher.attach_settled tries.1 settled]

theorem perform_free {loaded : Module} (enabled : step.request.attacher.enabled = true)
    (target : step.request.target? = some loaded) (free : store.slot? loaded.id = none) :
    let opened := step.request.attacher.openSymbols step.files loaded.path
    step.perform store = (step.request.view opened.1,
      ⟨store.slots ++ [(loaded.id, opened.1)], store.calls ++ opened.2⟩) := by
  rw [perform_target target, SymbolAttacher.attach_free enabled free]

/-- Other modules keep their outcomes. -/
theorem slot?_perform (misses : ¬ step.Tries id) :
    (step.perform store).2.slot? id = store.slot? id := by
  cases target : step.request.target? with
  | none => rw [perform_stray target]
  | some loaded =>
    cases enabled : step.request.attacher.enabled with
    | false => rw [perform_disabled enabled]
    | true =>
      have apart : id ≠ loaded.id := by
        rintro rfl
        exact misses ⟨enabled, by rw [Reaches, target, Option.map_some]⟩
      cases settled : store.slot? loaded.id with
      | some outcome =>
        have tries : step.Tries loaded.id := ⟨enabled, by rw [Reaches, target, Option.map_some]⟩
        rw [perform_settled tries settled]
      | none => rw [perform_free enabled target settled, SymbolStore.slot?_settled settled,
          if_neg apart]

theorem made_of_keeps (keeps : (step.perform store).2 = store) : step.made store = [] := by
  rw [made, keeps, List.drop_length]

theorem callsFor_cons_of_misses (misses : ¬ step.Tries id) (rest : List SymbolStep) :
    SymbolStore.callsFor id store (step :: rest) =
      SymbolStore.callsFor id (step.perform store).2 rest := by
  rw [SymbolStore.callsFor]
  split
  · rename_i reaches
    have disabled : step.request.attacher.enabled = false := by
      rw [← Bool.not_eq_true]
      exact fun enabled => misses ⟨enabled, reaches⟩
    rw [made_of_keeps (by rw [perform_disabled disabled]), List.nil_append]
  · rw [List.nil_append]

end SymbolStep

namespace SymbolStore

variable {store : SymbolStore} {id : ModuleId} {steps : List SymbolStep}

theorem untouched (misses : ∀ step ∈ steps, ¬ step.Tries id) :
    (store.after steps).slot? id = store.slot? id ∧ callsFor id store steps = [] := by
  induction steps generalizing store with
  | nil => exact ⟨rfl, rfl⟩
  | cons step rest ih =>
    have both := List.forall_mem_cons.mp misses
    have later := @ih (step.perform store).2 both.2
    rw [after_cons, SymbolStep.callsFor_cons_of_misses both.1]
    exact ⟨later.1.trans (SymbolStep.slot?_perform both.1), later.2⟩

theorem settled_after {outcome : Option SymbolReader} (settled : store.slot? id = some outcome) :
    (store.after steps).slot? id = some outcome ∧ callsFor id store steps = [] := by
  induction steps generalizing store with
  | nil => exact ⟨settled, rfl⟩
  | cons step rest ih =>
    by_cases tries : step.Tries id
    · have kept := congrArg Prod.snd (SymbolStep.perform_settled tries settled)
      have later := ih settled
      rw [after_cons, callsFor, if_pos tries.2, SymbolStep.made_of_keeps kept, kept]
      exact later
    · rw [after_cons, SymbolStep.callsFor_cons_of_misses tries]
      exact ih ((SymbolStep.slot?_perform tries).trans settled)

theorem reader?_of_slot? {outcome : Option SymbolReader} (settled : store.slot? id = some outcome) :
    store.reader? id = outcome := by
  rw [reader?, settled, Option.join_some]

/-- The first enabled attempt for a module settles its outcome and makes all the calls. -/
theorem attached_once (id : ModuleId) (steps : List SymbolStep) :
    ((∀ step ∈ steps, ¬ step.Tries id) →
      (after {} steps).reader? id = none ∧ callsFor id {} steps = []) ∧
    (∀ before first rest, steps = before ++ first :: rest → (∀ step ∈ before, ¬ step.Tries id) →
      first.Tries id → ∃ loaded outcome calls,
        first.request.target? = some loaded ∧
        first.request.attacher.Opens first.files loaded.path outcome calls ∧
        (first.perform (after {} before)).1 = first.request.view outcome ∧
        (after {} steps).reader? id = outcome ∧
        callsFor id {} steps = calls ∧
        ∀ middle later last, rest = middle ++ later :: last → later.Tries id →
          later.perform (after {} (before ++ first :: middle)) =
            (later.request.view outcome, after {} (before ++ first :: middle))) ∧
    (∀ (step : SymbolStep) (store : SymbolStore), step.request.attacher.enabled = false →
      step.perform store = (step.request.view none, store)) ∧
    (∀ (step : SymbolStep) (store : SymbolStore), ¬ step.Reaches id →
      (step.perform store).2.slot? id = store.slot? id) := by
  refine ⟨?_, ?_, fun step store => SymbolStep.perform_disabled,
    fun step store away => SymbolStep.slot?_perform fun tries => away tries.2⟩
  · intro misses
    obtain ⟨free, none_made⟩ := @untouched {} id steps misses
    exact ⟨by rw [reader?, free]; rfl, none_made⟩
  · rintro before first rest rfl misses tries
    obtain ⟨loaded, target, rfl⟩ := Option.map_eq_some_iff.mp tries.2
    obtain ⟨free, none_made⟩ := @untouched {} _ before misses
    let opened := first.request.attacher.openSymbols first.files loaded.path
    have settles := SymbolStep.perform_free tries.1 target free
    have settled : (first.perform (after {} before)).2.slot? loaded.id = some opened.1 := by
      rw [settles, slot?_settled free, if_pos rfl]
    have made : first.made (after {} before) = opened.2 := by
      rw [SymbolStep.made, settles, List.drop_left]
    have kept : ∀ later, (after {} (before ++ first :: later)).slot? loaded.id = some opened.1 := by
      intro later
      rw [after_append, after_cons]
      exact (settled_after settled).1
    refine ⟨loaded, opened.1, opened.2, target, SymbolAttacher.opens_openSymbols _ _ _, ?_,
      reader?_of_slot? (kept rest), ?_, ?_⟩
    · rw [settles]
    · rw [callsFor_append, none_made, List.nil_append, callsFor, if_pos tries.2, made,
        (settled_after settled).2, List.append_nil]
    · intro middle later last _ again
      exact SymbolStep.perform_settled again (kept middle)

end SymbolStore

end Managed
