import Mathlib.Data.Finset.Card
import Managed.Context.Delegates
import Managed.Proofs.LookupProgress

namespace Managed

inductive DelegateCall where
  | get (type : TypeHandle)
  | tryGet (type : TypeHandle)
  | invokeShape (ref : DelegateRef) (read : TypeHandle → InvokeShape)

namespace DelegateCall

def asked? : DelegateCall → Option TypeHandle
  | get type => some type
  | tryGet _ | invokeShape _ _ => none

def reader? (ref : DelegateRef) : DelegateCall → Option (TypeHandle → InvokeShape)
  | invokeShape other read => if other = ref then some read else none
  | get _ | tryGet _ => none

def asked (calls : List DelegateCall) : List TypeHandle := calls.filterMap asked?

def firstReader? (ref : DelegateRef) (calls : List DelegateCall) :
    Option (TypeHandle → InvokeShape) := calls.findSome? (reader? ref)

def Concerns (type : TypeHandle) (own : Option DelegateRef) : DelegateCall → Prop
  | get other | tryGet other => other = type
  | invokeShape ref _ => own = some ref

end DelegateCall

namespace Delegates

variable {delegates : Delegates} {type : TypeHandle} {ref : DelegateRef} {info : DelegateInfo}

theorem get_present (found : delegates.published.find? type = some ref) :
    delegates.get type = (ref, { delegates with published := delegates.published.hit }) := by
  have looked := Cache.tryGet_present found
  simp only [get, obtain, Cache.getOrCreate, Part.atomic, bind, pure, Routine.run_bind,
    Routine.run_atomic, Routine.run_done, publishedPart, looked]

theorem get_absent (absent : delegates.published.find? type = none) :
    delegates.get type = (delegates.objects.length,
      ⟨delegates.objects ++ [{ type := type }],
        delegates.published.missed.published type delegates.objects.length⟩) := by
  have looked := Cache.tryGet_absent absent
  have still_absent : delegates.published.missed.find? type = none := absent
  have published : delegates.published.missed.publish type delegates.objects.length = _ :=
    Cache.publish_absent still_absent
  simp only [get, obtain, Cache.getOrCreate, Part.atomic, bind, pure, Routine.run_bind,
    Routine.run_atomic, publishedPart, looked, Cache.recordMiss_eq, create, published]

theorem tryGet_fst (delegates : Delegates) (type : TypeHandle) :
    (delegates.tryGet type).1 = delegates.published.find? type :=
  Cache.tryGet_fst type delegates.published

theorem find?_tryGet (delegates : Delegates) (type other : TypeHandle) :
    (delegates.tryGet type).2.published.find? other = delegates.published.find? other :=
  Cache.find?_congr (Cache.tryGet_entries type delegates.published) other

theorem invokeShape_published (delegates : Delegates) (ref : DelegateRef)
    (read : TypeHandle → InvokeShape) :
    (delegates.invokeShape ref read).2.published = delegates.published := by
  unfold invokeShape
  split
  · rfl
  · split <;> rfl

theorem invokeShape_present (there : delegates.info? ref = some info)
    (read : TypeHandle → InvokeShape) :
    (delegates.invokeShape ref read).1 = some (match info.shape with
      | some shape => ⟨shape, none⟩
      | none => ⟨read info.type, some info.type⟩) := by
  rw [invokeShape, there]
  cases settled : info.shape <;> simp [settled]

theorem info?_invokeShape_own (there : delegates.info? ref = some info)
    (read : TypeHandle → InvokeShape) : (delegates.invokeShape ref read).2.info? ref =
      some { info with shape := info.shape.or (some (read info.type)) } := by
  obtain ⟨inside, -⟩ := List.getElem?_eq_some_iff.mp there
  obtain ⟨type, shape⟩ := info
  rw [invokeShape, there]
  cases shape with
  | some shape => exact there
  | none => exact List.getElem?_set_self inside

theorem info?_invokeShape_other {other : DelegateRef} (apart : ref ≠ other)
    (read : TypeHandle → InvokeShape) :
    (delegates.invokeShape ref read).2.info? other = delegates.info? other := by
  unfold invokeShape
  split
  · rfl
  · split
    · rfl
    · exact List.getElem?_set_ne apart

def perform (delegates : Delegates) : DelegateCall → Delegates
  | .get type => (delegates.get type).2
  | .tryGet type => (delegates.tryGet type).2
  | .invokeShape ref read => (delegates.invokeShape ref read).2

def after (delegates : Delegates) (calls : List DelegateCall) : Delegates :=
  calls.foldl perform delegates

/-- An object stays, and its shape is settled by the first reader for it. -/
theorem info?_perform (there : delegates.info? ref = some info) (call : DelegateCall) :
    (delegates.perform call).info? ref =
      some { info with shape := info.shape.or ((call.reader? ref).map (· info.type)) } := by
  have kept : { info with shape := info.shape.or none } = info := by rw [Option.or_none]
  cases call with
  | get type =>
    cases found : delegates.published.find? type with
    | some own =>
      rw [perform, get_present found]
      exact there.trans (congrArg some kept.symm)
    | none =>
      obtain ⟨inside, -⟩ := List.getElem?_eq_some_iff.mp there
      rw [perform, get_absent found, info?, List.getElem?_append_left inside]
      exact there.trans (congrArg some kept.symm)
  | tryGet type => exact there.trans (congrArg some kept.symm)
  | invokeShape other read =>
    by_cases same : other = ref
    · subst same
      rw [perform, info?_invokeShape_own there, DelegateCall.reader?, if_pos rfl]
      rfl
    · rw [perform, info?_invokeShape_other same, DelegateCall.reader?, if_neg same, there,
        Option.map_none, kept]

theorem info?_after (there : delegates.info? ref = some info) (calls : List DelegateCall) :
    (delegates.after calls).info? ref = some { info with
      shape := info.shape.or ((DelegateCall.firstReader? ref calls).map (· info.type)) } := by
  induction calls generalizing delegates info with
  | nil => simpa [after, DelegateCall.firstReader?] using there
  | cons call rest ih =>
    have later := ih (info?_perform there call)
    rw [after, List.foldl_cons]
    refine later.trans ?_
    rw [DelegateCall.firstReader?, DelegateCall.firstReader?, List.findSome?_cons]
    cases call.reader? ref <;> simp

/-- Every object is published for its own type, and nothing else is. -/
structure IsSound (delegates : Delegates) : Prop where
  distinct : delegates.published.Distinct
  owned : ∀ type ref, delegates.published.find? type = some ref ↔
    (delegates.info? ref).map (·.type) = some type

theorem isSound_empty : IsSound {} where
  distinct := List.nodup_nil
  owned := fun _ _ => iff_of_false nofun nofun

theorem IsSound.object (sound : delegates.IsSound)
    (found : delegates.published.find? type = some ref) :
    ∃ info, delegates.info? ref = some info ∧ info.type = type :=
  Option.map_eq_some_iff.mp ((sound.owned type ref).mp found)

/-- Types of one object are the same. -/
theorem IsSound.eq (sound : delegates.IsSound) {other : TypeHandle}
    (found : delegates.published.find? type = some ref)
    (other_found : delegates.published.find? other = some ref) : type = other := by
  have own := (sound.owned type ref).mp found
  rw [(sound.owned other ref).mp other_found] at own
  exact (Option.some.inj own).symm

/-- The types of the objects, and what is published, are all that matters. -/
theorem IsSound.congr (sound : delegates.IsSound) {others : Delegates}
    (entries : others.published.entries = delegates.published.entries)
    (types : ∀ ref, (others.info? ref).map (·.type) = (delegates.info? ref).map (·.type)) :
    others.IsSound where
  distinct := by
    rw [Cache.Distinct, entries]
    exact sound.distinct
  owned := by
    intro type ref
    rw [types, Cache.find?_congr entries]
    exact sound.owned type ref

theorem info?_create (delegates : Delegates) (type : TypeHandle)
    (published : Cache TypeHandle DelegateRef) (ref : DelegateRef) :
    info? ⟨delegates.objects ++ [{ type := type }], published⟩ ref =
      if ref = delegates.objects.length then some { type } else delegates.info? ref := by
  rw [info?, info?]
  split
  · rename_i same
    rw [same, List.getElem?_concat_length]
  · rename_i other
    rcases Nat.lt_or_gt_of_ne other with inside | outside
    · exact List.getElem?_append_left inside
    · rw [List.getElem?_eq_none (by simp; omega), List.getElem?_eq_none (by omega)]

theorem IsSound.create (sound : delegates.IsSound)
    (absent : delegates.published.find? type = none) : IsSound
      ⟨delegates.objects ++ [{ type := type }],
        delegates.published.missed.published type delegates.objects.length⟩ where
  distinct := by
    have distinct : delegates.published.missed.Distinct := sound.distinct
    exact Cache.published_distinct distinct absent
  owned := by
    have still_absent : delegates.published.missed.find? type = none := absent
    have outside : delegates.info? delegates.objects.length = none :=
      List.getElem?_eq_none (Nat.le_refl _)
    intro other ref
    rw [info?_create]
    by_cases same : other = type
    · subst same
      rw [Cache.find?_published still_absent]
      split
      · rename_i at_end
        simp [at_end]
      · rename_i elsewhere
        rw [← sound.owned, absent]
        exact iff_of_false (fun last => elsewhere (Option.some.inj last).symm) nofun
    · have old : delegates.published.missed.find? other = some ref ↔
          (delegates.info? ref).map (·.type) = some other := sound.owned other ref
      rw [Cache.find?_published_other same, old]
      split
      · rename_i at_end
        rw [at_end, outside]
        exact iff_of_false nofun fun alike => same (Option.some.inj alike).symm
      · rfl

theorem IsSound.perform (sound : delegates.IsSound) (call : DelegateCall) :
    (delegates.perform call).IsSound := by
  cases call with
  | get type =>
    cases found : delegates.published.find? type with
    | some ref =>
      rw [Delegates.perform, get_present found]
      exact sound.congr rfl fun _ => rfl
    | none =>
      rw [Delegates.perform, get_absent found]
      exact sound.create found
  | tryGet type => exact sound.congr (Cache.tryGet_entries type delegates.published) fun _ => rfl
  | invokeShape ref read =>
    apply sound.congr
    · exact congrArg (·.entries) (invokeShape_published delegates ref read)
    · intro other
      by_cases same : ref = other
      · subst same
        cases there : delegates.info? ref with
        | none =>
          rw [Delegates.perform, invokeShape, there]
          exact congrArg _ there
        | some info =>
          rw [Delegates.perform, info?_invokeShape_own there]
          rfl
      · rw [Delegates.perform, info?_invokeShape_other same]

theorem IsSound.after (sound : delegates.IsSound) (calls : List DelegateCall) :
    (delegates.after calls).IsSound := by
  induction calls generalizing delegates with
  | nil => exact sound
  | cons call rest ih => exact ih (sound.perform call)

theorem after_append (delegates : Delegates) (first second : List DelegateCall) :
    delegates.after (first ++ second) = (delegates.after first).after second :=
  List.foldl_append

/-- What is published for a type stays, whatever is called. -/
theorem find?_perform (found : delegates.published.find? type = some ref) (call : DelegateCall) :
    (delegates.perform call).published.find? type = some ref := by
  cases call with
  | get other =>
    cases other_found : delegates.published.find? other with
    | some own =>
      rw [perform, get_present other_found]
      exact found
    | none =>
      rw [perform, get_absent other_found]
      exact Cache.find?_grows (Cache.published_grows delegates.published.missed _ _) found
  | tryGet other => exact (find?_tryGet delegates other type).trans found
  | invokeShape own read => rwa [perform, invokeShape_published]

/-- Nothing is published for a type whose object is not asked for. -/
theorem find?_perform_other (call : DelegateCall) (other : call.asked? ≠ some type) :
    (delegates.perform call).published.find? type = delegates.published.find? type := by
  cases call with
  | get asked =>
    cases found : delegates.published.find? asked with
    | some own =>
      rw [perform, get_present found]
      rfl
    | none =>
      rw [perform, get_absent found]
      exact Cache.find?_published_other (fun same => other (congrArg some same.symm)) _
  | tryGet asked => exact find?_tryGet delegates asked type
  | invokeShape own read => rw [perform, invokeShape_published]

theorem find?_get (delegates : Delegates) (type : TypeHandle) :
    (delegates.perform (.get type)).published.find? type = some (delegates.get type).1 := by
  cases found : delegates.published.find? type with
  | some ref =>
    rw [perform, get_present found]
    exact found
  | none =>
    have still_absent : delegates.published.missed.find? type = none := found
    rw [perform, get_absent found]
    exact Cache.find?_published still_absent

theorem find?_after (found : delegates.published.find? type = some ref)
    (calls : List DelegateCall) : (delegates.after calls).published.find? type = some ref := by
  induction calls generalizing delegates with
  | nil => exact found
  | cons call rest ih => exact ih (find?_perform found call)

theorem find?_after_other {calls : List DelegateCall}
    (unasked : ∀ call ∈ calls, call.asked? ≠ some type) :
    (delegates.after calls).published.find? type = delegates.published.find? type := by
  induction calls generalizing delegates with
  | nil => rfl
  | cons call rest ih =>
    obtain ⟨other, others⟩ := List.forall_mem_cons.mp unasked
    exact (ih others).trans (find?_perform_other call other)

/-- Exactly the types whose objects were asked for have one. -/
theorem find?_after_start (calls : List DelegateCall) (type : TypeHandle) :
    (after {} calls).published.find? type =
      if type ∈ DelegateCall.asked calls then some ((after {} calls).get type).1 else none := by
  split
  · rename_i member
    obtain ⟨call, call_member, asked⟩ := List.mem_filterMap.mp member
    obtain ⟨before, rest, rfl⟩ := List.append_of_mem call_member
    have get : call = .get type := by
      cases call <;> simp_all [DelegateCall.asked?]
    have found := find?_after (find?_get (after {} before) type) rest
    rw [after_append, get]
    exact found.trans (congrArg (some ·.1) (get_present found).symm)
  · rename_i unasked
    apply find?_after_other
    intro call member asked
    exact unasked (List.mem_filterMap.mpr ⟨call, member, asked⟩)

theorem size_after (calls : List DelegateCall) :
    (after {} calls).size = (DelegateCall.asked calls).toFinset.card := by
  have sound := isSound_empty.after calls
  have same : ((after {} calls).published.entries.map Prod.fst).toFinset =
      (DelegateCall.asked calls).toFinset := by
    ext type
    have listed := find?_after_start calls type
    have absent : (after {} calls).published.find? type = none ↔ _ := Cache.lookup_eq_none
    rw [listed] at absent
    rw [List.mem_toFinset, List.mem_toFinset, ← not_iff_not, ← absent]
    simp
  rw [← same, List.toFinset_card_of_nodup sound.distinct, List.length_map]
  rfl

def yield? (delegates : Delegates) (type : TypeHandle) : Option (DelegateRef × DelegateInfo) :=
  (delegates.tryGet type).1.bind fun ref => (delegates.info? ref).map fun info => (ref, info)

theorem IsSound.yield?_after (sound : delegates.IsSound) {calls : List DelegateCall}
    (apart : ∀ call ∈ calls, ¬ call.Concerns type (delegates.tryGet type).1) :
    (delegates.after calls).yield? type = delegates.yield? type := by
  rw [yield?, yield?, tryGet_fst, tryGet_fst]
  rw [tryGet_fst] at apart
  cases found : delegates.published.find? type with
  | none =>
    have unasked : ∀ call ∈ calls, call.asked? ≠ some type := by
      intro call member asked
      apply apart call member
      cases call with
      | get other => exact Option.some.inj asked
      | tryGet | invokeShape => cases asked
    rw [find?_after_other unasked, found]
    rfl
  | some ref =>
    obtain ⟨info, there, -⟩ := sound.object found
    have unread : DelegateCall.firstReader? ref calls = none := by
      rw [DelegateCall.firstReader?, List.findSome?_eq_none_iff]
      intro call member
      have unconcerned := apart call member
      cases call with
      | get | tryGet => rfl
      | invokeShape own read =>
        rw [DelegateCall.reader?, if_neg]
        rintro rfl
        exact unconcerned found
    rw [find?_after found, Option.bind_some, Option.bind_some, info?_after there, there, unread,
      Option.map_none, Option.or_none]

theorem info?_get_absent (absent : delegates.published.find? type = none) :
    (delegates.perform (.get type)).info? (delegates.get type).1 = some { type } := by
  rw [perform, get_absent absent, info?_create, if_pos rfl]

theorem IsSound.get_eq_iff (sound : delegates.IsSound)
    (found : delegates.published.find? type = some ref) (other : TypeHandle) :
    (delegates.get other).1 = ref ↔ other = type := by
  constructor
  · intro same
    cases other_found : delegates.published.find? other with
    | some own =>
      rw [get_present other_found] at same
      exact sound.eq (other_found.trans (congrArg some same)) found
    | none =>
      obtain ⟨info, there, -⟩ := sound.object found
      obtain ⟨inside, -⟩ := List.getElem?_eq_some_iff.mp there
      rw [get_absent other_found] at same
      exact absurd same.symm (Nat.ne_of_lt inside)
  · rintro rfl
    rw [get_present found]

/-- A type has one object, from the first time on that it is asked for, and no other type has it.
    The shape of the object is what its first reader gives for the type, and no later reader is
    asked. Calls about other types, or on their objects, do not change what a type yields. -/
theorem derived_once (calls : List DelegateCall) (type : TypeHandle) :
    let now := after {} calls
    let ref := (now.get type).1
    (∀ later other, ((now.after (.get type :: later)).get other).1 = ref ↔ other = type) ∧
    (∀ later, ((now.after (.get type :: later)).info? ref).map (·.type) = some type) ∧
    (now.tryGet type).1 = (if type ∈ DelegateCall.asked calls then some ref else none) ∧
    now.size = (DelegateCall.asked calls).toFinset.card ∧
    (type ∉ DelegateCall.asked calls → ∀ later,
      let state := now.after (.get type :: later)
      let first? := DelegateCall.firstReader? ref later
      state.shape? ref = first?.map (· type) ∧
      ∀ read, (state.invokeShape ref read).1 =
        some (first?.elim ⟨read type, some type⟩ fun first => ⟨first type, none⟩)) ∧
    ∀ later, (∀ call ∈ later, ¬ call.Concerns type (now.tryGet type).1) →
      (now.after later).yield? type = now.yield? type := by
  intro now ref
  have sound : now.IsSound := isSound_empty.after calls
  have found : ∀ later, (now.after (.get type :: later)).published.find? type = some ref :=
    fun later => find?_after (find?_get now type) later
  have looked : now.published.find? type = _ := find?_after_start calls type
  refine ⟨?_, ?_, ?_, size_after calls, ?_, fun later apart => sound.yield?_after apart⟩
  · intro later other
    exact (sound.after _).get_eq_iff (found later) other
  · intro later
    exact ((sound.after _).owned type ref).mp (found later)
  · rw [tryGet_fst, looked]
  · intro unasked later state first?
    rw [if_neg unasked] at looked
    have there : state.info? ref = some { type, shape := first?.map (· type) } := by
      have created := info?_after (info?_get_absent looked) later
      rwa [Option.none_or] at created
    refine ⟨?_, ?_⟩
    · rw [shape?, there]
      rfl
    · intro read
      rw [invokeShape_present there]
      cases first? <;> rfl

end Delegates

end Managed
