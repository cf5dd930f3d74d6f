import Managed.Proofs.LocalReading
import Managed.Proofs.WatchedLoading

namespace Managed

namespace WatchedReader

def seek (position : Nat) : WatchedReader Unit := fun cursor =>
  if position ≤ cursor.data.length then return ((), { cursor with position := position })
  else throw .outOfBounds

def readGroups : (groups : Nat) → (first : Bool) → WatchedReader Nat
  | 0, _ => throw (.malformed .sevenBitTooLong)
  | groups + 1, first => do
    let byte ← number 1
    if groups = 0 ∧ byte % 0x80 ≥ 0x10 then
      throw (.malformed .sevenBitCapacity)
    else if byte ≥ 0x80 then
      let rest ← readGroups groups false
      return byte % 0x80 + 0x80 * rest
    else if byte = 0 ∧ first = false then
      throw (.malformed .sevenBitNotMinimal)
    else
      return byte

def readSevenBit : WatchedReader UInt32 := do
  return UInt32.ofNat (← readGroups 5 true)

theorem ofReader_seek (position : Nat) : ofReader (Reader.seek position) = seek position := by
  funext cursor
  simp only [ofReader, Reader.seek, seek]
  by_cases there : position ≤ cursor.data.length
  · rw [if_pos there, if_pos there]
    rfl
  · rw [if_neg there, if_neg there]
    rfl

theorem ofReader_skip (length : Nat) : ofReader (Reader.skip length) = skip length := by
  simp only [Reader.skip, skip, ofReader_bind, ofReader_bytes, ofReader_pure]

theorem ofReader_readGroups (groups : Nat) (first : Bool) :
    ofReader (Integer.SevenBit.readGroups groups first) = readGroups groups first := by
  induction groups generalizing first with
  | zero => rfl
  | succ groups ih =>
    simp only [Integer.SevenBit.readGroups, readGroups, ofReader_bind, ofReader_byte,
      ofReader_ite, ofReader_malformed, ofReader_pure, ih]

theorem ofReader_readSevenBit : ofReader Integer.SevenBit.read = readSevenBit := by
  simp only [Integer.SevenBit.read, readSevenBit, ofReader_bind, ofReader_readGroups,
    ofReader_pure]

theorem ofReader_ne_outOfRange {α : Type} (reader : Reader α) (cursor : Cursor) :
    ofReader reader cursor ≠ Watched.outOfRange := by
  intro same
  cases same

end WatchedReader

namespace Reader

variable {α : Type}

inductive Operation : Type → Type where
  | number (width : Nat) : Operation Nat
  | compressed : Operation Nat
  | sevenBit : Operation UInt32
  | bytes (length : Nat) : Operation Bytes
  | skip (length : Nat) : Operation Unit
  | seek (position : Nat) : Operation Unit

namespace Operation

def perform : {α : Type} → Operation α → Reader α
  | _, number width => Reader.number width
  | _, compressed => Integer.Compressed.read
  | _, sevenBit => Integer.SevenBit.read
  | _, bytes length => Reader.bytes length
  | _, skip length => Reader.skip length
  | _, seek position => Reader.seek position

def watched : {α : Type} → Operation α → WatchedReader α
  | _, number width => WatchedReader.number width
  | _, compressed => Watched.readCompressed
  | _, sevenBit => WatchedReader.readSevenBit
  | _, bytes length => WatchedReader.bytes length
  | _, skip length => WatchedReader.skip length
  | _, seek position => WatchedReader.seek position

def hasVariableLength : {α : Type} → Operation α → Bool
  | _, compressed | _, sevenBit => true
  | _, _ => false

def isSeek : {α : Type} → Operation α → Bool
  | _, seek _ => true
  | _, _ => false

def course (cursor : Cursor) : List ((α : Type) × Operation α) → Cursor
  | [] => cursor
  | ⟨_, operation⟩ :: later => course (final (operation.perform cursor)) later

theorem watched_eq (operation : Operation α) :
    operation.watched = WatchedReader.ofReader operation.perform := by
  cases operation with
  | number width => exact (WatchedReader.ofReader_number width).symm
  | compressed => exact Watched.ofReader_readCompressed.symm
  | sevenBit => exact WatchedReader.ofReader_readSevenBit.symm
  | bytes length => exact (WatchedReader.ofReader_bytes length).symm
  | skip length => exact (WatchedReader.ofReader_skip length).symm
  | seek position => exact (WatchedReader.ofReader_seek position).symm

/-- Every operation but a seek is of one of two kinds. -/
theorem whole_or_bytewise (operation : Operation α) (forward : operation.isSeek = false) :
    operation.hasVariableLength = false ∧ Whole operation.perform ∨
      operation.hasVariableLength = true ∧ Bytewise operation.perform := by
  cases operation with
  | number width => exact .inl ⟨rfl, whole_number width⟩
  | compressed => exact .inr ⟨rfl, Integer.Compressed.bytewise_read⟩
  | sevenBit => exact .inr ⟨rfl, Integer.SevenBit.bytewise_read⟩
  | bytes length => exact .inl ⟨rfl, whole_bytes length⟩
  | skip length => exact .inl ⟨rfl, whole_skip length⟩
  | seek position => cases forward

theorem isLocal (operation : Operation α) (forward : operation.isSeek = false) :
    Local operation.perform :=
  (operation.whole_or_bytewise forward).elim (·.2.isLocal) (·.2.isLocal)

theorem bytewise (operation : Operation α) (variable_length : operation.hasVariableLength = true) :
    Bytewise operation.perform := by
  cases operation with
  | compressed => exact Integer.Compressed.bytewise_read
  | sevenBit => exact Integer.SevenBit.bytewise_read
  | _ => cases variable_length

end Operation

structure Operation.Lawful (operation : Operation α) (cursor : Cursor) : Prop where
  answers : operation.watched cursor = WatchedReader.ofReader operation.perform cursor
  guarded : operation.watched cursor ≠ Watched.outOfRange
  data_kept : (final (operation.perform cursor)).data = cursor.data
  within : (final (operation.perform cursor)).position ≤ cursor.data.length
  forward : operation.isSeek = false →
    cursor.position ≤ (final (operation.perform cursor)).position
  unmoved : operation.hasVariableLength = false → ∀ fault next,
    operation.perform cursor = .error fault next → next = cursor
  examined : operation.hasVariableLength = true → ∀ fault next,
    operation.perform cursor = .error fault next →
    ∃ taken behind, cursor.rest = taken ++ behind ∧ next = cursor.forward taken.length ∧
      (∀ begun, begun <+: taken → begun ≠ taken → Cut operation.perform begun) ∧
      (fault = .outOfBounds ∧ behind = [] ∧ Cut operation.perform taken ∨
        ∃ defect, fault = .malformed defect ∧ Settles operation.perform taken (.error defect))
  placed_eq : operation.isSeek = false →
    operation.perform cursor = placed cursor
      (operation.perform (Cursor.ofBytes (cursor.data.drop cursor.position)))
  extended : ∀ value next behind, operation.perform cursor = .ok value next →
    operation.perform { cursor with data := cursor.data ++ behind } =
      .ok value { next with data := next.data ++ behind }

theorem Operation.lawful_seek (position : Nat) {cursor : Cursor}
    (inside : cursor.position ≤ cursor.data.length) : (seek position).Lawful cursor := by
  constructor
  case answers => exact congrFun (watched_eq _) cursor
  case guarded =>
    rw [watched_eq]
    exact WatchedReader.ofReader_ne_outOfRange _ _
  case forward | examined | placed_eq => nofun
  case data_kept =>
    simp only [perform, Reader.seek]
    split <;> rfl
  case within =>
    simp only [perform, Reader.seek]
    split <;> assumption
  case unmoved =>
    intro _ fault next refused
    simp only [perform, Reader.seek] at refused
    split at refused <;> cases refused
    rfl
  case extended =>
    intro value next behind taken
    simp only [perform, Reader.seek] at taken ⊢
    split at taken <;> cases taken
    rename_i there
    rw [if_pos]
    rw [List.length_append]
    exact Nat.le_add_right_of_le there

theorem Operation.lawful (operation : Operation α) {cursor : Cursor}
    (inside : cursor.position ≤ cursor.data.length) : operation.Lawful cursor := by
  by_cases seeks : operation.isSeek = true
  · cases operation with
    | seek position => exact lawful_seek position inside
    | _ => cases seeks
  have forward : operation.isSeek = false := Bool.eq_false_iff.mpr seeks
  have reads := operation.isLocal forward
  obtain ⟨advance, room, final_eq⟩ := reads.forward cursor inside
  constructor
  case answers => exact congrFun (watched_eq _) cursor
  case guarded =>
    rw [watched_eq]
    exact WatchedReader.ofReader_ne_outOfRange _ _
  case data_kept =>
    rw [final_eq]
    rfl
  case within =>
    rw [final_eq]
    exact (room_iff inside advance).mpr room
  case forward =>
    intro _
    rw [final_eq]
    exact Nat.le_add_right _ _
  case unmoved =>
    intro fixed fault next refused
    rcases operation.whole_or_bytewise forward with ⟨-, whole⟩ | ⟨unfixed, -⟩
    · exact whole.kept inside refused
    · rw [fixed] at unfixed
      cases unfixed
  case examined =>
    intro unfixed fault next refused
    exact (operation.bytewise unfixed).examined inside refused
  case placed_eq => exact fun _ => reads.placed_eq cursor inside
  case extended => exact fun value next behind => reads.extended cursor value next behind inside

theorem Operation.course_inside {cursor : Cursor} (inside : cursor.position ≤ cursor.data.length)
    (operations : List ((α : Type) × Operation α)) :
    (course cursor operations).data = cursor.data ∧
      (course cursor operations).position ≤ cursor.data.length := by
  induction operations generalizing cursor with
  | nil => exact ⟨rfl, inside⟩
  | cons operation later ih =>
    obtain ⟨α, operation⟩ := operation
    have lawful := operation.lawful inside
    have step := lawful.within
    rw [← lawful.data_kept] at step ⊢
    exact ih step

/-- Whatever has been asked of a cursor, it is within the data, and whatever is asked next looks at
    no byte that is not there. Only a seek moves back or depends on the bytes before the cursor. -/
theorem operations_local (data : Bytes) (operations : List ((α : Type) × Operation α)) :
    let cursor := Operation.course (Cursor.ofBytes data) operations
    cursor.data = data ∧ cursor.position ≤ data.length ∧
      cursor.remaining = data.length - cursor.position ∧
      (cursor.hasMore = true ↔ 0 < cursor.remaining) ∧
      ∀ (α : Type) (operation : Operation α), operation.Lawful cursor := by
  intro cursor
  obtain ⟨same, inside⟩ :=
    Operation.course_inside (Cursor.faces_ofBytes data).inside operations
  have data_eq : cursor.data = data := same
  have within : cursor.position ≤ cursor.data.length := by
    rw [data_eq]
    exact inside
  refine ⟨data_eq, inside, ?_, ?_, fun _ operation => operation.lawful within⟩
  · rw [Cursor.remaining, data_eq]
  · rw [Cursor.hasMore, Cursor.remaining, decide_eq_true_eq]
    omega

end Reader

end Managed
