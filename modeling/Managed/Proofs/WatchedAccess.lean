import Managed.Proofs.Reading

namespace Managed

/-- An answer, unless an access out of range was made on the way to it. -/
abbrev Watched := ExceptT Fault Option

namespace Watched

variable {α β : Type}

def outOfRange : Watched α := (none : Option (Except Fault α))

def answered (result : Except Fault α) : Watched α := (some result : Option (Except Fault α))

def range (bytes : Bytes) (first last : Nat) : Watched Bytes :=
  if first ≤ last ∧ last ≤ bytes.length then
    return (bytes.drop first).take (last - first)
  else outOfRange

def after (bytes : Bytes) (first : Nat) : Watched Bytes := range bytes first bytes.length

def byteAt (bytes : Bytes) (index : Nat) : Watched UInt8 :=
  match bytes[index]? with
  | some byte => return byte
  | none => outOfRange

def minus (left right : Nat) : Watched Nat :=
  if right ≤ left then return left - right else outOfRange

def slot [DecidableEq α] (items : List α) (item : α) : Watched Unit :=
  if items.idxOf item < items.length then return () else outOfRange

theorem range_eq {bytes : Bytes} {first last : Nat} (ordered : first ≤ last)
    (inside : last ≤ bytes.length) :
    range bytes first last = pure ((bytes.drop first).take (last - first)) :=
  if_pos ⟨ordered, inside⟩

theorem after_eq {bytes : Bytes} {first : Nat} (inside : first ≤ bytes.length) :
    after bytes first = pure (bytes.drop first) := by
  have whole : (bytes.drop first).length ≤ bytes.length - first :=
    Nat.le_of_eq List.length_drop
  rw [after, range_eq inside (Nat.le_refl _), List.take_of_length_le whole]

theorem byteAt_eq {bytes : Bytes} {index : Nat} {byte : UInt8} (there : bytes[index]? = some byte) :
    byteAt bytes index = pure byte := by
  rw [byteAt, there]

theorem minus_eq {left right : Nat} (ordered : right ≤ left) :
    minus left right = pure (left - right) := if_pos ordered

theorem slot_eq [DecidableEq α] {items : List α} {item : α} (listed : item ∈ items) :
    slot items item = pure () := if_pos (List.idxOf_lt_length_of_mem listed)

theorem forM_eq_pure {visit : α → Watched Unit} (harmless : ∀ item, visit item = pure ())
    (items : List α) : forM items visit = pure () := by
  induction items with
  | nil => rfl
  | cons first rest ih =>
    rw [List.forM_cons, harmless, pure_bind]
    exact ih

theorem answered_bind (result : Except Fault α) (next : α → Except Fault β) :
    answered (result >>= next) = answered result >>= fun value => answered (next value) := by
  cases result <;> rfl

theorem answered_pure (value : α) : answered (pure value) = pure value := rfl

theorem answered_ok (value : α) : answered (.ok value) = pure value := rfl

end Watched

abbrev WatchedReader := StateT Cursor Watched

namespace WatchedReader

open Watched

variable {α β : Type}

def ofReader (reader : Reader α) : WatchedReader α := fun cursor =>
  answered (match reader cursor with
    | .ok value next => .ok (value, next)
    | .error fault _ => .error fault)

def run (reader : WatchedReader α) (data : Bytes) : Watched α :=
  (·.1) <$> reader (Cursor.ofBytes data)

def bytes (length : Nat) : WatchedReader Bytes := fun cursor => do
  let next := cursor.position + length
  if next ≤ cursor.data.length then
    let taken ← range cursor.data cursor.position next
    return (taken, { cursor with position := next })
  else throw .outOfBounds

def number (width : Nat) : WatchedReader Nat := do
  return Bytes.littleEndian (← bytes width)

def skip (length : Nat) : WatchedReader Unit := do
  let _ ← bytes length

theorem ofReader_bind (reader : Reader α) (next : α → Reader β) :
    ofReader (reader >>= next) = ofReader reader >>= fun value => ofReader (next value) := by
  funext cursor
  simp only [ofReader, bind, EStateM.bind, StateT.bind]
  cases reader cursor <;> rfl

theorem ofReader_pure (value : α) : ofReader (pure value) = pure value := rfl

theorem ofReader_malformed (defect : Defect) :
    ofReader (Reader.malformed defect : Reader α) = throw (.malformed defect) := rfl

theorem run_ofReader (reader : Reader α) (data : Bytes) :
    run (ofReader reader) data = answered (Reader.run? reader data) := by
  unfold run ofReader Reader.run?
  cases reader (Cursor.ofBytes data) <;> rfl

theorem ofReader_bytes (length : Nat) : ofReader (Reader.bytes length) = bytes length := by
  funext cursor
  simp only [ofReader, Reader.bytes_eq, bytes]
  by_cases fits : cursor.position + length ≤ cursor.data.length
  · rw [if_pos fits, if_pos fits, range_eq (Nat.le_add_right _ _) fits, Nat.add_sub_cancel_left]
    rfl
  · rw [if_neg fits, if_neg fits]
    rfl

theorem ofReader_number (width : Nat) : ofReader (Reader.number width) = number width := by
  simp only [Reader.number, number, ofReader_bind, ofReader_bytes, ofReader_pure]

theorem ofReader_byte : ofReader Reader.byte = number 1 := ofReader_number 1

theorem ofReader_ite (test : Prop) [Decidable test] (first second : Reader α) :
    ofReader (if test then first else second) =
      if test then ofReader first else ofReader second := by
  split <;> rfl

/-- From any place within the data a watched reader does what a reader does, and both stay
    within the data. -/
def Follows (watched : WatchedReader α) (reader : Reader α) : Prop :=
  ∀ cursor, cursor.position ≤ cursor.data.length →
    watched cursor = ofReader reader cursor ∧
      ∀ value next, reader cursor = .ok value next → next.position ≤ next.data.length

namespace Follows

theorem pure (value : α) : Follows (pure value) (Pure.pure value) := by
  intro cursor inside
  refine ⟨rfl, ?_⟩
  intro result next taken
  cases taken
  exact inside

theorem fail (fault : Fault) :
    Follows (throw fault : WatchedReader α) (throw fault : Reader α) := by
  intro cursor inside
  refine ⟨rfl, ?_⟩
  intro result next taken
  cases taken

/-- What is done may depend on where it is done. -/
theorem of_steps {watched : WatchedReader α} {reader : Reader α}
    (steps : ∀ cursor, cursor.position ≤ cursor.data.length →
      ∃ watched_step reader_step, Follows watched_step reader_step ∧
        watched cursor = watched_step cursor ∧ reader cursor = reader_step cursor) :
    Follows watched reader := by
  intro cursor inside
  obtain ⟨watched_step, reader_step, follows, watched_eq, reader_eq⟩ := steps cursor inside
  rw [watched_eq, reader_eq, ofReader, reader_eq]
  exact follows cursor inside

theorem refuse (defect : Defect) (watched : α → WatchedReader β) (reader : α → Reader β) :
    Follows (throw (.malformed defect) >>= watched) (Reader.malformed defect >>= reader) := by
  intro cursor inside
  refine ⟨rfl, ?_⟩
  intro result next taken
  cases taken

theorem bytes (length : Nat) : Follows (bytes length) (Reader.bytes length) := by
  intro cursor inside
  refine ⟨congrFun (ofReader_bytes length).symm cursor, ?_⟩
  intro result next taken
  rw [Reader.bytes_eq] at taken
  split at taken
  · rename_i fits
    cases taken
    exact fits
  · cases taken

theorem bind {watched : WatchedReader α} {reader : Reader α} {watched_next : α → WatchedReader β}
    {reader_next : α → Reader β} (first : Follows watched reader)
    (second : ∀ value, Follows (watched_next value) (reader_next value)) :
    Follows (watched >>= watched_next) (reader >>= reader_next) := by
  intro cursor inside
  obtain ⟨same, stays⟩ := first cursor inside
  cases taken : reader cursor with
  | error fault next =>
    have watched_taken : watched cursor = answered (.error fault) := by
      rw [same, ofReader, taken]
    constructor
    · simp only [ofReader, Bind.bind, StateT.bind, EStateM.bind, watched_taken, taken]
      rfl
    · intro result final accepted
      obtain ⟨_, _, read, -⟩ := (Reader.bind_eq_ok _ _ _ _ _).mp accepted
      rw [taken] at read
      cases read
  | ok value next =>
    have watched_taken : watched cursor = answered (.ok (value, next)) := by
      rw [same, ofReader, taken]
    obtain ⟨next_same, next_stays⟩ := second value next (stays value next taken)
    constructor
    · simp only [ofReader, Bind.bind, StateT.bind, EStateM.bind, watched_taken, taken]
      exact next_same
    · intro result final accepted
      obtain ⟨_, _, read, rest⟩ := (Reader.bind_eq_ok _ _ _ _ _).mp accepted
      rw [taken] at read
      cases read
      exact next_stays result final rest

theorem number (width : Nat) : Follows (number width) (Reader.number width) :=
  bind (bytes width) fun _ => pure _

theorem skip (length : Nat) : Follows (skip length) (Reader.skip length) :=
  bind (bytes length) fun _ => pure _

theorem run {watched : WatchedReader α} {reader : Reader α} (follows : Follows watched reader)
    (data : Bytes) : watched.run data = answered (Reader.run? reader data) := by
  rw [← run_ofReader]
  exact congrArg ((·.1) <$> ·) (follows (Cursor.ofBytes data) (Nat.zero_le _)).1

end Follows

end WatchedReader

end Managed
