import Managed.Cursor

namespace Managed

namespace Cursor

def rest (cursor : Cursor) : Bytes := cursor.data.drop cursor.position

def forward (cursor : Cursor) (length : Nat) : Cursor :=
  { cursor with position := cursor.position + length }

@[simp] theorem rest_ofBytes (data : Bytes) : (ofBytes data).rest = data := rfl

@[simp] theorem rest_forward (cursor : Cursor) (length : Nat) :
    (cursor.forward length).rest = cursor.rest.drop length := by
  simp only [rest, forward, List.drop_drop]

@[simp] theorem forward_forward (cursor : Cursor) (first second : Nat) :
    (cursor.forward first).forward second = cursor.forward (first + second) := by
  simp only [forward, Nat.add_assoc]

theorem rest_forward_one {cursor : Cursor} {byte : UInt8} {behind : Bytes}
    (ahead : cursor.rest = byte :: behind) : (cursor.forward 1).rest = behind := by
  rw [rest_forward, ahead, List.drop_one, List.tail_cons]

theorem rest_forward_cons (cursor : Cursor) (byte : UInt8) (taken behind : Bytes)
    (ahead : cursor.rest = byte :: (taken ++ behind)) :
    ((cursor.forward 1).forward taken.length).rest = behind := by
  rw [rest_forward, rest_forward_one ahead, List.drop_left]

structure Faces (cursor : Cursor) (ahead : Bytes) : Prop where
  inside : cursor.position ≤ cursor.data.length
  rest_eq : cursor.rest = ahead

theorem faces_ofBytes (data : Bytes) : (ofBytes data).Faces data := ⟨Nat.zero_le _, rfl⟩

theorem faces_drop {data before ahead : Bytes} {position : Nat} (data_eq : data = before ++ ahead)
    (length : before.length = position) : Faces ⟨data, position⟩ ahead := by
  subst data_eq length
  exact ⟨by simp, List.drop_left⟩

theorem Faces.room {cursor : Cursor} {taken behind : Bytes}
    (faces : cursor.Faces (taken ++ behind)) :
    cursor.position + taken.length ≤ cursor.data.length := by
  have size := congrArg List.length faces.rest_eq
  have inside := faces.inside
  rw [rest, List.length_drop, List.length_append] at size
  omega

theorem Faces.slice? {cursor : Cursor} {taken behind : Bytes}
    (faces : cursor.Faces (taken ++ behind)) :
    cursor.data.slice? cursor.position taken.length = some taken := by
  have ahead : cursor.data.drop cursor.position = taken ++ behind := faces.rest_eq
  rw [Bytes.slice?_eq, if_pos faces.room, ahead, List.take_left]

theorem Faces.number? {cursor : Cursor} {taken behind : Bytes}
    (faces : cursor.Faces (taken ++ behind)) :
    cursor.data.number? cursor.position taken.length = some (Bytes.littleEndian taken) := by
  rw [Bytes.number?, faces.slice?, Option.map_some]

theorem Faces.forward {cursor : Cursor} {taken behind : Bytes}
    (faces : cursor.Faces (taken ++ behind)) : (cursor.forward taken.length).Faces behind := by
  constructor
  · exact faces.room
  · rw [rest_forward, faces.rest_eq, List.drop_left]

theorem hasMore_eq (cursor : Cursor) : cursor.hasMore = !cursor.rest.isEmpty := by
  rw [Bool.eq_iff_iff]
  simp only [hasMore, rest, decide_eq_true_eq, Bool.not_eq_true', List.isEmpty_eq_false_iff,
    ne_eq, List.drop_eq_nil_iff]
  omega

end Cursor

namespace Reader

variable {α β : Type}

theorem get_bind (next : Cursor → Reader β) (cursor : Cursor) :
    (get >>= next) cursor = next cursor cursor := rfl

theorem bind_eq_ok (reader : Reader α) (next : α → Reader β) (cursor final : Cursor)
    (result : β) :
    (reader >>= next) cursor = .ok result final ↔
      ∃ value middle, reader cursor = .ok value middle ∧ next value middle = .ok result final := by
  cases taken : reader cursor with
  | ok value middle =>
    simp only [bind, EStateM.bind, taken, EStateM.Result.ok.injEq]
    constructor
    · intro accepted
      exact ⟨value, middle, ⟨rfl, rfl⟩, accepted⟩
    · intro accepted
      obtain ⟨_, _, ⟨rfl, rfl⟩, accepted⟩ := accepted
      exact accepted
  | error fault middle => simp [bind, EStateM.bind, taken]

theorem pure_eq_ok (value result : α) (cursor final : Cursor) :
    (pure value : Reader α) cursor = .ok result final ↔ value = result ∧ cursor = final := by
  simp [pure, EStateM.pure]

theorem malformed_ne_ok (defect : Defect) (cursor final : Cursor) (result : α) :
    (malformed defect : Reader α) cursor ≠ .ok result final := by
  intro accepted
  cases accepted

theorem bind_of_ok {reader : Reader α} {cursor middle : Cursor} {value : α}
    (taken : reader cursor = .ok value middle) (next : α → Reader β) :
    (reader >>= next) cursor = next value middle := by
  simp only [bind, EStateM.bind, taken]

theorem bind_eq_error (reader : Reader α) (next : α → Reader β) (cursor final : Cursor)
    (fault : Fault) :
    (reader >>= next) cursor = .error fault final ↔
      reader cursor = .error fault final ∨
        ∃ value middle, reader cursor = .ok value middle ∧
          next value middle = .error fault final := by
  cases taken : reader cursor with
  | ok value middle =>
    simp only [bind, EStateM.bind, taken]
    constructor
    · intro refused
      exact .inr ⟨value, middle, rfl, refused⟩
    · rintro (impossible | ⟨_, _, ⟨rfl, rfl⟩, refused⟩)
      · cases impossible
      · exact refused
  | error other middle => simp [bind, EStateM.bind, taken]

theorem pure_ne_error (value : α) (cursor final : Cursor) (fault : Fault) :
    (pure value : Reader α) cursor ≠ .error fault final := by
  intro refused
  cases refused

theorem malformed_eq_error (defect : Defect) (cursor final : Cursor) (fault : Fault) :
    (malformed defect : Reader α) cursor = .error fault final ↔
      fault = .malformed defect ∧ final = cursor := by
  constructor
  · intro refused
    cases refused
    exact ⟨rfl, rfl⟩
  · rintro ⟨rfl, rfl⟩
    rfl

theorem map_eq_ok (change : α → β) (reader : Reader α) (cursor final : Cursor) (result : β) :
    (change <$> reader) cursor = .ok result final ↔
      ∃ value, reader cursor = .ok value final ∧ change value = result := by
  rw [map_eq_pure_bind, bind_eq_ok]
  constructor
  · rintro ⟨value, middle, taken, done⟩
    obtain ⟨same, rfl⟩ := (pure_eq_ok _ _ _ _).mp done
    exact ⟨value, taken, same⟩
  · rintro ⟨value, taken, same⟩
    exact ⟨value, final, taken, (pure_eq_ok _ _ _ _).mpr ⟨same, rfl⟩⟩

theorem map_eq_error (change : α → β) (reader : Reader α) (cursor final : Cursor) (fault : Fault) :
    (change <$> reader) cursor = .error fault final ↔ reader cursor = .error fault final := by
  rw [map_eq_pure_bind, bind_eq_error]
  constructor
  · rintro (refused | ⟨value, middle, -, impossible⟩)
    · exact refused
    · exact absurd impossible (pure_ne_error _ _ _ _)
  · exact .inl

def final : EStateM.Result Fault Cursor α → Cursor
  | .ok _ cursor => cursor
  | .error _ cursor => cursor

theorem bytes_eq (length : Nat) (cursor : Cursor) :
    bytes length cursor =
      if cursor.position + length ≤ cursor.data.length then
        .ok (cursor.rest.take length) (cursor.forward length)
      else .error .outOfBounds cursor := by
  simp only [bytes, Bytes.slice?_eq]
  by_cases fits : cursor.position + length ≤ cursor.data.length
  · rw [if_pos fits, if_pos fits]
    rfl
  · rw [if_neg fits, if_neg fits]

theorem bytes_ahead {cursor : Cursor} {taken behind : Bytes}
    (faces : cursor.Faces (taken ++ behind)) :
    bytes taken.length cursor = .ok taken (cursor.forward taken.length) := by
  simp only [bytes, faces.slice?, Cursor.forward]

theorem bytes_eq_error {length : Nat} {cursor final : Cursor} {fault : Fault}
    (refused : bytes length cursor = .error fault final) : fault = .outOfBounds := by
  rw [bytes_eq] at refused
  split at refused
  · cases refused
  · cases refused
    rfl

theorem number_eq (width : Nat) (cursor : Cursor) :
    number width cursor =
      if cursor.position + width ≤ cursor.data.length then
        .ok (Bytes.littleEndian (cursor.rest.take width)) (cursor.forward width)
      else .error .outOfBounds cursor := by
  by_cases fits : cursor.position + width ≤ cursor.data.length
  · simp [number, bind, EStateM.bind, pure, EStateM.pure, bytes_eq, fits]
  · simp [number, bind, EStateM.bind, bytes_eq, fits]

theorem number_eq_ok (width : Nat) (cursor final : Cursor) (value : Nat) :
    number width cursor = .ok value final ↔
      cursor.position + width ≤ cursor.data.length ∧
        Bytes.littleEndian (cursor.rest.take width) = value ∧ cursor.forward width = final := by
  rw [number_eq]
  by_cases fits : cursor.position + width ≤ cursor.data.length <;> simp [fits]

theorem number_ahead {cursor : Cursor} {taken behind : Bytes}
    (faces : cursor.Faces (taken ++ behind)) :
    number taken.length cursor =
      .ok (Bytes.littleEndian taken) (cursor.forward taken.length) := by
  simp only [number, bind, EStateM.bind, pure, EStateM.pure, bytes_ahead faces]

theorem byte_eq (cursor : Cursor) :
    byte cursor =
      match cursor.rest with
      | [] => .error .outOfBounds cursor
      | low :: _ => .ok low.toNat (cursor.forward 1) := by
  rw [byte, number_eq]
  cases ahead : cursor.rest with
  | nil =>
    have ended : cursor.data.length ≤ cursor.position := List.drop_eq_nil_iff.mp ahead
    exact if_neg (by omega)
  | cons low behind =>
    have inside : cursor.position + 1 ≤ cursor.data.length := by
      have length := congrArg List.length ahead
      simp only [Cursor.rest, List.length_drop, List.length_cons] at length
      omega
    rw [if_pos inside]
    rfl

theorem byte_eq_ok (cursor final : Cursor) (number : Nat) :
    byte cursor = .ok number final ↔
      ∃ low behind, cursor.rest = low :: behind ∧ low.toNat = number ∧
        final = cursor.forward 1 := by
  rw [byte_eq]
  cases cursor.rest with
  | nil => simp
  | cons low behind => simp [eq_comm]

theorem byte_eq_error (cursor final : Cursor) (fault : Fault) :
    byte cursor = .error fault final ↔
      cursor.rest = [] ∧ fault = .outOfBounds ∧ final = cursor := by
  rw [byte_eq]
  cases cursor.rest with
  | nil => simp [eq_comm]
  | cons low behind => simp

theorem byte_bind_cons {cursor : Cursor} {low : UInt8} {behind : Bytes}
    (ahead : cursor.rest = low :: behind) (next : Nat → Reader β) :
    (byte >>= next) cursor = next low.toNat (cursor.forward 1) :=
  bind_of_ok ((byte_eq_ok _ _ _).mpr ⟨low, behind, ahead, rfl, rfl⟩) next

theorem byte_bind_nil {cursor : Cursor} (ended : cursor.rest = []) (next : Nat → Reader β) :
    (byte >>= next) cursor = .error .outOfBounds cursor :=
  (bind_eq_error _ _ _ _ _).mpr (.inl ((byte_eq_error _ _ _).mpr ⟨ended, rfl, rfl⟩))

theorem atEnd_eq (cursor : Cursor) : atEnd cursor = .ok cursor.rest.isEmpty cursor := by
  have answer : atEnd cursor = .ok (!cursor.hasMore) cursor := rfl
  rw [answer, Cursor.hasMore_eq, Bool.not_not]

theorem run?_eq_ok (reader : Reader α) (data : Bytes) (result : α) :
    run? reader data = .ok result ↔
      ∃ final, reader (Cursor.ofBytes data) = .ok result final := by
  unfold run?
  cases reader (Cursor.ofBytes data) with
  | ok value final => simp
  | error fault final => simp

theorem run?_eq_error (reader : Reader α) (data : Bytes) (fault : Fault) :
    run? reader data = .error fault ↔
      ∃ final, reader (Cursor.ofBytes data) = .error fault final := by
  unfold run?
  cases reader (Cursor.ofBytes data) with
  | ok value final => simp
  | error other final => simp

theorem remaining_eq (cursor : Cursor) : remaining cursor = .ok cursor.rest.length cursor := by
  rw [Cursor.rest, List.length_drop]
  rfl

end Reader

end Managed
