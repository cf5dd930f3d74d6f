import Mathlib.Algebra.Ring.Nat
import Mathlib.Data.List.TakeWhile
import Managed.Metadata.StringsHeap

namespace Managed

namespace Bytes

/-- What is cut off at the first zero byte goes on with that byte. -/
theorem takeWhile_zero {area : Bytes} (ended : area.contains 0 = true) :
    area.takeWhile (· ≠ 0) ++ [0] <+: area := by
  induction area with
  | nil => simp at ended
  | cons byte rest ih =>
    by_cases zero : byte = 0
    · simp [zero]
    · have later : rest.contains 0 = true := by simpa [Ne.symm zero] using ended
      simpa [zero] using ih later

theorem takeWhile_terminated {front : Bytes} (free : 0 ∉ front) (behind : Bytes) :
    (front ++ 0 :: behind).takeWhile (· ≠ 0) = front := by
  have kept : ∀ byte ∈ front, decide (byte ≠ 0) = true := by
    intro byte member
    exact decide_eq_true fun zero => free (zero ▸ member)
  rw [List.takeWhile_append_of_pos kept]
  simp

theorem zero_notMem_takeWhile (area : Bytes) : 0 ∉ area.takeWhile (· ≠ 0) := by
  intro zero
  have nonzero := List.mem_takeWhile_imp zero
  exact absurd nonzero (by decide)

end Bytes

namespace Text.Utf8

theorem toByteArray_encode (text : String) : (encode text).toByteArray = text.toByteArray :=
  congrArg String.toByteArray (String.ofList_toList (s := text))

theorem decode?_encode (text : String) : decode? (encode text) = some text := by
  rw [decode?, toByteArray_encode, String.fromUTF8?, dif_pos text.isValidUTF8]
  rfl

theorem decode?_eq_some (bytes : Bytes) (text : String) :
    decode? bytes = some text ↔ bytes = encode text := by
  constructor
  · intro decoded
    rw [decode?, String.fromUTF8?] at decoded
    split at decoded
    · have bytes_eq : text.toByteArray = bytes.toByteArray := by
        cases decoded
        rfl
      have arrays := (toByteArray_encode text).trans bytes_eq
      have lists := congrArg (fun array => array.data.toList) arrays
      simp only [List.toList_data_toByteArray] at lists
      exact lists.symm
    · cases decoded
  · intro same
    rw [same, decode?_encode]

theorem length_encode (text : String) : (encode text).length = text.utf8ByteSize := by
  rw [← List.size_toByteArray, toByteArray_encode, String.size_toByteArray]

theorem encode_append (front behind : String) :
    encode (front ++ behind) = encode front ++ encode behind := by
  rw [encode, String.toList_append, List.flatMap_append]
  rfl

/-- Only the character of number zero has a zero byte. -/
theorem zero_notMem_encodeChar (character : Char) (not_nul : character ≠ '\x00') :
    0 ∉ String.utf8EncodeChar character := by
  have positive : character.val.toNat ≠ 0 := by
    intro zero
    exact not_nul (Char.ext (UInt32.toNat_inj.mp zero))
  have different : ∀ number : Nat, number % 256 ≠ 0 → (0 : UInt8) ≠ UInt8.ofNat number := by
    intro number nonzero same
    have value := congrArg UInt8.toNat same
    rw [UInt8.toNat_ofNat'] at value
    exact nonzero value.symm
  unfold String.utf8EncodeChar
  generalize character.val.toNat = number at positive
  dsimp only
  split
  · simp only [List.mem_singleton]
    exact different _ (by omega)
  split
  · simp only [List.mem_cons, List.not_mem_nil, or_false, not_or]
    exact ⟨different _ (by omega), different _ (by omega)⟩
  split
  · simp only [List.mem_cons, List.not_mem_nil, or_false, not_or]
    exact ⟨different _ (by omega), different _ (by omega), different _ (by omega)⟩
  · simp only [List.mem_cons, List.not_mem_nil, or_false, not_or]
    exact ⟨different _ (by omega), different _ (by omega), different _ (by omega),
      different _ (by omega)⟩

theorem zero_notMem_encode (text : String) (nul_free : '\x00' ∉ text.toList) :
    0 ∉ encode text := by
  rw [encode, List.mem_flatMap]
  intro found
  obtain ⟨character, member, zero⟩ := found
  exact zero_notMem_encodeChar character (fun nul => nul_free (nul ▸ member)) zero

end Text.Utf8

namespace Metadata.StringsHeap

open Text

def Stands (data : Bytes) (index : Nat) (text : String) : Prop :=
  0 ∉ Utf8.encode text ∧ entry text <+: data.drop index

theorem Stands.index_lt {data : Bytes} {index : Nat} {text : String}
    (stands : Stands data index text) : index < data.length := by
  have room := stands.2.length_le
  rw [entry, List.length_append, List.length_singleton, List.length_drop] at room
  omega

theorem Stands.append {data : Bytes} {index : Nat} {text : String}
    (stands : Stands data index text) (more : Bytes) : Stands (data ++ more) index text := by
  refine ⟨stands.1, ?_⟩
  rw [List.drop_append_of_le_length (Nat.le_of_lt stands.index_lt)]
  exact stands.2.trans (List.prefix_append _ _)

/-- The end of a text stands behind its beginning, because no character is split. -/
theorem Stands.behind {data : Bytes} {index : Nat} {front behind : String}
    (stands : Stands data index (front ++ behind)) :
    Stands data (index + front.utf8ByteSize) behind := by
  obtain ⟨free, rest, there⟩ := stands
  rw [Utf8.encode_append, List.mem_append, not_or] at free
  refine ⟨free.2, rest, ?_⟩
  rw [entry, Utf8.encode_append, List.append_assoc, List.append_assoc] at there
  rw [← List.drop_drop, ← there, ← Utf8.length_encode, List.drop_left, entry, List.append_assoc]

theorem stands_entry {text : String} (nul_free : '\x00' ∉ text.toList) (data : Bytes) :
    Stands (data ++ entry text) data.length text := by
  refine ⟨Utf8.zero_notMem_encode text nul_free, [], ?_⟩
  rw [List.append_nil, List.drop_left]

theorem terminated?_eq_some (bytes front : Bytes) :
    terminated? bytes = some front ↔ 0 ∉ front ∧ front ++ [0] <+: bytes := by
  rw [terminated?]
  constructor
  · intro found
    split at found
    · rename_i ended
      cases found
      exact ⟨Bytes.zero_notMem_takeWhile bytes, Bytes.takeWhile_zero ended⟩
    · cases found
  · intro begins
    obtain ⟨free, behind, rfl⟩ := begins
    rw [List.append_assoc, List.singleton_append, Bytes.takeWhile_terminated free, if_pos]
    simp

theorem decoded_eq_some (bytes : Bytes) (text : String) :
    (terminated? bytes).bind Utf8.decode? = some text ↔
      0 ∉ Utf8.encode text ∧ entry text <+: bytes := by
  rw [Option.bind_eq_some_iff]
  constructor
  · intro found
    obtain ⟨front, ended, decoded⟩ := found
    obtain rfl := (Utf8.decode?_eq_some _ _).mp decoded
    exact (terminated?_eq_some _ _).mp ended
  · intro begins
    exact ⟨_, (terminated?_eq_some _ _).mpr begins, Utf8.decode?_encode text⟩

theorem get_eq_ok (heap : StringsHeap) (index : Nat) (text : String) :
    heap.get index = .ok text ↔ Stands heap.data index text := by
  rw [get]
  split
  · rename_i outside
    constructor
    · intro impossible
      cases impossible
    · intro stands
      exact absurd stands.index_lt (Nat.not_lt.mpr outside)
  rw [Stands, ← decoded_eq_some]
  split
  · rename_i found
    rw [found, Option.some.injEq, Except.ok.injEq]
  · rename_i unread
    rw [unread]
    exact iff_of_false nofun nofun

theorem get_entry {heap : StringsHeap} {index : Nat} {text : String}
    (nul_free : '\x00' ∉ text.toList) (there : entry text <+: heap.data.drop index) :
    heap.get index = .ok text :=
  (get_eq_ok _ _ _).mpr ⟨Utf8.zero_notMem_encode text nul_free, there⟩

theorem get_eq_outOfBounds (heap : StringsHeap) (index : Nat) :
    heap.get index = .error .outOfBounds ↔ heap.data.length ≤ index := by
  rw [get]
  split
  · rename_i outside
    exact iff_of_true rfl outside
  rename_i inside
  split
  · exact iff_of_false nofun inside
  · exact iff_of_false nofun inside

theorem fault_of_get {heap : StringsHeap} {index : Nat} {fault : Fault}
    (refused : heap.get index = .error fault) (inside : index < heap.data.length) :
    fault = .malformed (.heapString index) := by
  rw [get, if_neg (Nat.not_le.mpr inside)] at refused
  split at refused
  · cases refused
  · cases refused
    rfl

theorem ofBytes_eq_ok (data : Bytes) (heap : StringsHeap) :
    ofBytes data = .ok heap ↔ data.head? = some 0 ∧ heap = ⟨data⟩ := by
  rw [ofBytes]
  split
  · rename_i begins
    simp [begins, eq_comm]
  · rename_i begins
    simp [begins]

theorem ofBytes_append {data : Bytes} {heap : StringsHeap} (accepted : ofBytes data = .ok heap)
    (more : Bytes) : ofBytes (data ++ more) = .ok ⟨data ++ more⟩ := by
  obtain ⟨begins, -⟩ := (ofBytes_eq_ok _ _).mp accepted
  refine (ofBytes_eq_ok _ _).mpr ⟨?_, rfl⟩
  rw [List.head?_append, begins]
  rfl

/-- A read from a heap gives the text whose encoding goes on up to the next zero byte, wherever it
    begins, so that the ends of a text can be read as well. Only an index outside the heap is out of
    bounds. What is put behind a heap can be read there and takes nothing away. -/
theorem terminated_texts_read {data : Bytes} {heap : StringsHeap}
    (accepted : ofBytes data = .ok heap) :
    (∀ index text, heap.get index = .ok text ↔ index < data.length ∧ Stands data index text) ∧
    (∀ index, heap.get index = .error .outOfBounds ↔ data.length ≤ index) ∧
    (∀ index fault, heap.get index = .error fault →
      fault = .outOfBounds ∨ fault = .malformed (.heapString index)) ∧
    (∀ text, '\x00' ∉ text.toList →
      ∃ longer, ofBytes (data ++ entry text) = .ok longer ∧ longer.get data.length = .ok text) ∧
    (∀ index front behind, heap.get index = .ok (front ++ behind) →
      heap.get (index + front.utf8ByteSize) = .ok behind) ∧
    (∀ more index text, heap.get index = .ok text →
      ∃ longer, ofBytes (data ++ more) = .ok longer ∧ longer.get index = .ok text) := by
  obtain ⟨-, rfl⟩ := (ofBytes_eq_ok _ _).mp accepted
  refine ⟨?_, get_eq_outOfBounds _, ?_, ?_, ?_, ?_⟩
  · intro index text
    rw [get_eq_ok]
    exact ⟨fun stands => ⟨stands.index_lt, stands⟩, And.right⟩
  · intro index fault refused
    by_cases outside : data.length ≤ index
    · rw [(get_eq_outOfBounds _ _).mpr outside] at refused
      cases refused
      exact .inl rfl
    · exact .inr (fault_of_get refused (Nat.not_le.mp outside))
  · intro text nul_free
    exact ⟨_, ofBytes_append accepted _, (get_eq_ok _ _ _).mpr (stands_entry nul_free data)⟩
  · intro index front behind found
    exact (get_eq_ok _ _ _).mpr ((get_eq_ok _ _ _).mp found).behind
  · intro more index text found
    have stands := ((get_eq_ok _ _ _).mp found).append more
    exact ⟨_, ofBytes_append accepted more, (get_eq_ok _ _ _).mpr stands⟩

theorem text_within_text_read :
    let data : Bytes := [0, 0x61, 0xC3, 0xA9, 0x62, 0, 0xFF]
    ofBytes data = .ok ⟨data⟩ ∧ get ⟨data⟩ 1 = .ok ("a\u00E9" ++ "b") ∧ get ⟨data⟩ 4 = .ok "b" ∧
      get ⟨data⟩ 3 = .error (.malformed (.heapString 3)) := by
  intro data
  have reads := terminated_texts_read (rfl : ofBytes data = .ok ⟨data⟩)
  have found : get ⟨data⟩ 1 = .ok ("a\u00E9" ++ "b") :=
    (reads.1 _ _).mpr ⟨by decide, by decide, by decide⟩
  refine ⟨rfl, found, reads.2.2.2.2.1 1 _ _ found, ?_⟩
  decide

end Metadata.StringsHeap

end Managed
