import Mathlib.Data.Nat.Bitwise
import Managed.Proofs.FieldEncoding
import Managed.Proofs.SevenBitFaults

namespace Managed

namespace Integer.SevenBit

theorem length_encode_le_iff (groups : Nat) (value : UInt32) :
    (encode value).length ≤ groups + 1 ↔ value.toNat < 0x80 ^ (groups + 1) :=
  length_encodeNat_le_iff groups value.toNat

/-- The ranges of values are cut where one more byte is needed. -/
theorem size_eq_length (value : UInt32) : size value = (encode value).length := by
  have positive := length_encode_pos value
  have bound := length_encode_le value
  have one : (encode value).length ≤ 1 ↔ value.toNat < 0x80 := length_encode_le_iff 0 value
  have two : (encode value).length ≤ 2 ↔ value.toNat < 0x4000 := length_encode_le_iff 1 value
  have three : (encode value).length ≤ 3 ↔ value.toNat < 0x200000 := length_encode_le_iff 2 value
  have four : (encode value).length ≤ 4 ↔ value.toNat < 0x10000000 := length_encode_le_iff 3 value
  simp only [size, UInt32.le_iff_toNat_le, UInt32.reduceToNat]
  split
  · omega
  split
  · omega
  split
  · omega
  split <;> omega

theorem top_bit_clear_iff (byte : UInt8) : byte &&& 0x80 = 0 ↔ byte.toNat < 0x80 := by
  have bound := byte.toNat_lt
  have top_bit : (byte &&& 0x80).toNat = (byte.toNat.testBit 7).toNat * 0x80 :=
    Nat.and_two_pow byte.toNat 7
  rw [← UInt8.toNat_inj, top_bit, Nat.testBit_eq_decide_div_mod_eq]
  simp only [UInt8.reduceToNat, Nat.mul_eq_zero, Bool.toNat_eq_zero, decide_eq_false_iff_not]
  omega

/-- The size is that of the bytes written; the last of them, and no other, has the top bit clear. -/
theorem written_as_sized (value : UInt32) :
    size value = (encode value).length ∧ ∃ leading last, encode value = leading ++ [last] ∧
      (∀ byte ∈ leading, byte &&& 0x80 ≠ 0) ∧ last &&& 0x80 = 0 := by
  obtain ⟨leading, last, written, marked, unmarked⟩ := encodeNat_marks value.toNat
  refine ⟨size_eq_length value, leading, last, written, ?_, (top_bit_clear_iff last).mpr unmarked⟩
  intro byte member clear
  exact absurd ((top_bit_clear_iff byte).mp clear) (Nat.not_lt.mpr (marked byte member))

end Integer.SevenBit

namespace FieldSet

open Integer

theorem length_encodeEntries (entries : List (FieldTag × UInt32)) :
    entries.foldr (fun entry length => 1 + SevenBit.size entry.2 + length) 0 =
      (encodeEntries entries).length := by
  induction entries with
  | nil => rfl
  | cons entry rest ih =>
    rw [List.foldr_cons, ih, encodeEntries_cons_eq, List.length_append, fieldBytes,
      List.length_cons, SevenBit.size_eq_length, Nat.add_comm 1]

theorem encodedLength_eq_length (fields : FieldSet) :
    fields.encodedLength = fields.encode.length :=
  length_encodeEntries fields.entries

theorem length_encodeEntries_le (entries : List (FieldTag × UInt32)) :
    (encodeEntries entries).length ≤ 6 * entries.length := by
  induction entries with
  | nil => exact Nat.le_refl 0
  | cons entry rest ih =>
    have bound := SevenBit.length_encode_le entry.2
    rw [encodeEntries_cons_eq, List.length_append, fieldBytes, List.length_cons, List.length_cons]
    omega

theorem length_entries_le (fields : FieldSet) : fields.entries.length ≤ 6 :=
  List.length_filterMap_le _ FieldTag.all

theorem encodeEntries_eq_nil {entries : List (FieldTag × UInt32)} :
    encodeEntries entries = [] ↔ entries = [] := by
  cases entries with
  | nil => exact iff_of_true rfl rfl
  | cons entry rest =>
    rw [encodeEntries_cons_eq]
    exact iff_of_false (List.cons_ne_nil _ _) (List.cons_ne_nil _ _)

theorem isUsed_eq_false (fields : FieldSet) : fields.isUsed = false ↔ fields.entries = [] := by
  simp [isUsed, entries, List.filterMap_eq_nil_iff]

inductive Edit where
  | set (tag : FieldTag) (value : UInt32)
  | clear (tag : FieldTag)
deriving DecidableEq, Repr

def Edit.apply (fields : FieldSet) : Edit → FieldSet
  | set tag value => fields.set tag value
  | clear tag => fields.clear tag

def edited (edits : List Edit) : FieldSet := edits.foldl Edit.apply empty

/-- Sizes are known before anything is written: that of a number is the number of its bytes, the
    last of which is told by its top bit, and that of a set is the number of bytes of its encoding,
    which are few and none only if no field is used. -/
theorem sizes_predicted :
    (∀ value : UInt32, SevenBit.size value = (SevenBit.encode value).length ∧
        ∃ leading last, SevenBit.encode value = leading ++ [last] ∧
          (∀ byte ∈ leading, byte &&& 0x80 ≠ 0) ∧ last &&& 0x80 = 0) ∧
      ∀ edits : List Edit,
        (edited edits).encodedLength = (edited edits).encode.length ∧
          (edited edits).encodedLength ≤ 36 ∧
          ((edited edits).encodedLength = 0 ↔ (edited edits).isUsed = false) := by
  refine ⟨SevenBit.written_as_sized, fun edits => ?_⟩
  have predicted := encodedLength_eq_length (edited edits)
  have few := length_entries_le (edited edits)
  have short := length_encodeEntries_le (edited edits).entries
  refine ⟨predicted, ?_, ?_⟩
  · rw [predicted, encode]
    omega
  · rw [predicted, encode, List.length_eq_zero_iff, encodeEntries_eq_nil, isUsed_eq_false]

end FieldSet

end Managed
