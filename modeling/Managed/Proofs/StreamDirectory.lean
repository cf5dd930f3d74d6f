import Managed.Metadata.Root
import Managed.Proofs.HeapTexts
import Managed.Proofs.LossyText
import Managed.Proofs.ReadingAhead

namespace Managed.Metadata

namespace StreamName

theorem ascii_text (name : StreamName) : ∀ character ∈ name.text.toList, character.toNat < 0x80 := by
  cases name <;> simp [text]

theorem nul_notMem_text (name : StreamName) : '\x00' ∉ name.text.toList := by
  cases name <;> decide

def bytes (name : StreamName) : Bytes := Text.Utf8.encode name.text

theorem bytes_eq (name : StreamName) :
    name.bytes = name.text.toList.map fun character => UInt8.ofNat character.toNat := by
  cases name <;> decide

theorem length_bytes_le (name : StreamName) : name.bytes.length ≤ 8 := by
  cases name <;> decide

theorem mem_all (name : StreamName) : name ∈ all := by
  cases name <;> decide

theorem text_injective {left right : StreamName} (same : left.text = right.text) : left = right := by
  have found := ofText?_text left
  rw [same, ofText?_text] at found
  exact (Option.some.inj found).symm

theorem ofText?_eq_some {text : String} {name : StreamName} :
    ofText? text = some name ↔ name.text = text := by
  constructor
  · intro found
    simpa using List.find?_some found
  · intro same
    rw [← same]
    exact ofText?_text name

/-- The bytes of a name are the only ones that are read as it. -/
theorem decodeLossy_eq_text {bytes : Bytes} {name : StreamName} :
    Text.Utf8.decodeLossy bytes = name.text ↔ bytes = name.bytes := by
  rw [← String.toList_inj, Text.Utf8.decodeLossy, String.toList_ofList, bytes_eq]
  constructor
  · intro decoded
    have ascii := Text.Utf8.ascii_of_decodeLossyChars fun character member =>
      ascii_text name character (decoded ▸ member)
    rw [Text.Utf8.decodeLossyChars_ascii ascii] at decoded
    rw [← decoded, List.map_map]
    have same : ∀ byte ∈ bytes, UInt8.ofNat (Char.ofNat byte.toNat).toNat = byte := by
      intro byte member
      have small := UInt8.lt_iff_toNat_lt.mp (ascii byte member)
      rw [Text.Utf8.toNat_ofNat (.inl (Nat.lt_trans small (by decide))), UInt8.ofNat_toNat]
    exact ((List.map_congr_left same).trans (List.map_id bytes)).symm
  · rintro rfl
    cases name <;> simp [Text.Utf8.decodeLossyChars, text]

end StreamName

namespace StreamHeader

def front (header : StreamHeader) : Bytes :=
  Bytes.ofNat 4 header.offset ++ (Bytes.ofNat 4 header.size ++ (header.name.bytes ++ [0]))

theorem length_front (header : StreamHeader) :
    header.front.length = 9 + header.name.bytes.length := by
  simp only [front, List.length_append, Bytes.length_ofNat, List.length_singleton]
  omega

theorem encode_eq_front (header : StreamHeader) :
    header.encode =
      header.front ++ List.replicate (3 - header.name.bytes.length % 4) 0 := by
  have one_more : 4 - header.name.bytes.length % 4 = 3 - header.name.bytes.length % 4 + 1 := by
    omega
  rw [encode, ← StreamName.bytes, one_more, List.replicate_succ]
  simp only [front, List.append_assoc, List.singleton_append]

/-- The bytes before the first zero byte, where one is near enough. -/
theorem name_area {name behind : Bytes} (short : name.length < nameLimit) (free : 0 ∉ name) :
    ((name ++ 0 :: behind).take nameLimit).contains 0 = true ∧
      ((name ++ 0 :: behind).take nameLimit).takeWhile (· ≠ 0) = name := by
  obtain ⟨room, size⟩ := Nat.exists_eq_add_of_lt short
  have area : (name ++ 0 :: behind).take nameLimit = name ++ 0 :: behind.take room := by
    rw [size, Nat.add_assoc, List.take_length_add_append, List.take_succ_cons]
  rw [area, Bytes.takeWhile_terminated free]
  exact ⟨by simp, rfl⟩

theorem front_of_ofBytes {data : Bytes} {header : StreamHeader}
    (read : ofBytes data = .ok header) :
    header.offset < 256 ^ 4 ∧ header.size < 256 ^ 4 ∧ header.front <+: data := by
  rw [ofBytes] at read
  split at read
  · cases read
  rename_i long
  dsimp only at read
  split at read
  · cases read
  rename_i ended
  simp only [Bool.not_eq_true', Bool.not_eq_false] at ended
  split at read
  · cases read
  rename_i name named
  cases read
  have first : (data.take 4).length = 4 := List.length_take_of_le (by omega)
  have second : ((data.drop 4).take 4).length = 4 := by
    rw [List.length_take, List.length_drop]
    omega
  have offset := Bytes.littleEndian_lt (data.take 4)
  have size := Bytes.littleEndian_lt ((data.drop 4).take 4)
  have offset_bytes := Bytes.ofNat_littleEndian (data.take 4)
  have size_bytes := Bytes.ofNat_littleEndian ((data.drop 4).take 4)
  rw [first] at offset offset_bytes
  rw [second] at size size_bytes
  refine ⟨offset, size, ?_⟩
  have name_bytes := StreamName.decodeLossy_eq_text.mp (StreamName.ofText?_eq_some.mp named).symm
  have name_front := (Bytes.takeWhile_zero ended).trans (List.take_prefix nameLimit (data.drop 8))
  rw [name_bytes] at name_front
  have split : data = data.take 4 ++ ((data.drop 4).take 4 ++ data.drop 8) := by
    have rest : data.drop 8 = (data.drop 4).drop 4 := by rw [List.drop_drop]
    rw [rest, List.take_append_drop, List.take_append_drop]
  rw [front, offset_bytes, size_bytes]
  conv_rhs => rw [split]
  exact (List.prefix_append_right_inj _).mpr ((List.prefix_append_right_inj _).mpr name_front)

theorem ofBytes_front {header : StreamHeader} (offset : header.offset < 256 ^ 4)
    (size : header.size < 256 ^ 4) (behind : Bytes) :
    ofBytes (header.front ++ behind) = .ok header := by
  have long : ¬ (header.front ++ behind).length < 9 := by
    rw [List.length_append, length_front]
    omega
  have first : (header.front ++ behind).take 4 = Bytes.ofNat 4 header.offset := by
    simp only [front, List.append_assoc]
    rw [List.take_left' (Bytes.length_ofNat _ _)]
  have after_first : (header.front ++ behind).drop 4 =
      Bytes.ofNat 4 header.size ++ (header.name.bytes ++ 0 :: behind) := by
    simp only [front, List.append_assoc, List.singleton_append]
    rw [List.drop_left' (Bytes.length_ofNat _ _)]
  have after_second : (header.front ++ behind).drop 8 = header.name.bytes ++ 0 :: behind := by
    have rest : (header.front ++ behind).drop 8 = ((header.front ++ behind).drop 4).drop 4 := by
      rw [List.drop_drop]
    rw [rest, after_first, List.drop_left' (Bytes.length_ofNat _ _)]
  have short : header.name.bytes.length < nameLimit :=
    Nat.lt_of_le_of_lt header.name.length_bytes_le (by decide)
  have free := Text.Utf8.zero_notMem_encode _ header.name.nul_notMem_text
  obtain ⟨ended, name⟩ := @name_area header.name.bytes behind short free
  have named : StreamName.ofText? (Text.Utf8.decodeLossy header.name.bytes) = some header.name :=
    StreamName.ofText?_eq_some.mpr (StreamName.decodeLossy_eq_text.mpr rfl).symm
  rw [ofBytes, if_neg long, after_second, first, after_first,
    List.take_left' (Bytes.length_ofNat _ _)]
  simp only [ended, name, named, Bytes.littleEndian_ofNat, Nat.mod_eq_of_lt offset,
    Nat.mod_eq_of_lt size]
  rfl

theorem ofBytes_eq_ok {data : Bytes} {header : StreamHeader} :
    ofBytes data = .ok header ↔
      header.offset < 256 ^ 4 ∧ header.size < 256 ^ 4 ∧ header.front <+: data := by
  constructor
  · exact front_of_ofBytes
  · rintro ⟨offset, size, behind, rfl⟩
    exact ofBytes_front offset size behind

theorem length_eq (header : StreamHeader) :
    header.length = header.front.length + (3 - header.name.bytes.length % 4) := by
  rw [length_front, length, ← StreamName.bytes]
  omega

end StreamHeader

end Managed.Metadata
