import Managed.Proofs.LittleEndian
import Managed.Proofs.Reading

namespace Managed

theorem Cursor.Faces.after_number {width value : Nat} {cursor : Cursor} {behind : Bytes}
    (faces : cursor.Faces (Bytes.ofNat width value ++ behind)) :
    (cursor.forward width).Faces behind := by
  have later := faces.forward
  rwa [Bytes.length_ofNat] at later

namespace Reader

/-- A number is read exactly where it is written. -/
theorem number_reads {width value : Nat} {cursor final : Cursor} {ahead : Bytes}
    (faces : cursor.Faces ahead) :
    number width cursor = .ok value final ↔
      value < 256 ^ width ∧
        ∃ behind, ahead = Bytes.ofNat width value ++ behind ∧ final = cursor.forward width := by
  constructor
  · intro read
    obtain ⟨room, rfl, rfl⟩ := (number_eq_ok _ _ _ _).mp read
    have size : (cursor.rest.take width).length = width := by
      have inside := faces.inside
      rw [List.length_take, Cursor.rest, List.length_drop]
      omega
    have bytes := Bytes.ofNat_littleEndian (cursor.rest.take width)
    have bound := Bytes.littleEndian_lt (cursor.rest.take width)
    rw [size] at bytes bound
    refine ⟨bound, ahead.drop width, ?_, rfl⟩
    rw [bytes, faces.rest_eq, List.take_append_drop]
  · rintro ⟨bound, behind, rfl, rfl⟩
    have read := number_ahead faces
    rw [Bytes.length_ofNat, Bytes.littleEndian_ofNat, Nat.mod_eq_of_lt bound] at read
    exact read

theorem bytes_reads {length : Nat} {taken : Bytes} {cursor final : Cursor} {ahead : Bytes}
    (faces : cursor.Faces ahead) :
    bytes length cursor = .ok taken final ↔
      taken.length = length ∧
        ∃ behind, ahead = taken ++ behind ∧ final = cursor.forward length := by
  constructor
  · intro read
    rw [bytes_eq] at read
    split at read
    · rename_i room
      cases read
      refine ⟨?_, ahead.drop length, ?_, rfl⟩
      · rw [List.length_take, Cursor.rest, List.length_drop]
        omega
      · rw [faces.rest_eq, List.take_append_drop]
    · cases read
  · rintro ⟨rfl, behind, rfl, rfl⟩
    exact bytes_ahead faces

theorem skip_reads {length : Nat} {cursor final : Cursor} {ahead : Bytes}
    (faces : cursor.Faces ahead) :
    skip length cursor = .ok () final ↔
      length ≤ ahead.length ∧ final = cursor.forward length := by
  rw [skip, bind_eq_ok]
  constructor
  · rintro ⟨taken, middle, read, done⟩
    obtain ⟨size, behind, rfl, rfl⟩ := (bytes_reads faces).mp read
    obtain ⟨-, rfl⟩ := (pure_eq_ok _ _ _ _).mp done
    exact ⟨by rw [List.length_append]; omega, rfl⟩
  · rintro ⟨room, rfl⟩
    refine ⟨ahead.take length, _, (bytes_reads faces).mpr ⟨?_, ahead.drop length, ?_, rfl⟩, rfl⟩
    · exact List.length_take_of_le room
    · rw [List.take_append_drop]

variable {β : Type}

theorem number_bind {width : Nat} {next : Nat → Reader β} {result : β} {cursor final : Cursor}
    {ahead : Bytes} (faces : cursor.Faces ahead) :
    (number width >>= next) cursor = .ok result final ↔
      ∃ value behind, value < 256 ^ width ∧ ahead = Bytes.ofNat width value ++ behind ∧
        (cursor.forward width).Faces behind ∧
          next value (cursor.forward width) = .ok result final := by
  rw [bind_eq_ok]
  constructor
  · rintro ⟨value, middle, read, more⟩
    obtain ⟨bound, behind, rfl, rfl⟩ := (number_reads faces).mp read
    exact ⟨value, behind, bound, rfl, faces.after_number, more⟩
  · rintro ⟨value, behind, bound, same, -, more⟩
    exact ⟨value, _, (number_reads faces).mpr ⟨bound, behind, same, rfl⟩, more⟩

theorem bytes_bind {length : Nat} {next : Bytes → Reader β} {result : β} {cursor final : Cursor}
    {ahead : Bytes} (faces : cursor.Faces ahead) :
    (bytes length >>= next) cursor = .ok result final ↔
      ∃ taken behind, taken.length = length ∧ ahead = taken ++ behind ∧
        (cursor.forward length).Faces behind ∧
          next taken (cursor.forward length) = .ok result final := by
  rw [bind_eq_ok]
  constructor
  · rintro ⟨taken, middle, read, more⟩
    obtain ⟨rfl, behind, rfl, rfl⟩ := (bytes_reads faces).mp read
    exact ⟨taken, behind, rfl, rfl, faces.forward, more⟩
  · rintro ⟨taken, behind, size, same, -, more⟩
    exact ⟨taken, _, (bytes_reads faces).mpr ⟨size, behind, same, rfl⟩, more⟩

theorem refuse_eq_ok {refused : Prop} [Decidable refused] {defect : Defect}
    {next : PUnit → Reader β} {result : β} {cursor final : Cursor} :
    (if refused then malformed defect >>= next else next ⟨⟩) cursor = .ok result final ↔
      ¬ refused ∧ next ⟨⟩ cursor = .ok result final := by
  by_cases holds : refused
  · rw [if_pos holds, bind_eq_ok]
    constructor
    · rintro ⟨_, _, read, -⟩
      exact absurd read (malformed_ne_ok _ _ _ _)
    · exact fun allowed => absurd holds allowed.1
  · rw [if_neg holds]
    exact ⟨fun read => ⟨holds, read⟩, fun read => read.2⟩

end Reader

end Managed
