import Mathlib.Algebra.Ring.Nat
import Managed.Integer.SevenBit
import Managed.Proofs.Reading

namespace Managed.Integer.SevenBit

def limit : (groups : Nat) → Nat
  | 0 => 0
  | groups + 1 => 0x10 * 0x80 ^ groups

theorem limit_five : limit 5 = UInt32.size := by decide

theorem limit_succ (groups : Nat) : limit (groups + 2) = 0x80 * limit (groups + 1) := by
  simp only [limit, Nat.pow_succ]
  omega

theorem encodeNat_small (number : Nat) (small : number < 0x80) :
    encodeNat number = [UInt8.ofNat number] := by
  rw [encodeNat, if_pos small]

theorem encodeNat_large (low rest : Nat) (bound : low < 0x80) (more : rest ≠ 0) :
    encodeNat (low + 0x80 * rest) = UInt8.ofNat (0x80 + low) :: encodeNat rest := by
  have large : ¬ low + 0x80 * rest < 0x80 := by omega
  have remainder : (low + 0x80 * rest) % 0x80 = low := by omega
  have quotient : (low + 0x80 * rest) / 0x80 = rest := by omega
  rw [encodeNat, if_neg large, remainder, quotient]

theorem ofNat_marked (byte : UInt8) (marked : 0x80 ≤ byte.toNat) :
    UInt8.ofNat (0x80 + byte.toNat % 0x80) = byte := by
  have bound := byte.toNat_lt
  have same : 0x80 + byte.toNat % 0x80 = byte.toNat := by omega
  rw [same, UInt8.ofNat_toNat]

/-- A number is read only where its encoding stands, and only if the bytes can hold it. After the
    first byte a number that is zero would not have been written. -/
theorem encodeNat_of_readGroups (groups : Nat) (first : Bool) (cursor final : Cursor) (number : Nat)
    (accepted : readGroups groups first cursor = .ok number final) :
    number < limit groups ∧ (first = false → number ≠ 0) ∧
      encodeNat number <+: cursor.rest ∧ final = cursor.forward (encodeNat number).length := by
  induction groups generalizing first cursor final number with
  | zero => exact absurd accepted (Reader.malformed_ne_ok _ _ _ _)
  | succ groups ih =>
    simp only [readGroups, Reader.bind_eq_ok, Reader.byte_eq_ok] at accepted
    obtain ⟨_, _, ⟨low, behind, ahead, rfl, rfl⟩, accepted⟩ := accepted
    split at accepted
    · exact absurd accepted (Reader.malformed_ne_ok _ _ _ _)
    rename_i fits
    split at accepted
    · rename_i marked
      simp only [Reader.bind_eq_ok, Reader.pure_eq_ok] at accepted
      obtain ⟨more, _, read, rfl, rfl⟩ := accepted
      obtain ⟨below, positive, following, rfl⟩ := ih _ _ _ _ read
      have written : encodeNat (low.toNat % 0x80 + 0x80 * more) = low :: encodeNat more := by
        rw [encodeNat_large _ _ (Nat.mod_lt _ (by decide)) (positive rfl), ofNat_marked low marked]
      rw [Cursor.rest_forward, ahead, List.drop_one, List.tail_cons] at following
      refine ⟨?_, fun _ => by have := positive rfl; omega, ?_, ?_⟩
      · cases groups with
        | zero => simp [limit] at below
        | succ groups => rw [limit_succ]; omega
      · rw [written, ahead]
        exact List.cons_prefix_cons.mpr ⟨rfl, following⟩
      · rw [written, Cursor.forward_forward, List.length_cons, Nat.add_comm]
    · rename_i last
      split at accepted
      · exact absurd accepted (Reader.malformed_ne_ok _ _ _ _)
      rename_i minimal
      obtain ⟨rfl, rfl⟩ := (Reader.pure_eq_ok _ _ _ _).mp accepted
      rw [encodeNat_small _ (by omega), UInt8.ofNat_toNat]
      refine ⟨?_, fun later zero => minimal ⟨zero, later⟩, ?_, rfl⟩
      · cases groups with
        | zero => simp only [limit]; omega
        | succ groups =>
          have room : 0 < 0x80 ^ groups := Nat.pow_pos (by decide)
          simp only [limit, Nat.pow_succ]
          omega
      · rw [ahead]
        exact List.cons_prefix_cons.mpr ⟨rfl, List.nil_prefix⟩

theorem readGroups_encodeNat (groups : Nat) (first : Bool) (cursor : Cursor) (number : Nat)
    (below : number < limit groups) (positive : first = false → number ≠ 0)
    (ahead : encodeNat number <+: cursor.rest) :
    readGroups groups first cursor = .ok number (cursor.forward (encodeNat number).length) := by
  induction groups generalizing first cursor number with
  | zero => exact absurd below (Nat.not_lt_zero _)
  | succ groups ih =>
    obtain ⟨behind, ahead⟩ := ahead
    simp only [readGroups, Reader.bind_eq_ok, Reader.byte_eq_ok]
    by_cases small : number < 0x80
    · have same : (UInt8.ofNat number).toNat = number :=
        UInt8.toNat_ofNat_of_lt' (show number < 256 by omega)
      rw [encodeNat_small _ small, List.singleton_append] at ahead
      refine ⟨_, _, ⟨_, _, ahead.symm, rfl, rfl⟩, ?_⟩
      rw [same, if_neg, if_neg (by omega), if_neg (fun zero => positive zero.2 zero.1),
        encodeNat_small _ small, Reader.pure_eq_ok]
      · exact ⟨rfl, rfl⟩
      · intro malformed
        obtain ⟨rfl, large⟩ := malformed
        simp only [limit] at below
        omega
    · have more : number / 0x80 ≠ 0 := by omega
      have written : encodeNat number =
          UInt8.ofNat (0x80 + number % 0x80) :: encodeNat (number / 0x80) := by
        rw [encodeNat, if_neg small]
      have same : (UInt8.ofNat (0x80 + number % 0x80)).toNat = 0x80 + number % 0x80 :=
        UInt8.toNat_ofNat_of_lt' (show 0x80 + number % 0x80 < 256 by omega)
      rw [written, List.cons_append] at ahead
      refine ⟨_, _, ⟨_, _, ahead.symm, rfl, rfl⟩, ?_⟩
      cases groups with
      | zero => simp only [limit] at below; omega
      | succ groups =>
        rw [limit_succ] at below
        have following : encodeNat (number / 0x80) <+: (cursor.forward 1).rest := by
          rw [Cursor.rest_forward, ← ahead]
          exact ⟨behind, rfl⟩
        have rest := ih false _ _ (by omega) (fun _ => more) following
        rw [same, if_neg (by omega), if_pos (by omega), Reader.bind_eq_ok]
        refine ⟨_, _, rest, ?_⟩
        rw [Reader.pure_eq_ok, written, Cursor.forward_forward, List.length_cons, Nat.add_comm 1]
        exact ⟨by omega, rfl⟩

theorem read_eq_ok (cursor final : Cursor) (value : UInt32) :
    read cursor = .ok value final ↔
      encode value <+: cursor.rest ∧ final = cursor.forward (encode value).length := by
  simp only [read, Reader.bind_eq_ok, Reader.pure_eq_ok, encode]
  constructor
  · intro accepted
    obtain ⟨number, _, accepted, rfl, rfl⟩ := accepted
    obtain ⟨below, -, ahead, rfl⟩ := encodeNat_of_readGroups _ _ _ _ _ accepted
    rw [limit_five] at below
    have same : (UInt32.ofNat number).toNat = number := UInt32.toNat_ofNat_of_lt' below
    rw [same]
    exact ⟨ahead, rfl⟩
  · intro written
    obtain ⟨ahead, rfl⟩ := written
    have below : value.toNat < limit 5 := by rw [limit_five]; exact value.toNat_lt
    exact ⟨_, _, readGroups_encodeNat 5 true cursor _ below (by simp) ahead,
      UInt32.ofNat_toNat, rfl⟩

end Managed.Integer.SevenBit
