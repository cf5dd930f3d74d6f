import Mathlib.Algebra.Ring.Nat
import Managed.Bytes

namespace Managed.Bytes

/-- Only the digits that fit into the width are kept. -/
theorem littleEndian_ofNat (width number : Nat) :
    littleEndian (ofNat width number) = number % 256 ^ width := by
  induction width generalizing number with
  | zero => simp [ofNat, littleEndian, Nat.mod_one]
  | succ width ih =>
    have low : (UInt8.ofNat number).toNat = number % 256 := UInt8.toNat_ofNat'
    rw [ofNat, littleEndian_cons, ih, low, Nat.pow_succ, Nat.mul_comm (256 ^ width) 256,
      Nat.mod_mul]

theorem littleEndian_lt (bytes : Bytes) : littleEndian bytes < 256 ^ bytes.length := by
  induction bytes with
  | nil => decide
  | cons byte rest ih =>
    have bound := byte.toNat_lt
    rw [littleEndian_cons, List.length_cons, Nat.pow_succ]
    omega

theorem ofNat_littleEndian (bytes : Bytes) : ofNat bytes.length (littleEndian bytes) = bytes := by
  induction bytes with
  | nil => rfl
  | cons byte rest ih =>
    have bound := byte.toNat_lt
    have low : UInt8.ofNat (byte.toNat + 256 * littleEndian rest) = byte := by
      apply UInt8.toNat_inj.mp
      rw [UInt8.toNat_ofNat']
      omega
    have high : (byte.toNat + 256 * littleEndian rest) / 256 = littleEndian rest := by omega
    rw [littleEndian_cons, List.length_cons, ofNat, low, high, ih]

theorem number?_lt {bytes : Bytes} {offset width number : Nat}
    (read : bytes.number? offset width = some number) : number < 256 ^ width := by
  rw [number?, slice?_eq] at read
  split at read
  · rename_i room
    cases read
    have size : ((bytes.drop offset).take width).length = width := by
      rw [List.length_take, List.length_drop]
      omega
    have bound := littleEndian_lt ((bytes.drop offset).take width)
    rwa [size] at bound
  · cases read

end Managed.Bytes
