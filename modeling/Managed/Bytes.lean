namespace Managed

abbrev Bytes := List UInt8

namespace Bytes

def littleEndian (bytes : Bytes) : Nat :=
  bytes.foldr (fun byte rest => byte.toNat + 256 * rest) 0

def bigEndian (bytes : Bytes) : Nat :=
  bytes.foldl (fun number byte => 256 * number + byte.toNat) 0

def ofNat : (width : Nat) → (number : Nat) → Bytes
  | 0, _ => []
  | width + 1, number => UInt8.ofNat number :: ofNat width (number / 256)

def from? : (bytes : Bytes) → (offset : Nat) → Option Bytes
  | bytes, 0 => some bytes
  | [], _ + 1 => none
  | _ :: rest, offset + 1 => from? rest offset

def first? (bytes : Bytes) (length : Nat) : Option Bytes :=
  let taken := bytes.take length
  if taken.length = length then some taken else none

def slice? (bytes : Bytes) (offset length : Nat) : Option Bytes :=
  (from? bytes offset).bind (first? · length)

def number? (bytes : Bytes) (offset width : Nat) : Option Nat :=
  (slice? bytes offset width).map littleEndian

theorem length_ofNat (width number : Nat) : (ofNat width number).length = width := by
  induction width generalizing number with
  | zero => rfl
  | succ width ih => simp [ofNat, ih]

theorem from?_eq (bytes : Bytes) (offset : Nat) :
    from? bytes offset = if offset ≤ bytes.length then some (bytes.drop offset) else none := by
  induction bytes generalizing offset with
  | nil => cases offset <;> simp [from?]
  | cons byte rest ih => cases offset <;> simp [from?, ih]

theorem first?_eq (bytes : Bytes) (length : Nat) :
    first? bytes length = if length ≤ bytes.length then some (bytes.take length) else none := by
  simp only [first?, List.length_take]
  split <;> split <;> first | rfl | omega

theorem slice?_eq (bytes : Bytes) (offset length : Nat) :
    slice? bytes offset length =
      if offset + length ≤ bytes.length then some ((bytes.drop offset).take length) else none := by
  simp only [slice?, from?_eq]
  split
  · simp only [Option.bind_some, first?_eq, List.length_drop]
    split <;> split <;> first | rfl | omega
  · simp only [Option.bind_none]
    split
    · omega
    · rfl

theorem littleEndian_cons (byte : UInt8) (rest : Bytes) :
    littleEndian (byte :: rest) = byte.toNat + 256 * littleEndian rest := rfl

end Bytes

end Managed
