import Managed.Cursor

namespace Managed.Integer.SevenBit

/-- Seven bits to a byte, the least significant first; all bytes but the last have the top bit. -/
def encodeNat (number : Nat) : Bytes :=
  if number < 0x80 then [UInt8.ofNat number]
  else UInt8.ofNat (0x80 + number % 0x80) :: encodeNat (number / 0x80)

def encode (value : UInt32) : Bytes := encodeNat value.toNat

def size (value : UInt32) : Nat :=
  if value ≤ 0x7F then 1
  else if value ≤ 0x3FFF then 2
  else if value ≤ 0x1FFFFF then 3
  else if value ≤ 0xFFFFFFF then 4
  else 5

/-- Reads at most `groups` bytes. The last of them has only four bits to give, and no byte but
    the first may be the zero that ends a number. -/
def readGroups : (groups : Nat) → (first : Bool) → Reader Nat
  | 0, _ => Reader.malformed .sevenBitTooLong
  | groups + 1, first => do
    let byte ← Reader.byte
    if groups = 0 ∧ byte % 0x80 ≥ 0x10 then
      Reader.malformed .sevenBitCapacity
    else if byte ≥ 0x80 then
      let rest ← readGroups groups false
      return byte % 0x80 + 0x80 * rest
    else if byte = 0 ∧ first = false then
      Reader.malformed .sevenBitNotMinimal
    else
      return byte

def read : Reader UInt32 := do
  return UInt32.ofNat (← readGroups 5 true)

end Managed.Integer.SevenBit
