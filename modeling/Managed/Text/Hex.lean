import Managed.Bytes

namespace Managed.Text.Hex

def digit (value : Nat) : Char :=
  if value < 10 then Char.ofNat (48 + value) else Char.ofNat (87 + value)

def digitValue? (byte : UInt8) : Option Nat :=
  let code := byte.toNat
  if 48 ≤ code ∧ code ≤ 57 then some (code - 48)
  else if 65 ≤ code ∧ code ≤ 70 then some (code - 55)
  else if 97 ≤ code ∧ code ≤ 102 then some (code - 87)
  else none

def encode (bytes : Bytes) : List Char :=
  bytes.flatMap fun byte => [digit (byte.toNat / 16), digit (byte.toNat % 16)]

inductive DecodeError where
  | oddLength
  | invalidDigit (byte : UInt8) (index : Nat)
deriving DecidableEq, Repr

def decodePairs : (index : Nat) → (digits : Bytes) → Except DecodeError Bytes
  | index, high :: low :: rest =>
    match digitValue? high, digitValue? low with
    | none, _ => .error (.invalidDigit high index)
    | some _, none => .error (.invalidDigit low (index + 1))
    | some upper, some lower =>
      match decodePairs (index + 2) rest with
      | .ok bytes => .ok (UInt8.ofNat (upper * 16 + lower) :: bytes)
      | .error error => .error error
  | _, _ => .ok []

/-- Accepts digits of either case; an odd number of them is refused before any is looked at. -/
def decode (digits : Bytes) : Except DecodeError Bytes :=
  if digits.length % 2 = 1 then .error .oddLength else decodePairs 0 digits

def padded (width number : Nat) : List Char :=
  let digits := Nat.toDigits 16 number
  List.replicate (width - digits.length) '0' ++ digits

end Managed.Text.Hex
