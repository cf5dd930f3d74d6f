import Managed.Bytes

namespace Managed.Text.Utf8

def encode (text : String) : Bytes :=
  text.toList.flatMap String.utf8EncodeChar

def decode? (bytes : Bytes) : Option String :=
  String.fromUTF8? bytes.toByteArray

/-- What the first byte of a character longer than one byte announces: the bits it contributes,
    the number of bytes to follow, and the range of the first of them. -/
structure Lead where
  bits : Nat
  following : Nat
  low : Nat
  high : Nat

/-- The ranges of the second byte exclude overlong forms, surrogates and numbers past the last
    code point. -/
def Lead.ofByte? (byte : Nat) : Option Lead :=
  if byte < 0xC2 then none
  else if byte < 0xE0 then some ⟨byte - 0xC0, 1, 0x80, 0xBF⟩
  else if byte = 0xE0 then some ⟨0, 2, 0xA0, 0xBF⟩
  else if byte = 0xED then some ⟨0xD, 2, 0x80, 0x9F⟩
  else if byte < 0xF0 then some ⟨byte - 0xE0, 2, 0x80, 0xBF⟩
  else if byte = 0xF0 then some ⟨0, 3, 0x90, 0xBF⟩
  else if byte < 0xF4 then some ⟨byte - 0xF0, 3, 0x80, 0xBF⟩
  else if byte = 0xF4 then some ⟨4, 3, 0x80, 0x8F⟩
  else none

def readFollowing : (following low high number : Nat) → (bytes : Bytes) → Option Char × Bytes
  | 0, _, _, number, bytes => (some (Char.ofNat number), bytes)
  | _ + 1, _, _, _, [] => (none, [])
  | following + 1, low, high, number, byte :: rest =>
    if low ≤ byte.toNat ∧ byte.toNat ≤ high then
      readFollowing following 0x80 0xBF (number * 64 + byte.toNat % 64) rest
    else (none, byte :: rest)

theorem length_readFollowing (following low high number : Nat) (bytes : Bytes) :
    (readFollowing following low high number bytes).2.length ≤ bytes.length := by
  induction bytes generalizing following low high number with
  | nil => cases following <;> simp [readFollowing]
  | cons byte rest ih =>
    cases following with
    | zero => simp [readFollowing]
    | succ following =>
      simp only [readFollowing]
      split
      · have shorter := ih following 0x80 0xBF (number * 64 + byte.toNat % 64)
        simp only [List.length_cons]
        omega
      · simp

def replacement : Char := '\uFFFD'

/-- Every longest start of a character that does not go on as one becomes one replacement. -/
def decodeLossyChars : Bytes → List Char
  | [] => []
  | byte :: rest =>
    if byte < 0x80 then Char.ofNat byte.toNat :: decodeLossyChars rest
    else
      match Lead.ofByte? byte.toNat with
      | none => replacement :: decodeLossyChars rest
      | some lead =>
        let next := readFollowing lead.following lead.low lead.high lead.bits rest
        next.1.getD replacement :: decodeLossyChars next.2
termination_by bytes => bytes.length
decreasing_by
  all_goals simp only [List.length_cons]
  · omega
  · omega
  · have shorter := length_readFollowing lead.following lead.low lead.high lead.bits rest
    omega

def decodeLossy (bytes : Bytes) : String :=
  String.ofList (decodeLossyChars bytes)

end Managed.Text.Utf8
