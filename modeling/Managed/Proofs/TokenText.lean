import Managed.Identity.PublicKeyToken
import Managed.Proofs.TrimmedText

namespace Managed

namespace Text.Hex

/-- A digit takes one byte, which is read as the digit that it is. -/
theorem utf8EncodeChar_digit {value : Nat} (below : value < 16) :
    ∃ byte, String.utf8EncodeChar (digit value) = [byte] ∧ digitValue? byte = some value := by
  have digits : ∀ value < 16, String.utf8EncodeChar (digit value) = [UInt8.ofNat (digit value).toNat] ∧
      digitValue? (UInt8.ofNat (digit value).toNat) = some value := by decide
  exact ⟨_, digits value below⟩

theorem mem_encode {bytes : Bytes} {char : Char} (member : char ∈ encode bytes) :
    ∃ value < 16, char = digit value := by
  obtain ⟨byte, -, member⟩ := List.mem_flatMap.mp member
  have bound := byte.toNat_lt
  rcases List.mem_pair.mp member with rfl | rfl
  · exact ⟨_, by omega, rfl⟩
  · exact ⟨_, Nat.mod_lt _ (by decide), rfl⟩

theorem isBlank_of_mem_encode {bytes : Bytes} {char : Char} (member : char ∈ encode bytes) :
    isBlank char = false := by
  obtain ⟨value, below, rfl⟩ := mem_encode member
  have digits : ∀ value < 16, isBlank (digit value) = false := by decide
  exact digits value below

theorem encode_eq_nil {bytes : Bytes} : encode bytes = [] ↔ bytes = [] := by
  cases bytes <;> simp [encode]

theorem encode_cons_utf8 (byte : UInt8) (rest : Bytes) :
    ∃ high low, (encode (byte :: rest)).flatMap String.utf8EncodeChar =
        high :: low :: (encode rest).flatMap String.utf8EncodeChar ∧
      digitValue? high = some (byte.toNat / 16) ∧ digitValue? low = some (byte.toNat % 16) := by
  have bound := byte.toNat_lt
  have high_below : byte.toNat / 16 < 16 := by omega
  have low_below : byte.toNat % 16 < 16 := Nat.mod_lt _ (by decide)
  obtain ⟨high, high_eq, high_value⟩ := utf8EncodeChar_digit high_below
  obtain ⟨low, low_eq, low_value⟩ := utf8EncodeChar_digit low_below
  refine ⟨high, low, ?_, high_value, low_value⟩
  simp [encode, high_eq, low_eq]

theorem decodePairs_encode (index : Nat) (bytes : Bytes) :
    decodePairs index ((encode bytes).flatMap String.utf8EncodeChar) = .ok bytes := by
  induction bytes generalizing index with
  | nil => rfl
  | cons byte rest ih =>
    obtain ⟨high, low, digits_eq, high_value, low_value⟩ := encode_cons_utf8 byte rest
    have whole : byte.toNat / 16 * 16 + byte.toNat % 16 = byte.toNat := by omega
    rw [digits_eq, decodePairs, high_value, low_value]
    dsimp only
    rw [ih, whole, UInt8.ofNat_toNat]

theorem length_encode_utf8 (bytes : Bytes) :
    ((encode bytes).flatMap String.utf8EncodeChar).length = 2 * bytes.length := by
  induction bytes with
  | nil => rfl
  | cons byte rest ih =>
    obtain ⟨high, low, digits_eq, -⟩ := encode_cons_utf8 byte rest
    rw [digits_eq, List.length_cons, List.length_cons, List.length_cons, ih]
    omega

theorem decode_encode (bytes : Bytes) :
    decode ((encode bytes).flatMap String.utf8EncodeChar) = .ok bytes := by
  rw [decode, length_encode_utf8, if_neg (by omega), decodePairs_encode]

theorem ne_nil_of_decode {digits bytes : Bytes} (some_digit : digits ≠ [])
    (decoded : decode digits = .ok bytes) : bytes ≠ [] := by
  rw [decode] at decoded
  split at decoded
  · cases decoded
  · rename_i even
    match digits, some_digit with
    | [_], _ => exact absurd rfl even
    | high :: low :: rest, _ =>
      rw [decodePairs] at decoded
      split at decoded
      · cases decoded
      · cases decoded
      · split at decoded
        · cases decoded
          exact List.cons_ne_nil _ _
        · cases decoded

end Text.Hex

namespace PublicKeyToken

open Text

theorem isTrimmed_displayChars (token : PublicKeyToken) : IsTrimmed token.displayChars :=
  isTrimmed_of_forall fun _ => Hex.isBlank_of_mem_encode

theorem parseChars_displayChars (token : PublicKeyToken) :
    parseChars token.displayChars = .ok token := by
  rw [parseChars, token.isTrimmed_displayChars.trim_eq_self, displayChars, Hex.decode_encode]

theorem ne_nil_of_parseChars {text : List Char} {token : PublicKeyToken} (trimmed : IsTrimmed text)
    (some_char : text ≠ []) (parsed : parseChars text = .ok token) : token.bytes ≠ [] := by
  obtain ⟨char, rest, rfl⟩ := List.exists_cons_of_ne_nil some_char
  rw [parseChars, trimmed.trim_eq_self] at parsed
  split at parsed
  · rename_i bytes decoded
    cases parsed
    refine Hex.ne_nil_of_decode ?_ decoded
    rw [List.flatMap_cons]
    exact List.append_ne_nil_of_left_ne_nil String.utf8EncodeChar_ne_nil _
  · cases parsed

end PublicKeyToken

end Managed
