import Mathlib.Algebra.Group.Nat.Even
import Managed.Proofs.Outcomes
import Managed.Proofs.RequestText

namespace Managed

namespace Text.Hex

def digits : List Char := "0123456789abcdefABCDEF".toList

structure IsHex (text : List Char) : Prop where
  even : Even (String.ofList text).utf8ByteSize
  plain : ∀ char ∈ text, char ∈ digits

/-- Why a text does not stand for bytes. The number of its bytes is looked at before any of them. -/
inductive Refuses (text : List Char) : DecodeError → Prop where
  | odd (odd : ¬ Even (String.ofList text).utf8ByteSize) : Refuses text .oddLength
  | digit {before after : List Char} {char : Char} {byte : UInt8} {more : Bytes}
    (even : Even (String.ofList text).utf8ByteSize) (text_eq : text = before ++ char :: after)
    (plain : ∀ other ∈ before, other ∈ digits) (strange : char ∉ digits)
    (bytes : String.utf8EncodeChar char = byte :: more) :
    Refuses text (.invalidDigit byte before.length)

theorem utf8ByteSize_eq (text : List Char) :
    (String.ofList text).utf8ByteSize = (text.flatMap String.utf8EncodeChar).length := by
  rw [← List.size_toByteArray]
  rfl

/-- A digit takes one byte, and is shown in lower case. -/
theorem utf8EncodeChar_digits {char : Char} (plain : char ∈ digits) :
    ∃ byte value, String.utf8EncodeChar char = [byte] ∧ digitValue? byte = some value ∧
      value < 16 ∧ digit value = char.toLower := by
  -- Stated by `all`, since a quantifier might be decided by going through all characters there are.
  have all : digits.all (fun char => ((String.utf8EncodeChar char).head?.bind digitValue?).any
      fun value => (String.utf8EncodeChar char).length = 1 ∧ value < 16 ∧
        digit value = char.toLower) = true := by decide +kernel
  obtain ⟨value, read, kept⟩ := (Option.any_eq_true _ _).mp (List.all_eq_true.mp all char plain)
  obtain ⟨single, small, lower⟩ := of_decide_eq_true kept
  obtain ⟨byte, bytes⟩ := List.length_eq_one_iff.mp single
  rw [bytes] at read
  exact ⟨byte, value, bytes, read, small, lower⟩

/-- A byte that is read as a digit is the one of a digit. -/
theorem mem_digits_of_digitValue? {code : Nat} (small : code < 128)
    (read : digitValue? (UInt8.ofNat code) ≠ none) : Char.ofNat code ∈ digits := by
  revert code
  decide

theorem digitValue?_large {number : Nat} (large : 128 ≤ number) (byte : number < 256) :
    digitValue? (UInt8.ofNat number) = none := by
  have same : (UInt8.ofNat number).toNat = number := Nat.mod_eq_of_lt byte
  simp only [digitValue?, same]
  rw [if_neg (by omega), if_neg (by omega), if_neg (by omega)]

/-- The first byte of any other character is not read. -/
theorem utf8EncodeChar_strange {char : Char} (strange : char ∉ digits) :
    ∃ byte more, String.utf8EncodeChar char = byte :: more ∧ digitValue? byte = none := by
  unfold String.utf8EncodeChar
  dsimp only
  split
  · rename_i small
    refine ⟨_, _, rfl, ?_⟩
    by_contra read
    have member := mem_digits_of_digitValue? (Nat.lt_succ_of_le small) read
    exact strange (Char.ofNat_toNat char ▸ member)
  · split
    · exact ⟨_, _, rfl, digitValue?_large (by omega) (by omega)⟩
    · split
      · exact ⟨_, _, rfl, digitValue?_large (by omega) (by omega)⟩
      · exact ⟨_, _, rfl, digitValue?_large (by omega) (by omega)⟩

/-- The bytes of digits are read one by one, and there are as many. -/
theorem flatMap_digits {text : List Char} (plain : ∀ char ∈ text, char ∈ digits) :
    (∀ byte ∈ text.flatMap String.utf8EncodeChar, digitValue? byte ≠ none) ∧
      (text.flatMap String.utf8EncodeChar).length = text.length := by
  induction text with
  | nil => exact ⟨nofun, rfl⟩
  | cons char rest ih =>
    obtain ⟨char_plain, rest_plain⟩ := List.forall_mem_cons.mp plain
    obtain ⟨byte, value, bytes, read, -⟩ := utf8EncodeChar_digits char_plain
    obtain ⟨rest_read, length_eq⟩ := ih rest_plain
    rw [List.flatMap_cons, bytes, List.singleton_append, List.forall_mem_cons, List.length_cons,
      length_eq, List.length_cons]
    exact ⟨⟨by simp [read], rest_read⟩, rfl⟩

theorem encode_cons {high low : Nat} (high_small : high < 16) (low_small : low < 16)
    (rest : Bytes) :
    encode (UInt8.ofNat (high * 16 + low) :: rest) = digit high :: digit low :: encode rest := by
  have same : (UInt8.ofNat (high * 16 + low)).toNat = high * 16 + low :=
    Nat.mod_eq_of_lt (by omega)
  have upper : (high * 16 + low) / 16 = high := by omega
  have lower : (high * 16 + low) % 16 = low := by omega
  rw [encode, List.flatMap_cons, same, upper, lower]
  rfl

theorem decodePairs_digits {text : List Char} (plain : ∀ char ∈ text, char ∈ digits)
    (even : Even text.length) (index : Nat) :
    ∃ bytes, decodePairs index (text.flatMap String.utf8EncodeChar) = .ok bytes ∧
      encode bytes = text.map Char.toLower := by
  induction text using List.twoStepInduction generalizing index with
  | nil => exact ⟨[], rfl, rfl⟩
  | singleton char => exact absurd even Nat.not_even_one
  | cons_cons first second rest ih _ =>
    obtain ⟨first_plain, later_plain⟩ := List.forall_mem_cons.mp plain
    obtain ⟨second_plain, rest_plain⟩ := List.forall_mem_cons.mp later_plain
    obtain ⟨high, upper, high_bytes, high_read, upper_small, first_eq⟩ :=
      utf8EncodeChar_digits first_plain
    obtain ⟨low, lower, low_bytes, low_read, lower_small, second_eq⟩ :=
      utf8EncodeChar_digits second_plain
    have rest_even : Even rest.length := by
      rw [List.length_cons, List.length_cons] at even
      rwa [Nat.even_add_one, Nat.even_add_one, not_not] at even
    obtain ⟨bytes, decoded, encoded⟩ := ih rest_plain rest_even (index + 2)
    refine ⟨UInt8.ofNat (upper * 16 + lower) :: bytes, ?_, ?_⟩
    · rw [List.flatMap_cons, List.flatMap_cons, high_bytes, low_bytes, List.singleton_append,
        List.singleton_append, decodePairs, high_read, low_read]
      dsimp only
      rw [decoded]
    · rw [encode_cons upper_small lower_small, encoded, first_eq, second_eq]
      rfl

theorem decodePairs_stopped {front : Bytes} {byte : UInt8}
    (read : ∀ other ∈ front, digitValue? other ≠ none) (unread : digitValue? byte = none)
    {behind : Bytes} (even : Even (front ++ byte :: behind).length) (index : Nat) :
    decodePairs index (front ++ byte :: behind) =
      .error (.invalidDigit byte (index + front.length)) := by
  induction front using List.twoStepInduction generalizing index with
  | nil =>
    cases behind with
    | nil => exact absurd even Nat.not_even_one
    | cons low rest =>
      rw [List.nil_append, decodePairs, unread]
      rfl
  | singleton first =>
    obtain ⟨value, first_read⟩ := Option.ne_none_iff_exists'.mp (read first List.mem_cons_self)
    rw [List.singleton_append, decodePairs, first_read, unread]
    rfl
  | cons_cons first second rest ih _ =>
    obtain ⟨first_some, later_some⟩ := List.forall_mem_cons.mp read
    obtain ⟨second_some, rest_some⟩ := List.forall_mem_cons.mp later_some
    obtain ⟨upper, first_read⟩ := Option.ne_none_iff_exists'.mp first_some
    obtain ⟨lower, second_read⟩ := Option.ne_none_iff_exists'.mp second_some
    have rest_even : Even (rest ++ byte :: behind).length := by
      rw [List.cons_append, List.cons_append, List.length_cons, List.length_cons] at even
      rwa [Nat.even_add_one, Nat.even_add_one, not_not] at even
    rw [List.cons_append, List.cons_append, decodePairs, first_read, second_read]
    dsimp only
    rw [ih rest_some rest_even, List.length_cons, List.length_cons, Nat.add_assoc, Nat.add_comm 2]

theorem IsHex.decode {text : List Char} (hex : IsHex text) :
    ∃ bytes, decode (text.flatMap String.utf8EncodeChar) = .ok bytes ∧
      encode bytes = text.map Char.toLower := by
  have length_eq := (flatMap_digits hex.plain).2
  have even := hex.even
  rw [utf8ByteSize_eq, length_eq] at even
  rw [Hex.decode, length_eq, if_neg (by simpa [Nat.even_iff] using even)]
  exact decodePairs_digits hex.plain even 0

theorem Refuses.decode {text : List Char} {error : DecodeError} (refused : Refuses text error) :
    decode (text.flatMap String.utf8EncodeChar) = .error error := by
  cases refused with
  | odd odd =>
    rw [utf8ByteSize_eq, Nat.not_even_iff] at odd
    rw [Hex.decode, if_pos odd]
  | @digit before after char byte more even text_eq plain strange bytes =>
    obtain ⟨first, rest, first_eq, unread⟩ := utf8EncodeChar_strange strange
    obtain ⟨rfl, rfl⟩ := List.cons.inj (first_eq.symm.trans bytes)
    obtain ⟨front_read, front_length⟩ := flatMap_digits plain
    rw [utf8ByteSize_eq] at even
    have whole : text.flatMap String.utf8EncodeChar = before.flatMap String.utf8EncodeChar ++
        first :: (rest ++ after.flatMap String.utf8EncodeChar) := by
      rw [text_eq, List.flatMap_append, List.flatMap_cons, first_eq, List.cons_append]
    have stopped := decodePairs_stopped front_read unread (whole ▸ even) 0
    rw [Hex.decode, if_neg (by simpa [Nat.even_iff] using even), whole, stopped, front_length,
      Nat.zero_add]

theorem isHex_or_refused (text : List Char) : IsHex text ∨ ∃ error, Refuses text error := by
  by_cases even : Even (String.ofList text).utf8ByteSize
  · cases found : text.find? (· ∉ digits) with
    | none => exact .inl ⟨even, by simpa using found⟩
    | some char =>
      obtain ⟨strange, before, after, text_eq, plain⟩ := List.find?_eq_some_iff_append.mp found
      obtain ⟨byte, more, bytes, -⟩ := utf8EncodeChar_strange (of_decide_eq_true strange)
      have plain : ∀ other ∈ before, other ∈ digits := by simpa using plain
      exact .inr ⟨_, .digit even text_eq plain (of_decide_eq_true strange) bytes⟩
  · exact .inr ⟨.oddLength, .odd even⟩

end Text.Hex

namespace PublicKeyToken

open Text Request

theorem parse_display (token : PublicKeyToken) : parse token.display = .ok token := by
  rw [parse, display, String.toList_ofList, parseChars_displayChars]

theorem displayChars_injective {token other : PublicKeyToken}
    (same : token.displayChars = other.displayChars) : token = other := by
  have again := token.parseChars_displayChars
  rw [same, other.parseChars_displayChars] at again
  exact (Except.ok.inj again).symm

theorem parseChars_hex {text : List Char} (hex : Hex.IsHex (trim text)) :
    ∃ token, parseChars text = .ok token ∧
      token.displayChars = (trim text).map Char.toLower := by
  obtain ⟨bytes, decoded, encoded⟩ := hex.decode
  refine ⟨⟨bytes⟩, ?_, encoded⟩
  rw [parseChars, decoded]

theorem parseChars_refused {text : List Char} {error : Hex.DecodeError}
    (refused : Hex.Refuses (trim text) error) :
    parseChars text = .error (.publicKeyToken (String.ofList text) error) := by
  rw [parseChars, refused.decode]

theorem settled_parseChars (text : List Char) :
    Settled (parseChars text)
      (fun token => Hex.IsHex (trim text) ∧ token.displayChars = (trim text).map Char.toLower)
      (fun defect => ∃ error, Hex.Refuses (trim text) error ∧
        defect = .publicKeyToken (String.ofList text) error) where
  value := by
    rintro token ⟨hex, shown⟩
    obtain ⟨read, found, read_shown⟩ := parseChars_hex hex
    rw [found, displayChars_injective (read_shown.trans shown.symm)]
  fault := by
    rintro _ ⟨error, refused, rfl⟩
    exact parseChars_refused refused
  total := by
    rcases Hex.isHex_or_refused (trim text) with hex | ⟨error, refused⟩
    · obtain ⟨read, -, shown⟩ := parseChars_hex hex
      exact .inl ⟨read, hex, shown⟩
    · exact .inr ⟨_, error, refused, rfl⟩

/-- Texts that differ in case only, and in the blanks around them. -/
theorem parseChars_respelled {text other : List Char} {token found : PublicKeyToken}
    (same : sameAscii (trim text) (trim other) = true) (parsed : parseChars text = .ok token)
    (other_parsed : parseChars other = .ok found) : token = found := by
  obtain ⟨-, shown⟩ := (settled_parseChars text).eq_ok.mp parsed
  obtain ⟨-, other_shown⟩ := (settled_parseChars other).eq_ok.mp other_parsed
  apply displayChars_injective
  rw [shown, other_shown, of_decide_eq_true same]

end PublicKeyToken

namespace Request

open Text

theorem addParts_congr {part other : List Char}
    (same : ∀ request : Request, request.addPart part = request.addPart other)
    (request : Request) (before after : List (List Char)) :
    request.addParts (before ++ part :: after) = request.addParts (before ++ other :: after) := by
  induction before generalizing request with
  | nil => rw [List.nil_append, List.nil_append, addParts, addParts, same]
  | cons first rest ih =>
    rw [List.cons_append, List.cons_append, addParts, addParts]
    cases request.addPart first with
    | error defect => rfl
    | ok middle => exact ih middle

theorem isMeant_congr {value other : List Char} (same : sameAscii value other = true)
    (nothing : String) : isMeant nothing value = isMeant nothing other := by
  have lower : value.map Char.toLower = other.map Char.toLower := of_decide_eq_true same
  have empty : value.isEmpty = other.isEmpty := by
    rw [← List.isEmpty_map (f := Char.toLower), lower, List.isEmpty_map]
  rw [isMeant, isMeant, empty, sameAscii, sameAscii, lower]

section Respelling

variable {part other value respelled : List Char}

theorem addPart_respelled (given : keyValue? part = some ("PublicKeyToken".toList, value))
    (other_given : keyValue? other = some ("PublicKeyToken".toList, respelled))
    (same : sameAscii value respelled = true) (accepted : IsValid [part])
    (other_accepted : IsValid [other]) (request : Request) :
    request.addPart (trim part) = request.addPart (trim other) := by
  rw [addPart_token_entry _ ((keyValue?_trim part).trans given),
    addPart_token_entry _ ((keyValue?_trim other).trans other_given), isMeant_congr same]
  split
  · rename_i meant
    obtain ⟨token, read⟩ := accepted.token value (by simp [said_part _ given])
      ((isMeant_congr same "null").trans meant)
    obtain ⟨found, other_read⟩ := other_accepted.token respelled (by simp [said_part _ other_given])
      meant
    obtain ⟨_, after, -, -, rfl⟩ := exists_divided given
    obtain ⟨_, other_after, -, -, rfl⟩ := exists_divided other_given
    have same_trimmed : sameAscii (trim (trim after)) (trim (trim other_after)) = true := by
      rwa [(isTrimmed_trim after).trim_eq_self, (isTrimmed_trim other_after).trim_eq_self]
    rw [read, other_read, PublicKeyToken.parseChars_respelled same_trimmed read other_read]
  · rfl

theorem parse_respelled {name : List Char} {before after : List (List Char)}
    {request wanted : Request} (given : keyValue? part = some ("PublicKeyToken".toList, value))
    (other_given : keyValue? other = some ("PublicKeyToken".toList, respelled))
    (name_free : ',' ∉ name) (parts_free : ∀ entry ∈ before ++ part :: after, ',' ∉ entry)
    (others_free : ∀ entry ∈ before ++ other :: after, ',' ∉ entry)
    (same : sameAscii value respelled = true)
    (parsed : parse (spell name (before ++ part :: after)) = .ok request)
    (other_parsed : parse (spell name (before ++ other :: after)) = .ok wanted) :
    request = wanted := by
  have single : ∀ {part : List Char}, IsValid (before ++ part :: after) → IsValid [part] := by
    intro part valid
    rw [← List.singleton_append, isValid_append, isValid_append] at valid
    exact valid.2.1
  obtain ⟨-, valid, -⟩ := (parse_spell_eq_ok name_free parts_free request).mp parsed
  obtain ⟨-, other_valid, -⟩ := (parse_spell_eq_ok name_free others_free wanted).mp other_parsed
  have added := addPart_respelled given other_given same (single valid) (single other_valid)
  have alike : parse (spell name (before ++ part :: after)) =
      parse (spell name (before ++ other :: after)) := by
    rw [parse, parse, parseChars, parseChars, splitOn_spell name_free parts_free,
      splitOn_spell name_free others_free]
    simp only [List.map_cons, List.map_append, addParts_congr added]
  rw [alike, other_parsed] at parsed
  exact (Except.ok.inj parsed).symm

end Respelling

end Request

namespace PublicKeyToken

open Text Request

/-- The texts that are read as tokens, and the token that each of them is; why every other text is
    refused; and that neither the case of its digits nor the blanks around it matter, also where it
    is the token of a request. -/
theorem texts_spell_tokens :
    (∀ token : PublicKeyToken, parse token.display = .ok token) ∧
    (∀ text token, parse text = .ok token ↔ Hex.IsHex (trim text.toList) ∧
      token.display = String.ofList ((trim text.toList).map Char.toLower)) ∧
    (∀ text defect, parse text = .error defect ↔ ∃ error, Hex.Refuses (trim text.toList) error ∧
      defect = .publicKeyToken text error) ∧
    (∀ text other token found, sameAscii (trim text.toList) (trim other.toList) = true →
      parse text = .ok token → parse other = .ok found → token = found) ∧
    ∀ name before after part other value respelled request wanted, ',' ∉ name →
      (∀ entry ∈ before ++ part :: after, ',' ∉ entry) →
      (∀ entry ∈ before ++ other :: after, ',' ∉ entry) →
      keyValue? part = some ("PublicKeyToken".toList, value) →
      keyValue? other = some ("PublicKeyToken".toList, respelled) →
      sameAscii value respelled = true →
      Request.parse (spell name (before ++ part :: after)) = .ok request →
      Request.parse (spell name (before ++ other :: after)) = .ok wanted →
      ∀ candidate, request.Allows candidate ↔ wanted.Allows candidate := by
  refine ⟨parse_display, ?_, ?_, ?_, ?_⟩
  · intro text token
    rw [parse, (settled_parseChars text.toList).eq_ok, display, String.ofList_inj]
  · intro text defect
    rw [parse, (settled_parseChars text.toList).eq_error, String.ofList_toList]
  · intro text other token found same parsed other_parsed
    exact parseChars_respelled same parsed other_parsed
  · intro name before after part other value respelled request wanted name_free parts_free
      others_free given other_given same parsed other_parsed candidate
    rw [parse_respelled given other_given name_free parts_free others_free same parsed other_parsed]

end PublicKeyToken

end Managed
