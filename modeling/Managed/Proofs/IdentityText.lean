import Managed.Proofs.RequestMeaning
import Managed.Proofs.RequestText

namespace Managed

open Text

namespace Request

def shownPart (entry : String × List Char) : List Char := ' ' :: keyed entry.1 entry.2

theorem keyValue?_shownPart {entry : String × List Char} (read : entry.1 ∈ readKeys) :
    keyValue? (shownPart entry) = some (entry.1.toList, trim entry.2) := by
  have space : IsGap [' '] := by decide
  have whole : shownPart entry = [' '] ++ keyed entry.1 entry.2 ++ [] := (List.append_nil _).symm
  rw [whole, keyValue?_gaps space (List.forall_mem_nil _), keyValue?_keyed read]

theorem said_shownParts {entries : List (String × List Char)}
    (read : ∀ entry ∈ entries, entry.1 ∈ readKeys) (key : String) :
    said key (entries.map shownPart) =
      entries.filterMap fun entry => if entry.1 = key then some (trim entry.2) else none := by
  induction entries with
  | nil => rfl
  | cons entry rest ih =>
    obtain ⟨first_read, rest_read⟩ := List.forall_mem_cons.mp read
    rw [List.map_cons, ← List.singleton_append, said_append, ih rest_read,
      said_part key (keyValue?_shownPart first_read), List.filterMap_cons]
    by_cases same : entry.1 = key
    · rw [if_pos same, if_pos same]
      rfl
    · rw [if_neg same, if_neg same]
      rfl

/-- A token is meant unless it has no bytes. -/
theorem isMeant_token (token : PublicKeyToken) :
    isMeant "null" token.displayChars = !token.isEmpty := by
  cases empty : token.isEmpty with
  | true =>
    have no_digit : token.displayChars = [] := Hex.encode_eq_nil.mpr (List.isEmpty_iff.mp empty)
    rw [isMeant, no_digit]
    rfl
  | false =>
    have some_byte : token.bytes ≠ [] := List.isEmpty_eq_false_iff.mp empty
    rw [isMeant_displayChars some_byte]
    rfl

theorem shownPart_free {entry : String × List Char} (read : entry.1 ∈ readKeys)
    (free : ',' ∉ entry.2) : ',' ∉ shownPart entry := by
  have keys : ∀ key ∈ readKeys, ',' ∉ ' ' :: key.toList := by decide
  rw [shownPart, keyed, ← List.cons_append, List.mem_append, not_or]
  exact ⟨keys entry.1 read, List.not_mem_cons_of_ne_of_not_mem (by decide) free⟩

/-- A request is satisfied by the candidate that it was made after. -/
theorem allows_of_same {request : Request} {candidate : Identity}
    (name : request.name = candidate.name) (version : request.version = candidate.version)
    (token : request.token = candidate.token.filter fun token => !token.isEmpty) :
    request.Allows candidate := by
  obtain ⟨_, version', culture, token'⟩ := request
  dsimp only at name version token
  subst name version token
  refine ⟨rfl, ?_, ?_⟩
  · cases candidate.version with
    | none => exact True.intro
    | some found => exact Nat.le_refl _
  · cases candidate.token with
    | none => exact True.intro
    | some found =>
      cases empty : found.isEmpty with
      | true => simp [AllowsToken, Option.filter, empty]
      | false => simp [AllowsToken, Option.filter, empty]

end Request

namespace Identity

open Request

def shownEntries (identity : Identity) : List (String × List Char) :=
  (identity.version.map fun version => ("Version", version.displayChars)).toList ++
    [("Culture", (identity.culture.getD "neutral").toList),
      ("PublicKeyToken", (identity.token.map (·.displayChars)).getD "null".toList)]

def shownParts (identity : Identity) : List (List Char) := identity.shownEntries.map shownPart

theorem display_eq (identity : Identity) :
    identity.display = spell identity.name.toList identity.shownParts := by
  obtain ⟨name, version, culture, token, flags⟩ := identity
  rw [spell, intercalate_cons, display, displayChars, shownParts, shownEntries]
  cases version <;> cases token <;> simp [shownPart, keyed]

theorem shownEntries_read (identity : Identity) :
    ∀ entry ∈ identity.shownEntries, entry.1 ∈ readKeys := by
  rw [shownEntries]
  cases identity.version <;> simp [readKeys]

theorem shownEntries_free {identity : Identity}
    (culture_free : ∀ culture, identity.culture = some culture → ',' ∉ culture.toList) :
    ∀ entry ∈ identity.shownEntries, ',' ∉ entry.2 := by
  have version_free : ∀ version : Version, ',' ∉ version.displayChars := fun version =>
    (isItem_version version).free
  have token_free : ∀ token : PublicKeyToken, ',' ∉ token.displayChars := by
    intro token
    by_cases empty : token.bytes = []
    · rw [PublicKeyToken.displayChars, Hex.encode_eq_nil.mpr empty]
      exact List.not_mem_nil
    · exact (isItem_token empty).free
  intro entry member
  simp only [shownEntries, List.mem_append, Option.mem_toList, Option.map_eq_some_iff,
    List.mem_pair] at member
  rcases member with ⟨version, -, rfl⟩ | rfl | rfl
  · exact version_free version
  · cases given : identity.culture with
    | none => decide
    | some culture => exact culture_free culture given
  · cases identity.token with
    | none => decide
    | some token => exact token_free token

theorem shownParts_free {identity : Identity}
    (culture_free : ∀ culture, identity.culture = some culture → ',' ∉ culture.toList) :
    ∀ part ∈ identity.shownParts, ',' ∉ part := by
  intro part member
  obtain ⟨entry, shown, rfl⟩ := List.mem_map.mp member
  exact shownPart_free (identity.shownEntries_read entry shown)
    (shownEntries_free culture_free entry shown)

section Said

variable (identity : Identity)

theorem said_version :
    said "Version" identity.shownParts = (identity.version.map (·.displayChars)).toList := by
  rw [shownParts, said_shownParts identity.shownEntries_read, shownEntries]
  cases identity.version with
  | none => simp
  | some version => simp [version.isTrimmed_displayChars.trim_eq_self]

theorem said_culture :
    said "Culture" identity.shownParts = [trim (identity.culture.getD "neutral").toList] := by
  rw [shownParts, said_shownParts identity.shownEntries_read, shownEntries]
  cases identity.version <;> simp

theorem said_token :
    said "PublicKeyToken" identity.shownParts =
      [(identity.token.map (·.displayChars)).getD "null".toList] := by
  have trimmed : trim ((identity.token.map (·.displayChars)).getD "null".toList) =
      (identity.token.map (·.displayChars)).getD "null".toList := by
    cases identity.token with
    | none => decide
    | some token => exact token.isTrimmed_displayChars.trim_eq_self
  rw [shownParts, said_shownParts identity.shownEntries_read, shownEntries]
  cases identity.version <;> simpa using trimmed

theorem isValid_shownParts : IsValid identity.shownParts where
  version := by
    rw [said_version]
    cases identity.version with
    | none => simp
    | some version => simp [version.parseChars_displayChars]
  token := by
    rw [said_token]
    cases identity.token with
    | none => simp [isMeant, sameAscii]
    | some token => simp [token.parseChars_displayChars]

theorem asked_shownParts :
    asked identity.name identity.shownParts =
      { name := identity.name
        version := identity.version
        culture := ((identity.culture.map (trim ·.toList)).filter (isMeant "neutral")).map
          String.ofList
        token := identity.token.filter fun token => !token.isEmpty } := by
  rw [asked, said_version, said_culture, said_token]
  congr 1
  · cases identity.version with
    | none => rfl
    | some version => simp [version.parseChars_displayChars, Except.toOption]
  · cases identity.culture with
    | none => decide
    | some culture =>
      cases meant : isMeant "neutral" (trim culture.toList) <;> simp [Option.filter, meant]
  · cases identity.token with
    | none => decide
    | some token =>
      cases empty : token.isEmpty <;>
        simp [Option.filter, isMeant_token, empty, token.parseChars_displayChars, Except.toOption]

end Said

/-- The identity that a display name shows satisfies the request that the name is read as. -/
theorem display_selects {identity : Identity} (name : IsItem identity.name.toList)
    (culture_free : ∀ culture, identity.culture = some culture → ',' ∉ culture.toList) :
    ∃ request, Request.parse identity.display = .ok request ∧ request.name = identity.name ∧
      request.version = identity.version ∧
      request.culture = ((identity.culture.map (trim ·.toList)).filter (isMeant "neutral")).map
        String.ofList ∧
      request.token = (identity.token.filter fun token => !token.isEmpty) ∧
      request.Allows identity := by
  have same_name : String.ofList (trim identity.name.toList) = identity.name := by
    rw [name.trimmed.trim_eq_self, String.ofList_toList]
  have some_char : trim identity.name.toList ≠ [] := by
    rw [name.trimmed.trim_eq_self]
    exact name.nonempty
  have read := (parse_spell_eq_ok name.free (shownParts_free culture_free) _).mpr
    ⟨some_char, identity.isValid_shownParts, rfl⟩
  rw [← display_eq, same_name, asked_shownParts] at read
  exact ⟨_, read, rfl, rfl, rfl, rfl, allows_of_same rfl rfl rfl⟩

theorem odd_identity_selected :
    let identity : Identity :=
      { name := "A =b", version := some ⟨4, 0, 0, 65535⟩, culture := some " de=DE ",
        token := some ⟨[]⟩, flags := 1 }
    identity.display = "A =b, Version=4.0.0.65535, Culture= de=DE , PublicKeyToken=" ∧
      ∃ request, Request.parse identity.display = .ok request ∧ request.culture = some "de=DE" ∧
        request.token = none ∧ request.Allows identity := by
  intro identity
  have name : IsItem identity.name.toList := ⟨by decide, by decide, by decide⟩
  have culture_free : ∀ culture, identity.culture = some culture → ',' ∉ culture.toList := by
    intro culture given
    obtain rfl := Option.some.inj given
    decide
  obtain ⟨request, read, -, -, culture_eq, token_eq, allowed⟩ := display_selects name culture_free
  exact ⟨by decide +kernel, request, read, culture_eq.trans (by decide +kernel), token_eq, allowed⟩

end Identity

end Managed
