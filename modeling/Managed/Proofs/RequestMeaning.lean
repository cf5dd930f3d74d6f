import Mathlib.Tactic.MkIffOfInductiveProp
import Managed.Identity.Request
import Managed.Proofs.TrimmedText

namespace Managed.Request

open Text

def keyValue? (part : List Char) : Option (List Char × List Char) :=
  (splitOnce '=' part).map fun divided => (trim divided.1, trim divided.2)

def said (key : String) (parts : List (List Char)) : List (List Char) :=
  parts.filterMap fun part =>
    (keyValue? part).bind fun entry => if entry.1 = key.toList then some entry.2 else none

/-- A value that is neither empty nor the word for nothing. -/
def isMeant (nothing : String) (value : List Char) : Bool :=
  !(value.isEmpty || sameAscii value nothing.toList)

theorem isMeant_iff {nothing : String} {value : List Char} :
    isMeant nothing value = true ↔ value ≠ [] ∧ sameAscii value nothing.toList = false := by
  rw [isMeant, Bool.not_or, Bool.and_eq_true, Bool.not_eq_true', Bool.not_eq_true',
    List.isEmpty_eq_false_iff]

@[mk_iff]
structure IsValid (parts : List (List Char)) : Prop where
  version : ∀ text ∈ said "Version" parts, ∃ version, Version.parseChars text = .ok version
  token : ∀ text ∈ said "PublicKeyToken" parts, isMeant "null" text = true →
    ∃ token, PublicKeyToken.parseChars text = .ok token

/-- What is asked for by a name and the parts behind it: the last version, the last culture and the
    last token. -/
def asked (name : String) (parts : List (List Char)) : Request where
  name
  version := (said "Version" parts).getLast?.bind fun text => (Version.parseChars text).toOption
  culture := ((said "Culture" parts).filter (isMeant "neutral")).getLast?.map String.ofList
  token := ((said "PublicKeyToken" parts).filter (isMeant "null")).getLast?.bind fun text =>
    (PublicKeyToken.parseChars text).toOption

def readKeys : List String := ["Version", "Culture", "PublicKeyToken"]

def IsSilent (part : List Char) : Prop :=
  ∀ entry ∈ keyValue? part, ∀ key ∈ readKeys, entry.1 ≠ key.toList

instance (part : List Char) : Decidable (IsSilent part) :=
  inferInstanceAs (Decidable (∀ entry ∈ keyValue? part, ∀ key ∈ readKeys, entry.1 ≠ key.toList))

def spell (name : List Char) (parts : List (List Char)) : String :=
  String.ofList ([','].intercalate (name :: parts))

section Entries

variable {part : List Char} {key other : String} {value : List Char}

theorem keyValue?_append {before : List Char} (free : '=' ∉ before) (after : List Char) :
    keyValue? (before ++ '=' :: after) = some (trim before, trim after) := by
  rw [keyValue?, splitOnce_append free]
  rfl

theorem keyValue?_absent (free : '=' ∉ part) : keyValue? part = none := by
  rw [keyValue?, splitOnce_absent free]
  rfl

theorem keyValue?_gaps {before after : List Char} (before_blank : IsGap before)
    (after_blank : IsGap after) (text : List Char) :
    keyValue? (before ++ text ++ after) = keyValue? text := by
  by_cases divided : '=' ∈ text
  · obtain ⟨key, value, rfl, free⟩ := List.eq_append_cons_of_mem divided
    have whole_free : '=' ∉ before ++ key := by
      rw [List.mem_append]
      exact fun either => either.elim (notMem_gap before_blank (by decide)) free
    have whole : before ++ (key ++ '=' :: value) ++ after =
        (before ++ key) ++ '=' :: (value ++ after) := by simp
    rw [whole, keyValue?_append whole_free, keyValue?_append free, trim_gap_append before_blank,
      trim_append_gap after_blank]
  · have whole_free : '=' ∉ before ++ text ++ after :=
      notMem_padded before_blank after_blank (by decide) divided
    rw [keyValue?_absent divided, keyValue?_absent whole_free]

theorem keyValue?_trim (part : List Char) : keyValue? (trim part) = keyValue? part := by
  obtain ⟨before, after, before_blank, after_blank, part_eq⟩ := exists_gaps part
  conv_rhs => rw [part_eq]
  exact (keyValue?_gaps before_blank after_blank (trim part)).symm

theorem said_append (key : String) (front back : List (List Char)) :
    said key (front ++ back) = said key front ++ said key back := List.filterMap_append

theorem said_part (key : String) (given : keyValue? part = some (other.toList, value)) :
    said key [part] = if other = key then [value] else [] := by
  rw [said, List.filterMap_cons, given, Option.bind_some]
  by_cases same : other = key
  · rw [if_pos same, if_pos (congrArg String.toList same)]
    rfl
  · rw [if_neg same, if_neg fun alike => same (String.toList_injective alike)]
    rfl

theorem said_silent (silent : IsSilent part) (read : key ∈ readKeys) : said key [part] = [] := by
  cases given : keyValue? part with
  | none => rw [said, List.filterMap_cons, given, Option.bind_none, List.filterMap_nil]
  | some entry =>
    have other : entry.1 ≠ key.toList := silent entry given key read
    rw [said, List.filterMap_cons, given, Option.bind_some, if_neg other, List.filterMap_nil]

theorem silent_or_read (part : List Char) :
    IsSilent part ∨ ∃ key ∈ readKeys, ∃ value, keyValue? part = some (key.toList, value) := by
  by_cases silent : IsSilent part
  · exact .inl silent
  · simp only [IsSilent, not_forall, ne_eq, not_not] at silent
    obtain ⟨⟨_, value⟩, given, key, read, rfl⟩ := silent
    exact .inr ⟨key, read, value, given⟩

end Entries

section Adding

variable {part value : List Char} (request : Request)

theorem addPart_silent (silent : IsSilent part) : request.addPart part = .ok request := by
  rw [addPart]
  split
  · rfl
  · rename_i key value divided
    have given : keyValue? part = some (trim key, trim value) := by
      rw [keyValue?, divided]
      rfl
    have other : ∀ known ∈ readKeys, trim key ≠ known.toList := silent _ given
    dsimp only
    rw [if_neg (other _ (by decide)), if_neg (other _ (by decide)), if_neg (other _ (by decide))]

theorem exists_divided {key : List Char} (given : keyValue? part = some (key, value)) :
    ∃ before after, splitOnce '=' part = some (before, after) ∧ trim before = key ∧
      trim after = value := by
  obtain ⟨⟨before, after⟩, divided, same⟩ := Option.map_eq_some_iff.mp given
  exact ⟨before, after, divided, Prod.mk.inj same⟩

theorem addPart_version_entry (given : keyValue? part = some ("Version".toList, value)) :
    request.addPart part =
      (Version.parseChars value).map fun version => { request with version := some version } := by
  obtain ⟨before, after, divided, key_eq, rfl⟩ := exists_divided given
  rw [addPart, divided]
  dsimp only
  rw [key_eq, if_pos rfl]

theorem addPart_culture_entry (given : keyValue? part = some ("Culture".toList, value)) :
    request.addPart part = .ok (if isMeant "neutral" value then
      { request with culture := some (String.ofList value) } else request) := by
  obtain ⟨before, after, divided, key_eq, rfl⟩ := exists_divided given
  rw [addPart, divided]
  dsimp only
  rw [key_eq, if_neg (by decide), if_pos rfl, isMeant]
  cases (trim after).isEmpty || sameAscii (trim after) "neutral".toList <;> rfl

theorem addPart_token_entry (given : keyValue? part = some ("PublicKeyToken".toList, value)) :
    request.addPart part = if isMeant "null" value then
      (PublicKeyToken.parseChars value).map fun token => { request with token := some token }
      else .ok request := by
  obtain ⟨before, after, divided, key_eq, rfl⟩ := exists_divided given
  rw [addPart, divided]
  dsimp only
  rw [key_eq, if_neg (by decide), if_neg (by decide), if_pos rfl, isMeant]
  cases (trim after).isEmpty || sameAscii (trim after) "null".toList <;> rfl

end Adding

theorem isValid_append {front back : List (List Char)} :
    IsValid (front ++ back) ↔ IsValid front ∧ IsValid back := by
  rw [isValid_iff, isValid_iff, isValid_iff, said_append, said_append, List.forall_mem_append,
    List.forall_mem_append, and_and_and_comm]

/-- One more part is read behind the others. -/
theorem addPart_asked (name : String) (parts : List (List Char)) (part : List Char)
    (result : Request) :
    (asked name parts).addPart part = .ok result ↔
      IsValid [part] ∧ asked name (parts ++ [part]) = result := by
  rcases silent_or_read part with silent | ⟨key, member, value, given⟩
  · have no_version : said "Version" [part] = [] := said_silent silent (by decide)
    have no_culture : said "Culture" [part] = [] := said_silent silent (by decide)
    have no_token : said "PublicKeyToken" [part] = [] := said_silent silent (by decide)
    rw [addPart_silent _ silent]
    simp [isValid_iff, asked, said_append, no_version, no_culture, no_token]
  · simp only [readKeys, List.mem_cons, List.not_mem_nil, or_false] at member
    have single := fun key => said_part key given
    rcases member with rfl | rfl | rfl
    · rw [addPart_version_entry _ given]
      cases read : Version.parseChars value with
      | error defect => simp [isValid_iff, single, read, Except.map]
      | ok version =>
        simp [isValid_iff, asked, said_append, single, read, Except.map, Except.toOption]
    · rw [addPart_culture_entry _ given]
      cases meant : isMeant "neutral" value with
      | false => simp [isValid_iff, asked, said_append, single, meant]
      | true => simp [isValid_iff, asked, said_append, single, meant]
    · rw [addPart_token_entry _ given]
      cases meant : isMeant "null" value with
      | false => simp [isValid_iff, asked, said_append, single, meant]
      | true =>
        cases read : PublicKeyToken.parseChars value with
        | error defect => simp [isValid_iff, single, meant, read, Except.map]
        | ok token =>
          simp [isValid_iff, asked, said_append, single, meant, read, Except.map, Except.toOption]

theorem addParts_concat (request : Request) (parts : List (List Char)) (part : List Char)
    (result : Request) :
    request.addParts (parts ++ [part]) = .ok result ↔
      ∃ middle, request.addParts parts = .ok middle ∧ middle.addPart part = .ok result := by
  induction parts generalizing request with
  | nil =>
    cases added : request.addPart part with
    | error defect => simp [addParts, added]
    | ok middle => simp [addParts, added]
  | cons first rest ih =>
    rw [List.cons_append, addParts, addParts]
    cases request.addPart first with
    | error defect => simp
    | ok middle => exact ih middle

theorem addParts_eq_ok (name : String) (parts : List (List Char)) (result : Request) :
    addParts { name } parts = .ok result ↔ IsValid parts ∧ asked name parts = result := by
  induction parts using List.reverseRecOn generalizing result with
  | nil =>
    have no_part_valid : IsValid [] := ⟨nofun, nofun⟩
    exact ⟨fun read => ⟨no_part_valid, Except.ok.inj read⟩, fun both => congrArg _ both.2⟩
  | append_singleton parts part ih =>
    rw [addParts_concat, isValid_append]
    constructor
    · rintro ⟨middle, read, added⟩
      obtain ⟨valid, rfl⟩ := (ih middle).mp read
      obtain ⟨part_valid, rfl⟩ := (addPart_asked name parts part result).mp added
      exact ⟨⟨valid, part_valid⟩, rfl⟩
    · rintro ⟨⟨valid, part_valid⟩, rfl⟩
      exact ⟨asked name parts, (ih _).mpr ⟨valid, rfl⟩,
        (addPart_asked name parts part _).mpr ⟨part_valid, rfl⟩⟩

section Agreement

variable {parts others : List (List Char)}

theorem IsValid.congr (valid : IsValid parts)
    (same : ∀ key ∈ readKeys, said key parts = said key others) : IsValid others where
  version := same "Version" (by decide) ▸ valid.version
  token := same "PublicKeyToken" (by decide) ▸ valid.token

theorem asked_congr (name : String) (same : ∀ key ∈ readKeys, said key parts = said key others) :
    asked name parts = asked name others := by
  rw [asked, asked, same "Version" (by decide), same "Culture" (by decide),
    same "PublicKeyToken" (by decide)]

theorem said_trim (key : String) (parts : List (List Char)) :
    said key (parts.map trim) = said key parts := by
  simp only [said, List.filterMap_map, Function.comp_def, keyValue?_trim]

end Agreement

theorem splitOn_spell {name : List Char} {parts : List (List Char)} (name_free : ',' ∉ name)
    (parts_free : ∀ part ∈ parts, ',' ∉ part) :
    (spell name parts).toList.splitOn ',' = name :: parts := by
  rw [spell, String.toList_ofList]
  apply List.splitOn_intercalate
  · exact List.forall_mem_cons.mpr ⟨name_free, parts_free⟩
  · exact List.cons_ne_nil _ _

/-- A display name is read if there is a name and every part can be read. -/
theorem parse_spell_eq_ok {name : List Char} {parts : List (List Char)} (name_free : ',' ∉ name)
    (parts_free : ∀ part ∈ parts, ',' ∉ part) (result : Request) :
    parse (spell name parts) = .ok result ↔
      trim name ≠ [] ∧ IsValid parts ∧ asked (String.ofList (trim name)) parts = result := by
  have same : ∀ key ∈ readKeys, said key (parts.map trim) = said key parts := fun key _ =>
    said_trim key parts
  rw [parse, parseChars, splitOn_spell name_free parts_free, List.map_cons]
  dsimp only
  split
  · rename_i nothing
    simp [List.isEmpty_iff.mp nothing]
  · rename_i some_char
    rw [addParts_eq_ok, asked_congr _ same]
    constructor
    · intro both
      exact ⟨fun nothing => some_char (List.isEmpty_iff.mpr nothing), both.1.congr same, both.2⟩
    · intro all
      exact ⟨all.2.1.congr fun key member => (same key member).symm, all.2.2⟩

end Managed.Request
