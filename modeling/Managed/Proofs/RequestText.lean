import Managed.Proofs.RequestMeaning
import Managed.Proofs.TokenText
import Managed.Proofs.VersionText

namespace Managed.Request

open Text

structure IsItem (text : List Char) : Prop where
  nonempty : text ≠ []
  trimmed : IsTrimmed text
  free : ',' ∉ text

theorem isItem_trim {text : List Char} (free : ',' ∉ text) (some_char : trim text ≠ []) :
    IsItem (trim text) :=
  ⟨some_char, isTrimmed_trim text, fun member => free ((trim_sublist text).subset member)⟩

theorem isItem_version (version : Version) : IsItem version.displayChars where
  nonempty := version.displayChars_ne_nil
  trimmed := version.isTrimmed_displayChars
  free := by
    intro member
    have digits : ∀ value < 10, ',' ≠ Decimal.digit value := by decide
    rcases Version.mem_displayChars member with point | ⟨value, below, same⟩
    · cases point
    · exact digits value below same

theorem isItem_token {token : PublicKeyToken} (some_byte : token.bytes ≠ []) :
    IsItem token.displayChars where
  nonempty := fun nothing => some_byte (Hex.encode_eq_nil.mp nothing)
  trimmed := token.isTrimmed_displayChars
  free := by
    intro member
    have digits : ∀ value < 16, ',' ≠ Hex.digit value := by decide
    obtain ⟨value, below, same⟩ := Hex.mem_encode member
    exact digits value below same

/-- A request as it can be parsed: its texts can stand between commas, and no word for nothing is
    taken for a culture. -/
structure IsParsed (request : Request) : Prop where
  name : IsItem request.name.toList
  culture : ∀ culture, request.culture = some culture →
    IsItem culture.toList ∧ sameAscii culture.toList "neutral".toList = false
  token : ∀ token, request.token = some token → token.bytes ≠ []

theorem map_eq_ok {α : Type} {parsed : Except Defect α} {next : α → Request} {result : Request} :
    parsed.map next = .ok result ↔ ∃ value, parsed = .ok value ∧ next value = result := by
  cases parsed with
  | error defect => simp [Except.map]
  | ok value => simp [Except.map]

theorem isParsed_addPart {request result : Request} (parsed : request.IsParsed) {part : List Char}
    (free : ',' ∉ part) (added : request.addPart part = .ok result) : result.IsParsed := by
  rcases silent_or_read part with silent | ⟨key, member, value, given⟩
  · rw [addPart_silent _ silent] at added
    cases added
    exact parsed
  · obtain ⟨before, after, divided, -, rfl⟩ := exists_divided given
    have after_free : ',' ∉ after := fun member => free ((splitOnce_sublist divided).subset member)
    simp only [readKeys, List.mem_cons, List.not_mem_nil, or_false] at member
    rcases member with rfl | rfl | rfl
    · rw [addPart_version_entry _ given] at added
      obtain ⟨version, -, rfl⟩ := map_eq_ok.mp added
      exact ⟨parsed.name, parsed.culture, parsed.token⟩
    · rw [addPart_culture_entry _ given] at added
      cases added
      split
      · rename_i meant
        obtain ⟨some_char, other⟩ := isMeant_iff.mp meant
        refine ⟨parsed.name, ?_, parsed.token⟩
        intro culture same
        obtain rfl := Option.some.inj same
        rw [String.toList_ofList]
        exact ⟨isItem_trim after_free some_char, other⟩
      · exact parsed
    · rw [addPart_token_entry _ given] at added
      split at added
      · rename_i meant
        obtain ⟨token, read, rfl⟩ := map_eq_ok.mp added
        obtain ⟨some_char, -⟩ := isMeant_iff.mp meant
        refine ⟨parsed.name, parsed.culture, ?_⟩
        intro other same
        obtain rfl := Option.some.inj same
        exact PublicKeyToken.ne_nil_of_parseChars (isTrimmed_trim after) some_char read
      · cases added
        exact parsed

theorem isParsed_addParts {request result : Request} (parsed : request.IsParsed)
    {parts : List (List Char)} (free : ∀ part ∈ parts, ',' ∉ part)
    (added : request.addParts parts = .ok result) : result.IsParsed := by
  induction parts generalizing request with
  | nil =>
    cases added
    exact parsed
  | cons part rest ih =>
    obtain ⟨first_free, rest_free⟩ := List.forall_mem_cons.mp free
    rw [addParts] at added
    cases first : request.addPart part with
    | error defect =>
      rw [first] at added
      cases added
    | ok middle =>
      rw [first] at added
      exact ih (isParsed_addPart parsed first_free first) rest_free added

theorem isParsed_of_parseChars {text : List Char} {request : Request}
    (parsed : parseChars text = .ok request) : request.IsParsed := by
  obtain ⟨name, parts, split_eq⟩ := List.exists_cons_of_ne_nil (List.splitOn_ne_nil ',' text)
  have free : ∀ part ∈ name :: parts, ',' ∉ part := fun part member =>
    notMem_of_mem_splitOn (split_eq ▸ member)
  obtain ⟨name_free, parts_free⟩ := List.forall_mem_cons.mp free
  rw [parseChars, split_eq, List.map_cons] at parsed
  dsimp only at parsed
  split at parsed
  · cases parsed
  · rename_i some_char
    refine isParsed_addParts ⟨?_, by simp, by simp⟩ ?_ parsed
    · rw [String.toList_ofList]
      exact isItem_trim name_free fun nothing => some_char (List.isEmpty_iff.mpr nothing)
    · intro part member
      obtain ⟨other, other_member, rfl⟩ := List.mem_map.mp member
      exact fun comma => parts_free other other_member ((trim_sublist other).subset comma)

def keyed (key : String) (value : List Char) : List Char := key.toList ++ '=' :: value

def shownParts (request : Request) : List (List Char) :=
  (request.version.map fun version => keyed "Version" version.displayChars).toList ++
    (request.culture.map fun culture => keyed "Culture" culture.toList).toList ++
    (request.token.map fun token => keyed "PublicKeyToken" token.displayChars).toList

theorem displayChars_eq (request : Request) :
    request.displayChars =
      [','].intercalate (request.name.toList :: request.shownParts.map (' ' :: ·)) := by
  obtain ⟨name, version, culture, token⟩ := request
  rw [intercalate_cons, displayChars, shownParts]
  cases version <;> cases culture <;> cases token <;> simp [keyed]

/-- The characters of a key, and what tells it from its value, are neither blanks nor commas. -/
theorem isItem_keyed {key : String} {value : List Char} (item : IsItem value)
    (plain : ((key.toList ++ ['=']).all fun char => !isBlank char && char != ',') = true) :
    IsItem (keyed key value) := by
  have whole : keyed key value = (key.toList ++ ['=']) ++ value := by
    rw [keyed, List.append_assoc]
    rfl
  have kept : ∀ char ∈ key.toList ++ ['='], isBlank char = false ∧ char ≠ ',' := by
    intro char member
    simpa using List.all_eq_true.mp plain char member
  have some_char : key.toList ++ ['='] ≠ [] := List.append_ne_nil_of_right_ne_nil _ (by simp)
  have trimmed : IsTrimmed (key.toList ++ ['=']) :=
    isTrimmed_of_forall fun char member => (kept char member).1
  rw [whole]
  refine ⟨List.append_ne_nil_of_right_ne_nil _ item.nonempty,
    trimmed.append item.trimmed some_char item.nonempty, ?_⟩
  rw [List.mem_append]
  exact fun either => either.elim (fun comma => (kept _ comma).2 rfl) item.free

theorem isItem_shownParts {request : Request} (parsed : request.IsParsed) {part : List Char}
    (member : part ∈ request.shownParts) : IsItem part := by
  simp only [shownParts, List.mem_append, Option.mem_toList, Option.map_eq_some_iff] at member
  rcases member with (⟨version, -, rfl⟩ | ⟨culture, some_culture, rfl⟩) | ⟨token, some_token, rfl⟩
  · exact isItem_keyed (isItem_version version) (by decide)
  · exact isItem_keyed (parsed.culture culture some_culture).1 (by decide)
  · exact isItem_keyed (isItem_token (parsed.token token some_token)) (by decide)

theorem keyValue?_keyed {key : String} (read : key ∈ readKeys) (value : List Char) :
    keyValue? (keyed key value) = some (key.toList, trim value) := by
  have keys : ∀ key ∈ readKeys, '=' ∉ key.toList ∧ trim key.toList = key.toList := by decide
  obtain ⟨free, trimmed⟩ := keys key read
  rw [keyed, keyValue?_append free, trimmed]

theorem addPart_version (request : Request) (version : Version) :
    request.addPart (keyed "Version" version.displayChars) =
      .ok { request with version := some version } := by
  rw [addPart_version_entry _ (keyValue?_keyed (by decide) _),
    (isItem_version version).trimmed.trim_eq_self, version.parseChars_displayChars]
  rfl

theorem addPart_culture (request : Request) {culture : String} (item : IsItem culture.toList)
    (meant : sameAscii culture.toList "neutral".toList = false) :
    request.addPart (keyed "Culture" culture.toList) =
      .ok { request with culture := some culture } := by
  rw [addPart_culture_entry _ (keyValue?_keyed (by decide) _), item.trimmed.trim_eq_self,
    if_pos (isMeant_iff.mpr ⟨item.nonempty, meant⟩), String.ofList_toList]

/-- No digit is a letter of the word for no token. -/
theorem sameAscii_token {token : PublicKeyToken} (some_byte : token.bytes ≠ []) :
    sameAscii token.displayChars "null".toList = false := by
  have digits : ∀ value < 16, (Hex.digit value).toLower ≠ 'n' := by decide
  obtain ⟨first, rest, text_eq⟩ :=
    List.exists_cons_of_ne_nil (isItem_token some_byte).nonempty
  have member : first ∈ token.displayChars := text_eq ▸ List.mem_cons_self
  obtain ⟨value, below, rfl⟩ := Hex.mem_encode member
  rw [text_eq, sameAscii, decide_eq_false_iff_not, List.map_cons]
  exact fun same => digits value below (List.cons.inj same).1

theorem isMeant_displayChars {token : PublicKeyToken} (some_byte : token.bytes ≠ []) :
    isMeant "null" token.displayChars = true :=
  isMeant_iff.mpr ⟨(isItem_token some_byte).nonempty, sameAscii_token some_byte⟩

theorem addPart_token (request : Request) {token : PublicKeyToken} (some_byte : token.bytes ≠ []) :
    request.addPart (keyed "PublicKeyToken" token.displayChars) =
      .ok { request with token := some token } := by
  rw [addPart_token_entry _ (keyValue?_keyed (by decide) _),
    (isItem_token some_byte).trimmed.trim_eq_self, if_pos (isMeant_displayChars some_byte),
    token.parseChars_displayChars]
  rfl

theorem addParts_shownParts {request : Request} (parsed : request.IsParsed) :
    addParts { name := request.name } request.shownParts = .ok request := by
  obtain ⟨name, version, culture, token⟩ := request
  have culture_added := fun (start : Request) culture some_culture =>
    have meant := parsed.culture culture some_culture
    addPart_culture start meant.1 meant.2
  have token_added := fun (start : Request) token some_token =>
    addPart_token start (parsed.token token some_token)
  cases version <;> cases culture <;> cases token <;>
    simp [shownParts, addParts, addPart_version, culture_added, token_added]

theorem parseChars_displayChars {request : Request} (parsed : request.IsParsed) :
    parseChars request.displayChars = .ok request := by
  have parts_eq : request.displayChars.splitOn ',' =
      request.name.toList :: request.shownParts.map (' ' :: ·) := by
    rw [displayChars_eq]
    apply List.splitOn_intercalate
    · refine List.forall_mem_cons.mpr ⟨parsed.name.free, ?_⟩
      intro part member
      obtain ⟨shown, shown_member, rfl⟩ := List.mem_map.mp member
      have free := (isItem_shownParts parsed shown_member).free
      simp [free]
    · exact List.cons_ne_nil _ _
  have trimmed : (request.shownParts.map (' ' :: ·)).map trim = request.shownParts := by
    rw [List.map_map]
    refine (List.map_congr_left fun part member => ?_).trans (List.map_id' _)
    exact (trim_cons_blank (by decide) part).trans
      (isItem_shownParts parsed member).trimmed.trim_eq_self
  rw [parseChars, parts_eq, List.map_cons, trimmed, parsed.name.trimmed.trim_eq_self]
  dsimp only
  rw [if_neg (by simp [parsed.name.nonempty]), String.ofList_toList]
  exact addParts_shownParts parsed

/-- A request that has been parsed is parsed again from the text that shows it, so that two such
    requests are the same if they are shown alike. -/
theorem display_normal_form {text other : String} {request wanted : Request}
    (parsed : parse text = .ok request) (other_parsed : parse other = .ok wanted) :
    parse request.display = .ok request ∧
      (request.display = wanted.display ↔ request = wanted) := by
  have shown : ∀ {text : String} {request : Request}, parse text = .ok request →
      parse request.display = .ok request := by
    intro text request parsed
    rw [parse, display, String.toList_ofList]
    exact parseChars_displayChars (isParsed_of_parseChars parsed)
  refine ⟨shown parsed, fun alike => ?_, fun same => by rw [same]⟩
  have again := shown parsed
  rw [alike, shown other_parsed] at again
  exact (Except.ok.inj again).symm

theorem respelled_request_shown :
    let text := "A=b c,culture=x, Culture = de=F0 ,Version= 1.+2 , PublicKeyToken=B77A"
    let other := " A=b c ,PublicKeyToken=null,Other,Culture=de=F0,PublicKeyToken=b77a,Version=1.2.0"
    let request : Request :=
      { name := "A=b c", version := some ⟨1, 2, 0, 0⟩, culture := some "de=F0",
        token := some ⟨[0xB7, 0x7A]⟩ }
    parse text = .ok request ∧ parse other = .ok request ∧ parse request.display = .ok request := by
  intro text other request
  have parsed : parse text = .ok request := by decide +kernel
  have other_parsed : parse other = .ok request := by decide +kernel
  exact ⟨parsed, other_parsed, (display_normal_form parsed other_parsed).1⟩

end Managed.Request
