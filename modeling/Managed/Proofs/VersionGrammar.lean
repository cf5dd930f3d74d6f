import Mathlib.Data.List.Forall2
import Mathlib.Data.Nat.Digits.Defs
import Managed.Proofs.Outcomes
import Managed.Proofs.VersionText

namespace Managed

namespace Text.Decimal

def IsDigit (char : Char) : Prop := '0' ≤ char ∧ char ≤ '9'

instance (char : Char) : Decidable (IsDigit char) := inferInstanceAs (Decidable (_ ∧ _))

def value (digits : List Char) : Nat :=
  Nat.ofDigits 10 (digits.map fun char => char.toNat - '0'.toNat).reverse

/-- One or more digits, which a plus sign may precede. Any number of them may be leading zeros. -/
inductive Denotes : List Char → Nat → Prop where
  | bare {digits : List Char} (nonempty : digits ≠ []) (plain : ∀ char ∈ digits, IsDigit char) :
    Denotes digits (value digits)
  | signed {digits : List Char} (nonempty : digits ≠ []) (plain : ∀ char ∈ digits, IsDigit char) :
    Denotes ('+' :: digits) (value digits)

theorem digitValue?_of_isDigit {char : Char} (plain : IsDigit char) :
    digitValue? char = some (char.toNat - '0'.toNat) := if_pos plain

theorem digitValue?_eq_none {char : Char} (other : ¬ IsDigit char) : digitValue? char = none :=
  if_neg other

theorem value_cons (char : Char) (rest : List Char) :
    value (char :: rest) = (char.toNat - '0'.toNat) * 10 ^ rest.length + value rest := by
  rw [value, List.map_cons, Nat.ofDigits_reverse_cons, List.length_map, Nat.mul_comm, Nat.add_comm]
  rfl

/-- The digits are read to their end exactly if the number stays below the limit, since every prefix
    denotes a number that is no larger. -/
theorem readDigits_eq_some {limit number result : Nat} {digits : List Char}
    (below : number < limit) : readDigits limit number digits = some result ↔
      (∀ char ∈ digits, IsDigit char) ∧ number * 10 ^ digits.length + value digits = result ∧
        result < limit := by
  induction digits generalizing number with
  | nil =>
    simp only [readDigits, value, Option.some.injEq]
    constructor
    · rintro rfl
      exact ⟨List.forall_mem_nil _, by simp, below⟩
    · rintro ⟨-, same, -⟩
      simpa using same
  | cons char rest ih =>
    rw [List.forall_mem_cons, readDigits]
    by_cases plain : IsDigit char
    · have shifted : ∀ digit : Nat, number * 10 ^ (rest.length + 1) +
          (digit * 10 ^ rest.length + value rest) =
            (number * 10 + digit) * 10 ^ rest.length + value rest := by
        intro digit
        rw [Nat.pow_succ', Nat.add_mul, Nat.mul_assoc, Nat.add_assoc]
      rw [digitValue?_of_isDigit plain, value_cons, List.length_cons, shifted]
      dsimp only
      split
      · rename_i next_below
        rw [ih next_below]
        simp [plain]
      · rename_i large
        refine iff_of_false (Option.some_ne_none result).symm ?_
        rintro ⟨-, rfl, result_below⟩
        have weight : 0 < 10 ^ rest.length := Nat.pow_pos (by decide)
        have grown := Nat.le_mul_of_pos_right (number * 10 + (char.toNat - '0'.toNat)) weight
        omega
    · rw [digitValue?_eq_none plain]
      exact iff_of_false (Option.some_ne_none result).symm fun all => plain all.1.1

section Numerals

variable {digits : List Char} {number : Nat}

theorem denotes_signed : Denotes ('+' :: digits) number ↔
    digits ≠ [] ∧ (∀ char ∈ digits, IsDigit char) ∧ value digits = number := by
  constructor
  · intro numeral
    cases numeral with
    | bare _ plain => exact absurd (plain '+' List.mem_cons_self) (by decide)
    | signed nonempty plain => exact ⟨nonempty, plain, rfl⟩
  · rintro ⟨nonempty, plain, rfl⟩
    exact .signed nonempty plain

theorem denotes_bare (unsigned : ∀ rest, digits ≠ '+' :: rest) : Denotes digits number ↔
    digits ≠ [] ∧ (∀ char ∈ digits, IsDigit char) ∧ value digits = number := by
  constructor
  · intro numeral
    cases numeral with
    | bare nonempty plain => exact ⟨nonempty, plain, rfl⟩
    | signed _ _ => exact absurd rfl (unsigned _)
  · rintro ⟨nonempty, plain, rfl⟩
    exact .bare nonempty plain

theorem read?_eq_some {limit : Nat} (some_below : 0 < limit) (text : List Char) :
    read? limit text = some number ↔ Denotes text number ∧ number < limit := by
  have read : ∀ digits : List Char,
      (if digits.isEmpty then none else readDigits limit 0 digits) = some number ↔
        (digits ≠ [] ∧ (∀ char ∈ digits, IsDigit char) ∧ value digits = number) ∧
          number < limit := by
    intro digits
    by_cases empty : digits = []
    · simp [empty]
    · rw [if_neg (by simpa using empty), readDigits_eq_some some_below, Nat.zero_mul, Nat.zero_add]
      simp [empty, and_assoc]
  unfold read?
  split
  · rw [read, denotes_signed]
  · rename_i unsigned
    rw [read, denotes_bare unsigned]

end Numerals

end Text.Decimal

namespace Version

open Text

/-- A text whose parts between points, without the blanks around the whole, denote the components of
    a version. Components that are not given are zero. -/
def Spells (text : List Char) (version : Version) : Prop :=
  ∃ numbers : List Nat, List.Forall₂ Decimal.Denotes ((trim text).splitOn '.') numbers ∧
    1 ≤ numbers.length ∧ numbers.length ≤ 4 ∧ (∀ number ∈ numbers, number ≤ 65535) ∧
    version.components.map UInt16.toNat = numbers ++ List.replicate (4 - numbers.length) 0

def IsComponent (part : List Char) : Prop := ∃ number ≤ 65535, Decimal.Denotes part number

inductive Refuses (text : List Char) : Defect → Prop where
  | format (long : 4 < ((trim text).splitOn '.').length) :
    Refuses text (.versionFormat (String.ofList text))
  | component {before after : List (List Char)} {part : List Char}
    (short : ((trim text).splitOn '.').length ≤ 4)
    (parts : (trim text).splitOn '.' = before ++ part :: after)
    (read : ∀ other ∈ before, IsComponent other) (unread : ¬ IsComponent part) :
    Refuses text (.versionComponent (String.ofList part))

theorem readComponent?_eq_some {part : List Char} {component : UInt16} :
    readComponent? part = some component ↔ Decimal.Denotes part component.toNat := by
  have below := component.toNat_lt
  rw [readComponent?, Option.map_eq_some_iff]
  constructor
  · rintro ⟨number, read, rfl⟩
    obtain ⟨numeral, small⟩ := (Decimal.read?_eq_some (by decide) part).mp read
    rwa [UInt16.toNat_ofNat_of_lt' small]
  · intro numeral
    refine ⟨component.toNat, ?_, UInt16.ofNat_toNat⟩
    exact (Decimal.read?_eq_some (by decide) part).mpr ⟨numeral, below⟩

theorem isComponent_iff {part : List Char} :
    IsComponent part ↔ ∃ component, readComponent? part = some component := by
  simp only [readComponent?_eq_some]
  constructor
  · rintro ⟨number, small, numeral⟩
    refine ⟨UInt16.ofNat number, ?_⟩
    rwa [UInt16.toNat_ofNat_of_lt' (by simpa [UInt16.size] using Nat.lt_succ_of_le small)]
  · rintro ⟨component, numeral⟩
    exact ⟨component.toNat, Nat.le_of_lt_succ component.toNat_lt, numeral⟩

theorem readComponents_read {parts : List (List Char)} {components : List UInt16}
    (numerals : List.Forall₂ Decimal.Denotes parts (components.map UInt16.toNat)) :
    readComponents parts = .ok components := by
  induction components generalizing parts with
  | nil =>
    rw [List.map_nil, List.forall₂_nil_right_iff] at numerals
    rw [numerals, readComponents]
  | cons component others ih =>
    obtain ⟨part, rest, numeral, rest_numerals, rfl⟩ := List.forall₂_cons_right_iff.mp numerals
    rw [readComponents, readComponent?_eq_some.mpr numeral, ih rest_numerals]
    rfl

theorem readComponents_stopped {before : List (List Char)} {part : List Char}
    (read : ∀ other ∈ before, IsComponent other) (unread : ¬ IsComponent part)
    (after : List (List Char)) :
    readComponents (before ++ part :: after) = .error (.versionComponent (String.ofList part)) := by
  induction before with
  | nil =>
    have nothing : readComponent? part = none := by
      rw [Option.eq_none_iff_forall_ne_some]
      exact fun component found => unread (isComponent_iff.mpr ⟨component, found⟩)
    rw [List.nil_append, readComponents, nothing]
  | cons first rest ih =>
    obtain ⟨first_read, rest_read⟩ := List.forall_mem_cons.mp read
    obtain ⟨component, found⟩ := isComponent_iff.mp first_read
    rw [List.cons_append, readComponents, found, ih rest_read]
    rfl

/-- The parts are all read, or the first that is not is the one that is reported. -/
theorem settled_readComponents (parts : List (List Char)) :
    Settled (readComponents parts)
      (fun components => List.Forall₂ Decimal.Denotes parts (components.map UInt16.toNat))
      (fun defect => ∃ before part after, parts = before ++ part :: after ∧
        (∀ other ∈ before, IsComponent other) ∧ ¬ IsComponent part ∧
          defect = .versionComponent (String.ofList part)) where
  value := fun _ => readComponents_read
  fault := by
    rintro _ ⟨before, part, after, rfl, read, unread, rfl⟩
    exact readComponents_stopped read unread after
  total := by
    induction parts with
    | nil => exact .inl ⟨[], .nil⟩
    | cons first rest ih =>
      by_cases first_read : IsComponent first
      · rcases ih with ⟨components, numerals⟩ | ⟨_, before, part, after, rfl, read, unread, _⟩
        · obtain ⟨component, found⟩ := isComponent_iff.mp first_read
          exact .inl ⟨component :: components, .cons (readComponent?_eq_some.mp found) numerals⟩
        · exact .inr ⟨_, first :: before, part, after, rfl,
            List.forall_mem_cons.mpr ⟨first_read, read⟩, unread, rfl⟩
      · exact .inr ⟨_, [], first, rest, rfl, nofun, first_read, rfl⟩

theorem components_ofComponents {components : List UInt16} (short : components.length ≤ 4) :
    (ofComponents components).components.map UInt16.toNat =
      components.map UInt16.toNat ++ List.replicate (4 - components.length) 0 := by
  match components, short with
  | [], _ => rfl
  | [_], _ => rfl
  | [_, _], _ => rfl
  | [_, _, _], _ => rfl
  | [_, _, _, _], _ => rfl

theorem toNat_components_injective {version other : Version}
    (same : version.components.map UInt16.toNat = other.components.map UInt16.toNat) :
    version = other := by
  have same_components := List.map_injective_iff.mpr (fun _ _ => UInt16.toNat_inj.mp) same
  rw [← ofComponents_components version, ← ofComponents_components other, same_components]

theorem Spells.parse {text : List Char} {version : Version} (spelled : Spells text version) :
    parseChars text = .ok version := by
  obtain ⟨numbers, numerals, -, short, small, version_eq⟩ := spelled
  have whole : (numbers.map UInt16.ofNat).map UInt16.toNat = numbers := by
    rw [List.map_map]
    refine (List.map_congr_left fun number member => ?_).trans (List.map_id numbers)
    exact UInt16.toNat_ofNat_of_lt' (Nat.lt_succ_of_le (small number member))
  have length_eq := numerals.length_eq
  have done := readComponents_read (whole.symm ▸ numerals)
  rw [parseChars, if_neg (by omega), done]
  refine congrArg Except.ok (toNat_components_injective ?_)
  rw [components_ofComponents (by rwa [List.length_map]), whole, List.length_map, version_eq]

theorem spells_ofComponents {text : List Char} {components : List UInt16}
    (short : ((trim text).splitOn '.').length ≤ 4)
    (numerals : List.Forall₂ Decimal.Denotes ((trim text).splitOn '.')
      (components.map UInt16.toNat)) : Spells text (ofComponents components) := by
  have some_part : 1 ≤ ((trim text).splitOn '.').length :=
    List.length_pos_iff.mpr (List.splitOn_ne_nil '.' (trim text))
  have length_eq := numerals.length_eq
  rw [length_eq] at some_part short
  refine ⟨components.map UInt16.toNat, numerals, some_part, short, ?_, ?_⟩
  · intro number member
    obtain ⟨component, -, rfl⟩ := List.mem_map.mp member
    exact Nat.le_of_lt_succ component.toNat_lt
  · rw [List.length_map] at short ⊢
    exact components_ofComponents short

theorem settled_parseChars (text : List Char) :
    Settled (parseChars text) (Spells text) (Refuses text) where
  value := fun _ spelled => spelled.parse
  fault := by
    intro _ refused
    cases refused with
    | format long => rw [parseChars, if_pos long]
    | component short parts read unread =>
      rw [parseChars, if_neg (Nat.not_lt.mpr short), parts, readComponents_stopped read unread]
      rfl
  total := by
    rcases Nat.lt_or_ge 4 ((trim text).splitOn '.').length with long | short
    · exact .inr ⟨_, .format long⟩
    · rcases (settled_readComponents ((trim text).splitOn '.')).total with
        ⟨components, numerals⟩ | ⟨_, before, part, after, parts, read, unread, _⟩
      · exact .inl ⟨_, spells_ofComponents short numerals⟩
      · exact .inr ⟨_, .component short parts read unread⟩

theorem parse_display (version : Version) : parse version.display = .ok version := by
  rw [parse, display, String.toList_ofList, parseChars_displayChars]

def respell (text : String) : Except Defect String := (parse text).map display

theorem respell_display (version : Version) : respell version.display = .ok version.display := by
  rw [respell, parse_display]
  rfl

/-- A text is read as the version that it spells, and refused if it spells none. A version is shown
    by a text that spells it and no other one, so that what is shown is shown again as it is. -/
theorem texts_spell_versions :
    (∀ text version, parse text = .ok version ↔ Spells text.toList version) ∧
    (∀ text defect, parse text = .error defect ↔ Refuses text.toList defect) ∧
    (∀ version : Version, parse version.display = .ok version) ∧
    Function.Injective display ∧
    ∀ text, (respell text).bind respell = respell text := by
  refine ⟨fun text _ => (settled_parseChars text.toList).eq_ok,
    fun text _ => (settled_parseChars text.toList).eq_error, parse_display, ?_, ?_⟩
  · intro version other alike
    have again := parse_display version
    rw [alike, parse_display other] at again
    exact (Except.ok.inj again).symm
  · intro text
    cases parsed : parse text with
    | error defect =>
      rw [respell, parsed]
      rfl
    | ok version =>
      have shown : respell text = .ok version.display := by
        rw [respell, parsed]
        rfl
      rw [shown, Except.bind, respell_display]

example : parse " +1.0065535 " = .ok ⟨1, 65535, 0, 0⟩ := by decide +kernel

end Version

end Managed
