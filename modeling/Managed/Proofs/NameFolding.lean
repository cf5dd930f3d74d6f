import Managed.Module.Basic

namespace Managed

namespace Text.Folding

variable {mapping : Char → List Char}

theorem next?_some {mapped rest mapped' rest' : List Char} {char : Char}
    (next : next? mapping mapped rest = some (char, mapped', rest')) :
    mapped ++ fold mapping rest = char :: (mapped' ++ fold mapping rest') := by
  induction rest generalizing mapped with
  | nil =>
    cases mapped with
    | nil => cases next
    | cons first mapped =>
      cases next
      rfl
  | cons first rest ih =>
    cases mapped with
    | nil => exact ih next
    | cons other mapped =>
      cases next
      rfl

theorem next?_none {mapped rest : List Char} :
    next? mapping mapped rest = none ↔ mapped ++ fold mapping rest = [] := by
  induction rest generalizing mapped with
  | nil => cases mapped <;> simp [next?, fold]
  | cons first rest ih =>
    cases mapped with
    | nil => exact ih
    | cons other mapped => simp [next?]

/-- The expected characters are taken from the front of the mapped text, if they are there. -/
theorem take?_iff {expected mapped rest after : List Char} :
    mapped ++ fold mapping rest = expected ++ after ↔
      ∃ mapped' rest', take? mapping expected mapped rest = some (mapped', rest') ∧
        mapped' ++ fold mapping rest' = after := by
  induction expected generalizing mapped rest with
  | nil =>
    simp only [List.nil_append, take?, Option.some.injEq, Prod.mk.injEq]
    constructor
    · exact fun same => ⟨mapped, rest, ⟨rfl, rfl⟩, same⟩
    · rintro ⟨_, _, ⟨rfl, rfl⟩, same⟩
      exact same
  | cons char expected ih =>
    cases next : next? mapping mapped rest with
    | none => simp [take?, next, next?_none.mp next]
    | some found =>
      obtain ⟨first, mapped', rest'⟩ := found
      rw [next?_some next, List.cons_append, List.cons.injEq, ih]
      by_cases same : first = char
      · simp [take?, next, same]
      · simp [take?, next, same]

theorem agree_iff {left mapped rest : List Char} :
    agree mapping left mapped rest = true ↔
      fold mapping left = mapped ++ fold mapping rest := by
  induction left generalizing mapped rest with
  | nil =>
    rw [agree, Option.isNone_iff_eq_none, next?_none]
    exact eq_comm
  | cons char left ih =>
    have unfolded : fold mapping (char :: left) = mapping char ++ fold mapping left := rfl
    rw [unfolded, agree, eq_comm (a := mapping char ++ _), take?_iff]
    cases taken : take? mapping (mapping char) mapped rest with
    | none => simp
    | some found =>
      obtain ⟨mapped', rest'⟩ := found
      simp only [ih, Option.some.injEq, Prod.mk.injEq]
      constructor
      · exact fun same => ⟨mapped', rest', ⟨rfl, rfl⟩, same.symm⟩
      · rintro ⟨_, _, ⟨rfl, rfl⟩, same⟩
        exact same.symm

theorem same_iff {left right : List Char} :
    same mapping left right = true ↔ fold mapping left = fold mapping right := agree_iff

end Text.Folding

namespace SimpleName

theorem agree_iff {left right : String} :
    agree left right = true ↔ (ofText left).key = (ofText right).key := by
  rw [agree, Text.Folding.same_iff, ofText, ofText, String.ofList_inj]

end SimpleName

namespace Module

variable {loaded : Module} {left right expected : String}

theorem verifyName_eq_ok : loaded.verifyName expected = .ok () ↔
    (SimpleName.ofText loaded.simpleName).key = (SimpleName.ofText expected).key := by
  rw [← SimpleName.agree_iff, verifyName]
  split <;> simp_all

theorem verifyName_eq_error {error : Error} : loaded.verifyName expected = .error error ↔
    (SimpleName.ofText loaded.simpleName).key ≠ (SimpleName.ofText expected).key ∧
      error = .nameMismatch loaded.path expected loaded.simpleName := by
  rw [ne_eq, ← SimpleName.agree_iff, verifyName]
  split
  · simp_all
  · rename_i differs
    refine ⟨fun failed => ⟨differs, (Except.error.inj failed).symm⟩, ?_⟩
    rintro ⟨-, rfl⟩
    rfl

/-- Whether a module has an expected name does not depend on how the name is spelled. -/
theorem verifyName_congr (same : (SimpleName.ofText left).key = (SimpleName.ofText right).key) :
    loaded.verifyName left = .ok () ↔ loaded.verifyName right = .ok () := by
  rw [verifyName_eq_ok, verifyName_eq_ok, same]

end Module

end Managed
