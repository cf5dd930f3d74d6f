import Mathlib.Logic.Relation
import Managed.Catalog.Basic
import Managed.Proofs.NameFolding
import Managed.Proofs.RegisteredNames

namespace Managed

namespace Text.Folding

variable (mapping : Char → List Char)

theorem same_equivalence : Equivalence fun left right => same mapping left right = true where
  refl _ := same_iff.mpr rfl
  symm agreed := same_iff.mpr (same_iff.mp agreed).symm
  trans first second := same_iff.mpr ((same_iff.mp first).trans (same_iff.mp second))

/-- Where two texts are put together, the mapped characters of both come one after another, so that
    nothing is compared across the seam. -/
theorem same_append {left right left' right' : List Char}
    (front : same mapping left right = true) (back : same mapping left' right' = true) :
    same mapping (left ++ left') (right ++ right') = true := by
  rw [same_iff] at front back ⊢
  rw [fold_append, fold_append, front, back]

end Text.Folding

namespace SimpleName

theorem agree_iff_isSame (left right : String) :
    agree left right = true ↔ (ofText left).isSame (ofText right) = true := by
  rw [agree_iff, isSame, decide_eq_true_iff]

example : agree "Straße" "STRASSE" = true := by decide +kernel

theorem agree_equivalence : Equivalence fun left right : String => agree left right = true :=
  (Text.Folding.same_equivalence Text.UpperCase.upper).comap String.toList

theorem agree_append {left right left' right' : String} (front : agree left right = true)
    (back : agree left' right' = true) : agree (left ++ left') (right ++ right') = true := by
  rw [agree, String.toList_append, String.toList_append]
  exact Text.Folding.same_append Text.UpperCase.upper front back

end SimpleName

namespace PathTable

variable {table : PathTable} {left right : String} {entry : SimpleName × List Path}

/-- The spellings that find an entry of a table are those that agree with one that does. -/
theorem find?_iff_agree (found : table.find? left = some entry) :
    table.find? right = some entry ↔ SimpleName.agree left right = true := by
  rw [SimpleName.agree_iff]
  constructor
  · intro found_too
    exact (key_of_find? found).symm.trans (key_of_find? found_too)
  · intro same
    rw [← table.find?_congr same, found]

end PathTable

namespace Catalog

inductive FindsSame (catalog : Catalog) (left right : String) : Prop where
  | input (entry : SimpleName × List Path) (first : catalog.tables.inputs.find? left = some entry)
      (second : catalog.tables.inputs.find? right = some entry)
  | reference (entry : SimpleName × List Path)
      (first : catalog.tables.references.find? left = some entry)
      (second : catalog.tables.references.find? right = some entry)
  | candidates (entry : String × List Module) (kept : entry ∈ catalog.store.names.entries)
      (first : (SimpleName.ofText left).key = entry.1)
      (second : (SimpleName.ofText right).key = entry.1)

theorem FindsSame.agree {catalog : Catalog} {left right : String}
    (finds : catalog.FindsSame left right) : SimpleName.agree left right = true := by
  cases finds with
  | input entry first second => exact (PathTable.find?_iff_agree first).mp second
  | reference entry first second => exact (PathTable.find?_iff_agree first).mp second
  | candidates entry kept first second => exact SimpleName.agree_iff.mpr (first.trans second.symm)

end Catalog

/-- Whatever the upper case of a character is, comparing two names on the way is comparing their
    keys: an equivalence that is kept where names are put together. So a module that has a name in
    one spelling has it in all that find the same entry of a catalog. -/
theorem SimpleName.spellings_agree :
    (∀ mapping : Char → List Char,
        (∀ left right, Text.Folding.same mapping left right = true ↔
          Text.Folding.fold mapping left = Text.Folding.fold mapping right) ∧
        (Equivalence fun left right => Text.Folding.same mapping left right = true) ∧
        ∀ left right left' right', Text.Folding.same mapping left right = true →
          Text.Folding.same mapping left' right' = true →
          Text.Folding.same mapping (left ++ left') (right ++ right') = true) ∧
      (∀ left right : String,
        agree left right = true ↔ (ofText left).isSame (ofText right) = true) ∧
      (Equivalence fun left right : String => agree left right = true) ∧
      (∀ left right left' right' : String, agree left right = true → agree left' right' = true →
        agree (left ++ left') (right ++ right') = true) ∧
      ∀ (catalog : Catalog) (left right : String), catalog.FindsSame left right →
        ∀ loaded : Module, loaded.verifyName left = .ok () → loaded.verifyName right = .ok () := by
  refine ⟨fun mapping => ⟨?_, Text.Folding.same_equivalence mapping, ?_⟩, agree_iff_isSame,
    agree_equivalence, fun _ _ _ _ => agree_append, ?_⟩
  · exact fun _ _ => Text.Folding.same_iff
  · exact fun _ _ _ _ => Text.Folding.same_append mapping
  · intro catalog left right finds loaded accepted
    exact (Module.verifyName_congr (agree_iff.mp finds.agree)).mp accepted

end Managed
