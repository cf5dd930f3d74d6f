import Managed.Text.UpperCase

namespace Managed.Text.Folding

def fold (mapping : Char → List Char) (text : List Char) : List Char :=
  text.flatMap mapping

/-- Takes one character from those already mapped, or else from those still to be mapped. -/
def next? (mapping : Char → List Char) : (mapped rest : List Char) →
    Option (Char × List Char × List Char)
  | char :: mapped, rest => some (char, mapped, rest)
  | [], [] => none
  | [], char :: rest => next? mapping (mapping char) rest

def take? (mapping : Char → List Char) : (expected mapped rest : List Char) →
    Option (List Char × List Char)
  | [], mapped, rest => some (mapped, rest)
  | char :: expected, mapped, rest =>
    match next? mapping mapped rest with
    | some (found, mapped, rest) =>
      if found = char then take? mapping expected mapped rest else none
    | none => none

def agree (mapping : Char → List Char) : (left mapped rest : List Char) → Bool
  | [], mapped, rest => (next? mapping mapped rest).isNone
  | char :: left, mapped, rest =>
    match take? mapping (mapping char) mapped rest with
    | some (mapped, rest) => agree mapping left mapped rest
    | none => false

def same (mapping : Char → List Char) (left right : List Char) : Bool :=
  agree mapping left [] right

theorem fold_append (mapping : Char → List Char) (left right : List Char) :
    fold mapping (left ++ right) = fold mapping left ++ fold mapping right := by
  simp [fold]

end Managed.Text.Folding
