import Managed.Defect
import Managed.Text.Blank
import Managed.Text.Decimal

namespace Managed

structure Version where
  major : UInt16
  minor : UInt16
  build : UInt16
  revision : UInt16
deriving DecidableEq, Repr

namespace Version

def components (version : Version) : List UInt16 :=
  [version.major, version.minor, version.build, version.revision]

/-- The components as the digits of one number, so that the first that differ decide. -/
def rank (version : Version) : Nat :=
  version.components.foldl (fun number component => number * UInt16.size + component.toNat) 0

instance : LE Version := ⟨fun left right => left.rank ≤ right.rank⟩

instance (left right : Version) : Decidable (left ≤ right) :=
  inferInstanceAs (Decidable (left.rank ≤ right.rank))

instance : Ord Version := ⟨fun left right => compare left.rank right.rank⟩

def max (left right : Version) : Version := if left ≤ right then right else left

def min (left right : Version) : Version := if left ≤ right then left else right

def ofComponents (components : List UInt16) : Version :=
  ⟨components.getD 0 0, components.getD 1 0, components.getD 2 0, components.getD 3 0⟩

def displayChars (version : Version) : List Char :=
  ['.'].intercalate (version.components.map fun component => Text.Decimal.render component.toNat)

def display (version : Version) : String := String.ofList version.displayChars

def readComponent? (part : List Char) : Option UInt16 :=
  (Text.Decimal.read? UInt16.size part).map UInt16.ofNat

def readComponents : List (List Char) → Except Defect (List UInt16)
  | [] => .ok []
  | part :: rest =>
    match readComponent? part with
    | none => .error (.versionComponent (String.ofList part))
    | some component => (readComponents rest).map (component :: ·)

/-- One to four components between points; blanks around the whole do not count. -/
def parseChars (text : List Char) : Except Defect Version :=
  let parts := (Text.trim text).splitOn '.'
  if 4 < parts.length then .error (.versionFormat (String.ofList text))
  else (readComponents parts).map ofComponents

def parse (text : String) : Except Defect Version := parseChars text.toList

theorem ofComponents_components (version : Version) :
    ofComponents version.components = version := rfl

end Version

end Managed
