import Managed.Text.Split

namespace Managed

abbrev Path := String

namespace Path

def segments (path : Path) : List (List Char) :=
  path.toList.splitOn '/'

def isIdle (segment : List Char) : Bool :=
  segment.isEmpty || segment = ['.']

/-- Drops idle segments from the end of reversed segments; the first segment of a path stays. -/
def dropIdle : List (List Char) → List (List Char)
  | last :: before :: rest =>
    if isIdle last then dropIdle (before :: rest) else last :: before :: rest
  | segments => segments

def splitName (path : Path) : Option (List Char × List Char) :=
  match dropIdle path.segments.reverse with
  | [] => none
  | name :: before =>
    if isIdle name || name = ['.', '.'] then none
    else some (before.reverse.flatMap (· ++ ['/']), name)

/-- A name is divided at its last point, unless that is its first character. -/
def splitExtension (name : List Char) : List Char × Option (List Char) :=
  let reversed := name.reverse
  let extension := (reversed.takeWhile (· ≠ '.')).reverse
  let stem := ((reversed.dropWhile (· ≠ '.')).drop 1).reverse
  if stem.isEmpty then (name, none) else (stem, some extension)

/-- The path with another extension. What follows the file name is dropped. A name that leaves
    only a point without its extension, at the very end, becomes the parent directory. -/
def withExtension (path : Path) (extension : String) : Path :=
  match path.splitName with
  | none => path
  | some (before, name) =>
    let (stem, old) := splitExtension name
    if stem = ['.'] ∧ old.isSome ∧ path.toList = before ++ name then
      String.ofList (before ++ ['.', '.'])
    else
      let point := if extension.isEmpty then [] else '.' :: extension.toList
      String.ofList (before ++ stem ++ point)

end Path

end Managed
