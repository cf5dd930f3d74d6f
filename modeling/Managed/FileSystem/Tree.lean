import Std.Data.HashMap
import Managed.FileSystem.Basic
import Managed.Image.Headers

namespace Managed

/-- Files are kept in memory to run the library, and it needs a parser for that, too. -/
instance (priority := low) : Image.Parser := ⟨Image.Container.ofBytes?⟩

abbrev Location := List (List Char)

inductive Node where
  | directory
  | file (data : Bytes)
  | link (target : Path)
deriving Repr

/-- Where a path leads: to a location below the root, or to one of the directories above the root.
    Those are not told apart, since nothing is known to be in them. -/
inductive Place where
  | below (location : Location)
  | above
deriving DecidableEq, Repr

def Place.path : Place → Path
  | below location => String.ofList (['/'].intercalate location)
  | above => "/"

/-- Files, directories and symbolic links below a root directory, each under its path from there.
    Segments have no slash in them, so no two locations share a path. -/
structure FileTree where
  nodes : Std.HashMap Path Node := {}

namespace FileTree

def node? (tree : FileTree) (location : Location) : Option Node :=
  if location = [] then some .directory else tree.nodes[(Place.below location).path]?

def linkLimit : Nat := 40

def nameLimit : Nat := 255

def pathLimit : Nat := 4080

def missing (name : List Char) : FileError :=
  if nameLimit < (String.ofList name).utf8ByteSize then .nameTooLong else .notFound

def isAbsolute (path : Path) : Bool := path.toList.head? = some '/'

def walkAbove : (segments : Location) → Except FileError Place
  | [] => .ok .above
  | segment :: rest =>
    if Path.isIdle segment || segment = ['.', '.'] then walkAbove rest
    else .error (missing segment)

/-- Follows segments from a directory below the root. Only a directory can be followed by a further
    segment, even an idle one. -/
def walk (tree : FileTree) (links : Nat) (here : Location) :
    (segments : Location) → Except FileError Place
  | [] => .ok (.below here)
  | segment :: rest =>
    if Path.isIdle segment then tree.walk links here rest
    else if segment = ['.', '.'] then
      if here = [] then walkAbove rest else tree.walk links here.dropLast rest
    else
      let next := here ++ [segment]
      if pathLimit < (Place.below next).path.utf8ByteSize then .error .nameTooLong
      else
        match tree.node? next with
        | none => .error (missing segment)
        | some .directory => tree.walk links next rest
        | some (.file _) => if rest = [] then .ok (.below next) else .error .notDirectory
        | some (.link target) =>
          match links with
          | 0 => .error .tooManyLinks
          | links + 1 =>
            if isAbsolute target then walkAbove (target.segments ++ rest)
            else tree.walk links here (target.segments ++ rest)
termination_by segments => (links, segments.length)

/-- Where a path leads from the root. A path with a zero character is refused before any of its
    segments is looked up. -/
def locate (tree : FileTree) (path : Path) : Except FileError Place :=
  if '\x00' ∈ path.toList then .error .nulCharacter
  else if isAbsolute path then walkAbove path.segments
  else tree.walk linkLimit [] path.segments

def canonicalize (tree : FileTree) (path : Path) : Except FileError Path :=
  (tree.locate path).map Place.path

def read (tree : FileTree) (path : Path) : Except FileError Bytes := do
  match ← tree.locate path with
  | .above => throw .notMappable
  | .below location =>
    match tree.node? location with
    | some (.file data) => return data
    | some _ => throw .notMappable
    | none => throw .notFound

def isFile (tree : FileTree) (path : Path) : Bool :=
  match tree.read path with
  | .ok _ => true
  | .error _ => false

def toFileSystem (tree : FileTree) : FileSystem :=
  ⟨tree.canonicalize, tree.read, tree.isFile⟩

def erase (tree : FileTree) (location : Location) : FileTree :=
  ⟨tree.nodes.erase (Place.below location).path⟩

def insert (tree : FileTree) (location : Location) (node : Node) : FileTree :=
  ⟨tree.nodes.insert (Place.below location).path node⟩

def makeDirectories (tree : FileTree) (here : Location) :
    (segments : Location) → FileTree × Location
  | [] => (tree, here)
  | segment :: rest =>
    match tree.walk linkLimit here [segment] with
    | .ok (.below next) => tree.makeDirectories next rest
    | .ok .above => tree.makeDirectories here rest
    | .error _ =>
      (tree.insert (here ++ [segment]) .directory).makeDirectories (here ++ [segment]) rest

def makeDirectory (tree : FileTree) (path : Path) : FileTree :=
  (tree.makeDirectories [] path.segments).1

def write (tree : FileTree) (path : Path) (node : Node) : FileTree :=
  let made := tree.makeDirectories [] path.segments.dropLast
  made.1.insert (made.2 ++ path.segments.drop (path.segments.length - 1)) node

def remove (tree : FileTree) (path : Path) : FileTree :=
  match tree.walk linkLimit [] path.segments.dropLast with
  | .ok (.below directory) =>
    tree.erase (directory ++ path.segments.drop (path.segments.length - 1))
  | _ => tree

end FileTree

end Managed
