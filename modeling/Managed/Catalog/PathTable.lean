import Managed.FileSystem.Path
import Managed.SimpleName

namespace Managed

/-- The paths registered under every name. A name is spelled as it was registered first. -/
structure PathTable where
  entries : List (SimpleName × List Path) := []

namespace PathTable

def insert : (entries : List (SimpleName × List Path)) → (name : SimpleName) → (path : Path) →
    List (SimpleName × List Path)
  | [], name, path => [(name, [path])]
  | entry :: rest, name, path =>
    if entry.1.isSame name then (entry.1, entry.2 ++ [path]) :: rest
    else entry :: insert rest name path

def register (table : PathTable) (name : String) (path : Path) : PathTable :=
  ⟨insert table.entries (.ofText name) path⟩

def ofRegistrations (registrations : List (String × Path)) : PathTable :=
  registrations.foldl (fun table entry => table.register entry.1 entry.2) {}

def find? (table : PathTable) (name : String) : Option (SimpleName × List Path) :=
  let wanted := SimpleName.ofText name
  table.entries.find? fun entry => entry.1.isSame wanted

def paths (table : PathTable) (name : String) : List Path :=
  match table.find? name with
  | some entry => entry.2
  | none => []

def contains (table : PathTable) (name : String) : Bool := (table.find? name).isSome

def names (table : PathTable) : List String := table.entries.map (·.1.text)

end PathTable

structure PathTables where
  inputs : PathTable := {}
  references : PathTable := {}

namespace PathTables

def contains (tables : PathTables) (name : String) : Bool :=
  tables.inputs.contains name || tables.references.contains name

def paths (tables : PathTables) (name : String) : List Path :=
  tables.inputs.paths name ++ tables.references.paths name

end PathTables

end Managed
