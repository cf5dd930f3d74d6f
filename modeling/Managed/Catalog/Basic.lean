import Managed.Catalog.PathTable
import Managed.Catalog.Store
import Managed.Text.Quoted
import Managed.Text.Record

namespace Managed

structure Catalog where
  tables : PathTables
  store : ModuleStore := {}

namespace Catalog

def perform {α : Type} (catalog : Catalog) (routine : Routine ModuleStore α) : α × Catalog :=
  let outcome := routine.run catalog.store
  (outcome.1, { catalog with store := outcome.2 })

variable [Image.Parser]

def candidates (catalog : Catalog) (files : FileSystem) (name : String) :
    Except Error (Option (List Module)) × Catalog :=
  catalog.perform (ModuleStore.candidates files catalog.tables.paths name)

def fromPath (catalog : Catalog) (files : FileSystem) (path : Path) :
    Except Error Module × Catalog :=
  catalog.perform (ModuleStore.fromPath files path)

def byId (catalog : Catalog) (id : ModuleId) : Option Module × Catalog :=
  catalog.perform (ModuleStore.byId id)

/-- Loads a module that the catalog does not come to know. -/
def openModule (catalog : Catalog) (files : FileSystem) (path : Path) (expected : Option String) :
    Except Error Module × Catalog :=
  catalog.perform (ModuleStore.openModule files path expected)

def preload (catalog : Catalog) (files : FileSystem) (schedule : List Nat := []) :
    List Error × Catalog :=
  catalog.perform
    (ModuleStore.preload files catalog.tables.paths catalog.tables.inputs.names schedule)

def loaded (catalog : Catalog) : List Module := catalog.store.ids.values

def pathStats (catalog : Catalog) : CacheStats := catalog.store.paths.stats

def nameStats (catalog : Catalog) : CacheStats := catalog.store.names.stats

def tableText (table : PathTable) : String :=
  "\x7b" ++ ", ".intercalate (table.entries.map fun entry =>
    Text.Quoted.text entry.1.text ++ ": [" ++
      ", ".intercalate (entry.2.map Text.Quoted.text) ++ "]") ++ "\x7d"

def debug (catalog : Catalog) : String :=
  Text.Record.whole "ModuleCatalog" [("inputs", tableText catalog.tables.inputs),
    ("references", tableText catalog.tables.references),
    ("loaded", toString catalog.store.ids.size)]

end Catalog

end Managed
