import Managed.Cache
import Managed.FileSystem.Basic
import Managed.Module.Basic

namespace Managed

/-- The modules loaded so far, by canonical path and by id, the candidates of the names asked for,
    by folded name, and the id of the next module. -/
structure ModuleStore where
  nextId : UInt32 := 1
  paths : Cache Path Module := {}
  ids : Cache ModuleId Module := {}
  names : Cache String (List Module) := {}

namespace ModuleStore

def pathsPart : Part ModuleStore (Cache Path Module) where
  get store := store.paths
  set store paths := { store with paths }

def idsPart : Part ModuleStore (Cache ModuleId Module) where
  get store := store.ids
  set store ids := { store with ids }

def namesPart : Part ModuleStore (Cache String (List Module)) where
  get store := store.names
  set store names := { store with names }

def drawId : Routine ModuleStore ModuleId :=
  Routine.atomic fun store => (⟨store.nextId⟩, { store with nextId := store.nextId + 1 })

variable [Image.Parser]

def readContents (files : FileSystem) (canonical : Path) : Except Error Contents :=
  match files.read canonical with
  | .error error => .error (.load canonical (.file error))
  | .ok data =>
    match Contents.ofBytes data with
    | .error fault => .error (.load canonical fault)
    | .ok contents => .ok contents

def canonicalize (files : FileSystem) (path : Path) : Except Error Path :=
  match files.canonicalize path with
  | .ok canonical => .ok canonical
  | .error error => .error (.load path (.file error))

def load (files : FileSystem) (path : Path) : Routine ModuleStore (Except Error Module) :=
  match canonicalize files path with
  | .error error => return .error error
  | .ok canonical =>
    match readContents files canonical with
    | .error error => return .error error
    | .ok contents => do
      let id ← drawId
      return .ok { id, path := canonical, contents }

def openModule (files : FileSystem) (path : Path) (expected : Option String) :
    Routine ModuleStore (Except Error Module) := do
  match ← load files path with
  | .error error => return .error error
  | .ok loaded =>
    match expected with
    | none => return .ok loaded
    | some name => return (loaded.verifyName name).map fun _ => loaded

def fromPath (files : FileSystem) (path : Path) : Routine ModuleStore (Except Error Module) :=
  match canonicalize files path with
  | .error error => return .error error
  | .ok canonical => do
    match ← Cache.getOrTryCreate pathsPart canonical (load files canonical) with
    | .error error => return .error error
    | .ok loaded => return .ok (← Cache.getOrInsert idsPart loaded.id loaded)

/-- The modules at the paths after the ones already known, each of them once. The first that cannot
    be loaded or has another name ends it. -/
def collect (files : FileSystem) (name : String) : (paths : List Path) → (known : List Module) →
    Routine ModuleStore (Except Error (List Module))
  | [], known => return .ok known
  | path :: rest, known => do
    match ← fromPath files path with
    | .error error => return .error error
    | .ok loaded =>
      match loaded.verifyName name with
      | .error error => return .error error
      | .ok () =>
        if known.any (·.id = loaded.id) then collect files name rest known
        else collect files name rest (known ++ [loaded])

/-- The modules at the paths listed under a name, in order, or nothing if there are no such paths.
    A list once found is kept; the name may be spelled in any case. -/
def candidates (files : FileSystem) (listed : String → List Path) (name : String) :
    Routine ModuleStore (Except Error (Option (List Module))) := do
  let key := (SimpleName.ofText name).key
  match ← namesPart.atomic (Cache.tryGet key) with
  | some found => return .ok (some found)
  | none =>
    if (listed name).isEmpty then return .ok none
    else
      match ← Cache.getOrTryCreate namesPart key (collect files name (listed name) []) with
      | .error error => return .error error
      | .ok found => return .ok (some found)

def byId (id : ModuleId) : Routine ModuleStore (Option Module) :=
  idsPart.atomic (Cache.tryGet id)

def failure? {α : Type} : Except Error α → Option Error
  | .ok _ => none
  | .error error => some error

/-- Looks up the candidates of names side by side, with their steps as the schedule has them, and
    keeps the errors in the order of the names. -/
def preload (files : FileSystem) (listed : String → List Path) (names : List String)
    (schedule : List Nat := []) : Routine ModuleStore (List Error) :=
  (Routine.interleave schedule (names.map (candidates files listed))).map
    (List.filterMap failure?)

end ModuleStore

end Managed
