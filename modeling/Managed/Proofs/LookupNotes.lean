import Managed.Proofs.CatalogCalls
import Managed.Proofs.RoutineCharges

namespace Managed

namespace Cache

variable {κ ν ε σ η : Type} [DecidableEq κ]

def publishNoted (key : κ) (value : ν) (cache : Cache κ ν) : (ν × Bool) × Cache κ ν :=
  (((publish key value cache).1, (cache.find? key).isSome), (publish key value cache).2)

/-- What there is to tell of a call of a cache: its answer, whether it has lost a race, in which it
    makes a value while another is published, and what its constructor notes. -/
structure Noted (ε ν η : Type) where
  answer : Except ε ν
  overtaken : Bool := false
  notes : List η := []

def getOrTryCreateNoted (cache : Part σ (Cache κ ν)) (key : κ)
    (create : Routine σ (Except ε ν × List η)) : Routine σ (Noted ε ν η) := do
  match ← cache.atomic (tryGet key) with
  | some value => return { answer := .ok value }
  | none =>
    cache.atomic recordMiss
    let made ← create
    match made.1 with
    | .error error => return { answer := .error error, notes := made.2 }
    | .ok value =>
      let published ← cache.atomic (publishNoted key value)
      return { answer := .ok published.1, overtaken := published.2, notes := made.2 }

end Cache

namespace ModuleStore

structure PathCall where
  files : FileSystem
  path : Path
  answer : Except Error Module
  overtaken : Bool := false

structure NameCall where
  name : String
  answer : Except Error (Option (List Module))
  overtaken : Bool := false
  calls : List PathCall := []

variable [Image.Parser]

def fromPathNoted (files : FileSystem) (path : Path) : Routine ModuleStore PathCall :=
  match canonicalize files path with
  | .error error => return { files, path, answer := .error error }
  | .ok canonical => do
    let call ← Cache.getOrTryCreateNoted pathsPart canonical
      ((load files canonical).map fun outcome => (outcome, ([] : List Empty)))
    match call.answer with
    | .error error => return { files, path, answer := .error error, overtaken := call.overtaken }
    | .ok loaded =>
      let known ← Cache.getOrInsert idsPart loaded.id loaded
      return { files, path, answer := .ok known, overtaken := call.overtaken }

def collectNoted (files : FileSystem) (name : String) : (paths : List Path) →
    (known : List Module) → Routine ModuleStore (Except Error (List Module) × List PathCall)
  | [], known => return (.ok known, [])
  | path :: rest, known => do
    let call ← fromPathNoted files path
    match call.answer with
    | .error error => return (.error error, [call])
    | .ok loaded =>
      match loaded.verifyName name with
      | .error error => return (.error error, [call])
      | .ok () =>
        let onward ← collectNoted files name rest
          (if known.any (·.id = loaded.id) then known else known ++ [loaded])
        return (onward.1, call :: onward.2)

def candidatesNoted (files : FileSystem) (listed : String → List Path) (name : String) :
    Routine ModuleStore NameCall := do
  let key := (SimpleName.ofText name).key
  match ← namesPart.atomic (Cache.tryGet key) with
  | some found => return { name, answer := .ok (some found) }
  | none =>
    if (listed name).isEmpty then return { name, answer := .ok none }
    else
      let call ← Cache.getOrTryCreateNoted namesPart key (collectNoted files name (listed name) [])
      return {
        name, answer := call.answer.map some, overtaken := call.overtaken, calls := call.notes }

def preloadNoted (files : FileSystem) (listed : String → List Path) (names : List String)
    (schedule : List Nat) : Routine ModuleStore (List NameCall) :=
  Routine.interleave schedule (names.map (candidatesNoted files listed))

variable {files : FileSystem}

end ModuleStore

namespace Catalog

open ModuleStore

structure Calls where
  names : List NameCall := []
  direct : List PathCall := []

def Calls.paths (calls : Calls) : List PathCall := calls.direct ++ calls.names.flatMap (·.calls)

variable [Image.Parser]

def Call.noted (tables : PathTables) : Call → Routine ModuleStore (Answer × Calls)
  | fromPath files path =>
    (fromPathNoted files path).map fun call => (.fromPath call.answer, { direct := [call] })
  | candidates files name => (candidatesNoted files tables.paths name).map fun call =>
    (.candidates call.answer, { names := [call] })
  | preload files schedule =>
    (preloadNoted files tables.paths tables.inputs.names schedule).map fun calls =>
      (.preload (calls.filterMap fun call => failure? call.answer), { names := calls })
  | byId id => ((byId id).routine tables).map fun answer => (answer, {})
  | openModule files path expected =>
    ((openModule files path expected).routine tables).map fun answer => (answer, {})
  | elsewhere => (elsewhere.routine tables).map fun answer => (answer, {})

end Catalog

end Managed
