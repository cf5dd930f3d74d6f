import Managed.FileSystem.Basic
import Managed.Module.Basic
import Managed.Text.Quoted
import Managed.Text.Record

namespace Managed

structure SequencePoint where
  offset : Nat
  document : String
  startLine : Nat
  startColumn : Nat
  endLine : Nat
  endColumn : Nat
deriving DecidableEq, Repr

structure SymbolReader where
  sequencePoints : Metadata.Token → List SequencePoint
  localNames : Metadata.Token → List String

inductive Opening where
  | found (reader : SymbolReader)
  | absent
  | failed

/-- An error counts as no symbols. -/
def Opening.reader? : Opening → Option SymbolReader
  | .found reader => some reader
  | .absent => none
  | .failed => none

structure SymbolFactory where
  openPortable : FileSystem → Path → Opening
  openLegacy : FileSystem → Path → Opening

def SymbolFactory.silent : SymbolFactory := ⟨fun _ _ => .absent, fun _ _ => .absent⟩

inductive SymbolCall where
  | portable (path : Path)
  | legacy (path : Path)
deriving DecidableEq, Repr

structure SymbolStore where
  slots : List (ModuleId × Option SymbolReader) := []
  calls : List SymbolCall := []

namespace SymbolStore

def slot? (store : SymbolStore) (id : ModuleId) : Option (Option SymbolReader) :=
  store.slots.lookup id

def reader? (store : SymbolStore) (id : ModuleId) : Option SymbolReader :=
  (store.slot? id).join

end SymbolStore

structure SymbolAttacher where
  factory : SymbolFactory
  extension : String
  enabled : Bool

namespace SymbolAttacher

def symbolPath (attacher : SymbolAttacher) (path : Path) : Path :=
  path.withExtension attacher.extension

/-- Tries the portable format first, and the legacy one only if the file is not portable. -/
def openSymbols (attacher : SymbolAttacher) (files : FileSystem) (path : Path) :
    Option SymbolReader × List SymbolCall :=
  let file := attacher.symbolPath path
  if files.isFile file then
    match attacher.factory.openPortable files file with
    | .found reader => (some reader, [.portable file])
    | .failed => (none, [.portable file])
    | .absent =>
      ((attacher.factory.openLegacy files path).reader?, [.portable file, .legacy path])
  else (none, [])

/-- The symbols of a module. The first attempt settles the outcome. -/
def attach (attacher : SymbolAttacher) (files : FileSystem) (loaded : Module)
    (store : SymbolStore) : Option SymbolReader × SymbolStore :=
  if attacher.enabled then
    match store.slot? loaded.id with
    | some outcome => (outcome, store)
    | none =>
      let opened := attacher.openSymbols files loaded.path
      (opened.1, ⟨store.slots ++ [(loaded.id, opened.1)], store.calls ++ opened.2⟩)
  else (none, store)

def debug (attacher : SymbolAttacher) : String :=
  Text.Record.abridged "SymbolAttacher" [
    ("extension", Text.Quoted.text attacher.extension), ("enabled", toString attacher.enabled)]

end SymbolAttacher

end Managed
