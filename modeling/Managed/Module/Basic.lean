import Managed.Error
import Managed.Handle
import Managed.Module.Contents
import Managed.SimpleName

namespace Managed

structure Module where
  id : ModuleId
  path : Path
  contents : Contents
deriving DecidableEq, Repr

namespace Module

def identity (loaded : Module) : Identity := loaded.contents.identity

def simpleName (loaded : Module) : String := loaded.identity.name

def isAssembly (loaded : Module) : Bool := loaded.identity.isAssembly

def data (loaded : Module) : Bytes := loaded.contents.image.data

def metadata (loaded : Module) : Bytes :=
  (loaded.data.drop loaded.contents.metadataOffset).take loaded.contents.metadataSize

def rowCount (loaded : Module) (table : Metadata.Table) : Nat := loaded.contents.layout.rows table

def slice (loaded : Module) (offset length : Nat) : Except Fault Bytes :=
  loaded.contents.image.slice offset length

def offsetOf (loaded : Module) (rva : Nat) : Except Fault Nat :=
  loaded.contents.image.offsetOf rva

def typeHandle? (loaded : Module) (rid : Nat) : Option TypeHandle :=
  if rid ≠ 0 ∧ rid ≤ loaded.rowCount .typeDef then
    some ⟨loaded.id, Metadata.Token.ofRow .typeDef rid⟩
  else none

def display (loaded : Module) : String := s!"{loaded.identity.display} ({loaded.path})"

/-- A module goes by its declared name in any case. -/
def verifyName (loaded : Module) (expected : String) : Except Error Unit :=
  if SimpleName.agree loaded.simpleName expected then .ok ()
  else .error (.nameMismatch loaded.path expected loaded.simpleName)

def ofBytes [Image.Parser] (id : ModuleId) (path : Path) (data : Bytes) : Except Error Module :=
  match Contents.ofBytes data with
  | .ok contents => .ok { id, path, contents }
  | .error fault => .error (.load path fault)

end Module

end Managed
