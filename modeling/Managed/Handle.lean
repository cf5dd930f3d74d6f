import Managed.Metadata.Token

namespace Managed

structure ModuleId where
  value : UInt32
deriving DecidableEq, Repr

def ModuleId.display (id : ModuleId) : String := s!"module#{id.value.toNat}"

structure Handle where
  owner : ModuleId
  token : Metadata.Token
deriving DecidableEq, Repr

abbrev TypeHandle := Handle

abbrev MethodHandle := Handle

namespace Handle

def display (handle : Handle) : String := s!"{handle.owner.display}:{handle.token.display}"

instance : Ord Handle :=
  ⟨fun left right =>
    (compare left.owner.value right.owner.value).then
      (compare left.token.value right.token.value)⟩

end Handle

end Managed
