import Managed.Image.Container

namespace Managed

structure Image where
  data : Bytes
  base : Nat
  cli : Metadata.DataRange
  sections : List Image.Section
deriving DecidableEq, Repr

namespace Image

def ofContainer (data : Bytes) (container : Container) : Except Fault Image :=
  match container.optional with
  | none => .error (.malformed .noOptionalHeader)
  | some header =>
    match header.cli with
    | none => .error (.malformed .noCliDirectory)
    | some cli => .ok { data, base := header.imageBase, cli, sections := container.sections }

def ofBytes [Parser] (data : Bytes) : Except Fault Image :=
  if data.isEmpty then .error .empty
  else
    match Parser.parse data with
    | none => .error .container
    | some container => ofContainer data container

def slice (image : Image) (offset length : Nat) : Except Fault Bytes :=
  match image.data.slice? offset length with
  | some bytes => .ok bytes
  | none => .error .outOfBounds

/-- Looks for the first section whose virtual range contains an address. A range that ends past
    the last address is refused even if it does not matter. -/
def Section.locate : (sections : List Section) → (rva : Nat) → Except Fault Nat
  | [], rva => .error (.malformed (.rvaNotMapped rva))
  | item :: rest, rva =>
    if UInt32.size ≤ item.address + item.virtualSize then
      .error (.malformed (.sectionOverflow item.address item.virtualSize))
    else if item.address ≤ rva ∧ rva < item.address + item.virtualSize then
      .ok (rva - item.address + item.rawPointer)
    else locate rest rva

def offsetOf (image : Image) (rva : Nat) : Except Fault Nat :=
  if UInt32.size ≤ rva then .error (.malformed (.rvaTooLarge rva))
  else Section.locate image.sections rva

end Image

end Managed
