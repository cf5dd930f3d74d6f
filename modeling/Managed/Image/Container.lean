import Managed.Metadata.CliHeader

namespace Managed.Image

structure Section where
  address : Nat
  virtualSize : Nat
  rawPointer : Nat
  rawSize : Nat
deriving DecidableEq, Repr

structure OptionalHeader where
  imageBase : Nat
  fileAlignment : Nat
  cli : Option Metadata.DataRange
deriving DecidableEq, Repr

structure Container where
  optional : Option OptionalHeader
  sections : List Section
deriving DecidableEq, Repr

/-- What parses the headers of portable executable files, and gives nothing for what it refuses.
    A library of its own does so, and loading is the same whichever that is. -/
class Parser where
  parse : Bytes → Option Container

end Managed.Image
