import Managed.FileSystem.Basic
import Managed.Metadata.Root

namespace Managed

inductive SymbolFormat where
  | portable
  | legacy
deriving DecidableEq, Repr

namespace SymbolFormat

def portableSignature : Bytes := Bytes.ofNat 4 Metadata.Root.signature

def legacySignature : Bytes :=
  Text.Utf8.encode "Microsoft C/C++ MSF 7.00\x0d\n\x1aDS\x00\x00\x00"

def detect? (data : Bytes) : Option SymbolFormat :=
  if portableSignature.isPrefixOf data then some portable
  else if legacySignature.isPrefixOf data then some legacy
  else none

def isAt (format : SymbolFormat) (files : FileSystem) (path : Path) : Bool :=
  match files.read path with
  | .ok data => detect? data = some format
  | .error _ => false

end SymbolFormat

end Managed
