import Managed.Cursor
import Managed.Metadata.Layout
import Managed.Metadata.Token

namespace Managed.Metadata

def Layout.read (layout : Layout) (column : Column) : Reader Nat :=
  Reader.number (layout.width column)

def Layout.encode (layout : Layout) (column : Column) (number : Nat) : Bytes :=
  Bytes.ofNat (layout.width column) number

structure ModuleRow where
  rid : Nat
  generation : Nat
  name : Nat
  mvid : Nat
  encId : Nat
  encBaseId : Nat
deriving DecidableEq, Repr

namespace ModuleRow

def token (row : ModuleRow) : Token := Token.ofRow .moduleDef row.rid

def read (layout : Layout) (rid : Nat) : Reader ModuleRow := do
  let generation ← layout.read (.fixed 2)
  let name ← layout.read .strings
  let mvid ← layout.read .guid
  let encId ← layout.read .guid
  let encBaseId ← layout.read .guid
  return { rid, generation, name, mvid, encId, encBaseId }

def encode (layout : Layout) (row : ModuleRow) : Bytes :=
  layout.encode (.fixed 2) row.generation ++ layout.encode .strings row.name ++
    layout.encode .guid row.mvid ++ layout.encode .guid row.encId ++
    layout.encode .guid row.encBaseId

end ModuleRow

structure AssemblyRow where
  rid : Nat
  hashAlgorithm : Nat
  major : Nat
  minor : Nat
  build : Nat
  revision : Nat
  flags : Nat
  publicKey : Nat
  name : Nat
  culture : Nat
deriving DecidableEq, Repr

namespace AssemblyRow

def token (row : AssemblyRow) : Token := Token.ofRow .assembly row.rid

def read (layout : Layout) (rid : Nat) : Reader AssemblyRow := do
  let hashAlgorithm ← layout.read (.fixed 4)
  let major ← layout.read (.fixed 2)
  let minor ← layout.read (.fixed 2)
  let build ← layout.read (.fixed 2)
  let revision ← layout.read (.fixed 2)
  let flags ← layout.read (.fixed 4)
  let publicKey ← layout.read .blob
  let name ← layout.read .strings
  let culture ← layout.read .strings
  return { rid, hashAlgorithm, major, minor, build, revision, flags, publicKey, name, culture }

def encode (layout : Layout) (row : AssemblyRow) : Bytes :=
  layout.encode (.fixed 4) row.hashAlgorithm ++ layout.encode (.fixed 2) row.major ++
    layout.encode (.fixed 2) row.minor ++ layout.encode (.fixed 2) row.build ++
    layout.encode (.fixed 2) row.revision ++ layout.encode (.fixed 4) row.flags ++
    layout.encode .blob row.publicKey ++ layout.encode .strings row.name ++
    layout.encode .strings row.culture

end AssemblyRow

end Managed.Metadata
