import Managed.Bytes
import Managed.Fault
import Managed.Metadata.CodedIndex

namespace Managed.Metadata

inductive Column where
  | fixed (width : Nat)
  | strings
  | guid
  | blob
  | row (table : Table)
  | coded (kind : CodedIndex)
deriving DecidableEq, Repr

def Table.columns : Table → List Column
  | .moduleDef => [.fixed 2, .strings, .guid, .guid, .guid]
  | .typeRef => [.coded .resolutionScope, .strings, .strings]
  | .typeDef =>
    [.fixed 4, .strings, .strings, .coded .typeDefOrRef, .row .field, .row .methodDef]
  | .fieldPtr => [.row .field]
  | .field => [.fixed 2, .strings, .blob]
  | .methodPtr => [.row .methodDef]
  | .methodDef => [.fixed 4, .fixed 2, .fixed 2, .strings, .blob, .row .param]
  | .paramPtr => [.row .param]
  | .param => [.fixed 2, .fixed 2, .strings]
  | .interfaceImpl => [.row .typeDef, .coded .typeDefOrRef]
  | .memberRef => [.coded .memberRefParent, .strings, .blob]
  | .constant => [.fixed 2, .coded .hasConstant, .blob]
  | .customAttribute => [.coded .hasCustomAttribute, .coded .customAttributeType, .blob]
  | .fieldMarshal => [.coded .hasFieldMarshal, .blob]
  | .declSecurity => [.fixed 2, .coded .hasDeclSecurity, .blob]
  | .classLayout => [.fixed 2, .fixed 4, .row .typeDef]
  | .fieldLayout => [.fixed 4, .row .field]
  | .standAloneSig => [.blob]
  | .eventMap => [.row .typeDef, .row .event]
  | .eventPtr => [.row .event]
  | .event => [.fixed 2, .strings, .coded .typeDefOrRef]
  | .propertyMap => [.row .typeDef, .row .property]
  | .propertyPtr => [.row .property]
  | .property => [.fixed 2, .strings, .blob]
  | .methodSemantics => [.fixed 2, .row .methodDef, .coded .hasSemantics]
  | .methodImpl => [.row .typeDef, .coded .methodDefOrRef, .coded .methodDefOrRef]
  | .moduleRef => [.strings]
  | .typeSpec => [.blob]
  | .implMap => [.fixed 2, .coded .memberForwarded, .strings, .row .moduleRef]
  | .fieldRva => [.fixed 4, .row .field]
  | .encLog => [.fixed 4, .fixed 4]
  | .encMap => [.fixed 4]
  | .assembly =>
    [.fixed 4, .fixed 2, .fixed 2, .fixed 2, .fixed 2, .fixed 4, .blob, .strings, .strings]
  | .assemblyProcessor => [.fixed 4]
  | .assemblyOs => [.fixed 4, .fixed 4, .fixed 4]
  | .assemblyRef =>
    [.fixed 2, .fixed 2, .fixed 2, .fixed 2, .fixed 4, .blob, .strings, .strings, .blob]
  | .assemblyRefProcessor => [.fixed 4, .row .assemblyRef]
  | .assemblyRefOs => [.fixed 4, .fixed 4, .fixed 4, .row .assemblyRef]
  | .file => [.fixed 4, .strings, .blob]
  | .exportedType => [.fixed 4, .fixed 4, .strings, .strings, .coded .implementation]
  | .manifestResource => [.fixed 4, .fixed 4, .strings, .coded .implementation]
  | .nestedClass => [.row .typeDef, .row .typeDef]
  | .genericParam => [.fixed 2, .fixed 2, .coded .typeOrMethodDef, .strings]
  | .methodSpec => [.coded .methodDefOrRef, .blob]
  | .genericParamConstraint => [.row .genericParam, .coded .typeDefOrRef]

def rowBits (rows : Nat) : Nat :=
  rows.log2 + 1

structure WideHeaps where
  strings : Bool
  guid : Bool
  blob : Bool
deriving DecidableEq, Repr

def WideHeaps.ofFlags (flags : Nat) : WideHeaps :=
  ⟨flags.testBit 0, flags.testBit 1, flags.testBit 2⟩

structure Layout where
  declared : List (Table × Nat)
  wide : WideHeaps
deriving DecidableEq, Repr

namespace Layout

/-- A table given twice has the last count. -/
def ofRows (counts : List (Table × Nat)) (wide : WideHeaps) : Layout :=
  ⟨counts.reverse, wide⟩

def declared? (layout : Layout) (table : Table) : Option Nat :=
  layout.declared.lookup table

def rows (layout : Layout) (table : Table) : Nat :=
  (layout.declared? table).getD 0

/-- An undeclared table needs no bits, unlike one declared with no rows. -/
def bits (layout : Layout) (table : Table) : Nat :=
  match layout.declared? table with
  | some rows => rowBits rows
  | none => 0

def hasRows (layout : Layout) (table : Table) : Bool :=
  layout.rows table ≠ 0

def heapWidth (wide : Bool) : Nat :=
  if wide then 4 else 2

def rowIndexWidth (layout : Layout) (table : Table) : Nat :=
  if layout.bits table > 16 then 4 else 2

def codedBits (layout : Layout) (kind : CodedIndex) : Nat :=
  (kind.tables.map layout.bits).foldl max 0

def codedIndexWidth (layout : Layout) (kind : CodedIndex) : Nat :=
  if layout.codedBits kind + kind.tagBits > 16 then 4 else 2

def width (layout : Layout) : Column → Nat
  | .fixed width => width
  | .strings => heapWidth layout.wide.strings
  | .guid => heapWidth layout.wide.guid
  | .blob => heapWidth layout.wide.blob
  | .row table => layout.rowIndexWidth table
  | .coded kind => layout.codedIndexWidth kind

def rowSize (layout : Layout) (table : Table) : Nat :=
  table.columns.foldr (fun column size => layout.width column + size) 0

def headerSize : Nat := 24

def readCounts (data : Bytes) : (offset : Nat) → (tables : List Table) →
    Option (List (Table × Nat))
  | _, [] => some []
  | offset, table :: rest => do
    let rows ← data.number? offset 4
    let counts ← readCounts data (offset + 4) rest
    return (table, rows) :: counts

def ofBytes (data : Bytes) (mask : Nat) : Except Fault Layout :=
  if Table.knownMask < mask then .error .notSupported
  else
    match readCounts data headerSize (Table.ofMask mask), data[6]? with
    | some counts, some flags => .ok (ofRows counts (WideHeaps.ofFlags flags.toNat))
    | _, _ => .error .outOfBounds

end Layout

end Managed.Metadata
