import Managed.Metadata.Row

namespace Managed.Metadata

/-- A stream of tables: a header of 24 bytes, the row counts of the tables present, four more
    bytes if a flag says so, and the tables in the order of their numbers. -/
structure TablesStream where
  data : Bytes
  major : Nat
  minor : Nat
  heapSizes : Nat
  valid : Nat
  sorted : Nat
  layout : Layout
  /-- The offset of the first row of every table that has rows. -/
  starts : List (Table × Nat)
deriving Repr

namespace TablesStream

def bodyOffset (valid heapSizes : Nat) : Nat :=
  Layout.headerSize + 4 * (Table.ofMask valid).length + if heapSizes.testBit 6 then 4 else 0

def place (layout : Layout) (limit : Nat) : (offset : Nat) → (tables : List Table) →
    Option (List (Table × Nat))
  | _, [] => some []
  | offset, table :: rest =>
    if layout.rows table = 0 then place layout limit offset rest
    else
      let next := offset + layout.rows table * layout.rowSize table
      if next ≤ limit then (place layout limit next rest).map ((table, offset) :: ·) else none

def ofBytes (data : Bytes) : Except Fault TablesStream :=
  if data.length < Layout.headerSize then .error .outOfBounds
  else
    let valid := Bytes.littleEndian ((data.drop 8).take 8)
    let heapSizes := Bytes.littleEndian ((data.drop 6).take 1)
    if valid = 0 then .error (.malformed .noRows)
    else
      match Layout.ofBytes data valid with
      | .error fault => .error fault
      | .ok layout =>
        match place layout data.length (bodyOffset valid heapSizes) Table.all with
        | none => .error .outOfBounds
        | some starts => .ok {
            data
            major := Bytes.littleEndian ((data.drop 4).take 1)
            minor := Bytes.littleEndian ((data.drop 5).take 1)
            heapSizes
            valid
            sorted := Bytes.littleEndian ((data.drop 16).take 8)
            layout
            starts }

def rows (stream : TablesStream) (table : Table) : Nat := stream.layout.rows table

def tableCount (stream : TablesStream) : Nat := stream.starts.length

/-- Rows are numbered from one. -/
def rowOffset (stream : TablesStream) (table : Table) (rid : Nat) : Except Fault Nat :=
  match stream.starts.lookup table with
  | none => .error .outOfBounds
  | some start =>
    if rid = 0 ∨ stream.rows table < rid then .error .outOfBounds
    else .ok (start + (rid - 1) * stream.layout.rowSize table)

def readAt {α : Type} (stream : TablesStream) (offset : Nat) (reader : Reader α) :
    Except Fault α :=
  match reader ⟨stream.data, offset⟩ with
  | .ok value _ => .ok value
  | .error fault _ => .error fault

def moduleRow (stream : TablesStream) : Except Fault ModuleRow := do
  let offset ← stream.rowOffset .moduleDef 1
  stream.readAt offset (ModuleRow.read stream.layout 1)

def assemblyRow (stream : TablesStream) : Except Fault (Option AssemblyRow) :=
  if stream.rows .assembly = 0 then .ok none
  else do
    let offset ← stream.rowOffset .assembly 1
    let row ← stream.readAt offset (AssemblyRow.read stream.layout 1)
    return some row

end TablesStream

end Managed.Metadata
