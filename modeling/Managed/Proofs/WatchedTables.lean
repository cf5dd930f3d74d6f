import Managed.Proofs.TableLayout
import Managed.Proofs.WatchedMetadata

namespace Managed.Watched

open Metadata WatchedReader

def tableSlot (table : Table) : Watched Unit := slot Table.all table

def kindSlot (kind : CodedIndex) : Watched Unit := slot CodedIndex.all kind

def columnSlot : Column → Watched Unit
  | .row table => tableSlot table
  | .coded kind => kindSlot kind
  | _ => return ()

def rows (layout : Layout) (table : Table) : Watched Nat := do
  tableSlot table
  return layout.rows table

def rowSize (layout : Layout) (table : Table) : Watched Nat := do
  forM table.columns columnSlot
  return layout.rowSize table

theorem tableSlot_eq (table : Table) : tableSlot table = pure () := slot_eq (Table.mem_all table)

theorem kindSlot_eq (kind : CodedIndex) : kindSlot kind = pure () :=
  slot_eq (by cases kind <;> decide)

theorem columnSlot_eq (column : Column) : columnSlot column = pure () := by
  cases column with
  | row table => exact tableSlot_eq table
  | coded kind => exact kindSlot_eq kind
  | _ => rfl

theorem rows_eq (layout : Layout) (table : Table) :
    rows layout table = pure (layout.rows table) := by
  rw [rows, tableSlot_eq, pure_bind]

theorem rowSize_eq (layout : Layout) (table : Table) :
    rowSize layout table = pure (layout.rowSize table) := by
  rw [rowSize, forM_eq_pure columnSlot_eq, pure_bind]

def readCounts : (tables : List Table) → WatchedReader (List (Table × Nat))
  | [] => return []
  | table :: rest => do
    let rows ← number 4
    tableSlot table
    let counts ← readCounts rest
    return (table, rows) :: counts

def codedWidths : Watched Unit :=
  forM CodedIndex.all fun kind => do
    forM kind.tables tableSlot
    kindSlot kind

def layout (data : Bytes) (mask : Nat) : Watched Layout :=
  if Table.knownMask < mask then throw .notSupported
  else do
    let (counts, _) ← readCounts (Table.ofMask mask) ⟨data, Layout.headerSize⟩
    match data.from? 6 with
    | none => throw .outOfBounds
    | some ahead =>
      let flags ← run (number 1) ahead
      codedWidths
      return Layout.ofRows counts (WideHeaps.ofFlags flags)

theorem codedWidths_eq : codedWidths = pure () := by
  apply forM_eq_pure
  intro kind
  rw [forM_eq_pure tableSlot_eq, pure_bind, kindSlot_eq]

def orEnd {α : Type} : Option α → Watched α
  | some value => return value
  | none => throw .outOfBounds

theorem number_at (width offset : Nat) (data : Bytes) :
    number width ⟨data, offset⟩ =
      orEnd (data.number? offset width) >>= fun value => pure (value, ⟨data, offset + width⟩) := by
  rw [← ofReader_number, ofReader, Reader.number_eq, Bytes.number?, Bytes.slice?_eq]
  by_cases fits : offset + width ≤ data.length
  · rw [if_pos fits, if_pos fits]
    rfl
  · rw [if_neg fits, if_neg fits]
    rfl

theorem readCounts_eq (data : Bytes) (offset : Nat) (tables : List Table) :
    readCounts tables ⟨data, offset⟩ =
      orEnd (Layout.readCounts data offset tables) >>= fun counts =>
        pure (counts, ⟨data, offset + 4 * tables.length⟩) := by
  induction tables generalizing offset with
  | nil => rfl
  | cons table rest ih =>
    have first : StateT.run (readCounts (table :: rest)) ⟨data, offset⟩ =
        number 4 ⟨data, offset⟩ >>= fun (rows, next) =>
          readCounts rest next >>= fun (counts, last) => pure ((table, rows) :: counts, last) := by
      rw [readCounts, tableSlot_eq]
      rfl
    change StateT.run (readCounts (table :: rest)) ⟨data, offset⟩ = _
    rw [first, number_at, Layout.readCounts]
    cases data.number? offset 4 with
    | none => rfl
    | some count =>
      simp only [orEnd, pure_bind, ih, Option.bind_eq_bind, Option.bind_some]
      have size : offset + 4 * (table :: rest).length = offset + 4 + 4 * rest.length := by
        rw [List.length_cons]
        omega
      rw [size]
      cases Layout.readCounts data (offset + 4) rest <;> rfl

theorem layout_eq (data : Bytes) (mask : Nat) :
    layout data mask = answered (Layout.ofBytes data mask) := by
  rw [layout, Layout.ofBytes]
  by_cases unknown : Table.knownMask < mask
  · rw [if_pos unknown, if_pos unknown]
    rfl
  rw [if_neg unknown, if_neg unknown, readCounts_eq, codedWidths_eq]
  cases Layout.readCounts data Layout.headerSize (Table.ofMask mask) with
  | none => rfl
  | some counts =>
    rw [Bytes.from?_eq]
    by_cases within : 6 < data.length
    · have flags : run (number 1) (data.drop 6) = pure data[6].toNat := by
        rw [run_number (by rw [List.length_drop]; omega), List.drop_eq_getElem_cons within]
        rfl
      rw [if_pos (by omega), List.getElem?_eq_getElem within]
      simp only [orEnd, pure_bind, flags]
      rfl
    · rw [List.getElem?_eq_none (by omega)]
      by_cases exact_end : 6 ≤ data.length
      · rw [if_pos exact_end, List.drop_eq_nil_of_le (by omega)]
        rfl
      · rw [if_neg exact_end]
        rfl

def place (layout : Layout) (limit : Nat) : (offset : Nat) → (tables : List Table) →
    Watched (List (Table × Nat))
  | _, [] => return []
  | offset, table :: rest => do
    let rows ← rows layout table
    if rows = 0 then place layout limit offset rest
    else
      let size ← rowSize layout table
      let next := offset + rows * size
      if next ≤ limit then
        tableSlot table
        let later ← place layout limit next rest
        return (table, offset) :: later
      else throw .outOfBounds

theorem place_eq (layout : Layout) (limit offset : Nat) (tables : List Table) :
    place layout limit offset tables = orEnd (TablesStream.place layout limit offset tables) := by
  induction tables generalizing offset with
  | nil => rfl
  | cons table rest ih =>
    rw [place, rows_eq, pure_bind, TablesStream.place]
    by_cases empty : layout.rows table = 0
    · rw [if_pos empty, if_pos empty, ih]
    rw [if_neg empty, if_neg empty, rowSize_eq, pure_bind]
    dsimp only
    by_cases fits : offset + layout.rows table * layout.rowSize table ≤ limit
    · rw [if_pos fits, if_pos fits, tableSlot_eq, pure_bind, ih]
      cases TablesStream.place layout limit (offset + layout.rows table * layout.rowSize table)
        rest <;> rfl
    · rw [if_neg fits, if_neg fits]
      rfl

def numberFrom (data : Bytes) (offset width : Nat) : Watched Nat := do
  run (number width) (← after data offset)

theorem numberFrom_eq {data : Bytes} {offset width : Nat} (room : offset + width ≤ data.length) :
    numberFrom data offset width = pure (Bytes.littleEndian ((data.drop offset).take width)) := by
  rw [numberFrom, after_eq (by omega), pure_bind]
  exact run_number (by rw [List.length_drop]; omega)

def tablesStream (data : Bytes) : Watched TablesStream :=
  if data.length < Layout.headerSize then throw .outOfBounds
  else do
    let valid ← numberFrom data 8 8
    if valid = 0 then throw (.malformed .noRows)
    let heapSizes ← numberFrom data 6 1
    let layout ← layout data valid
    let starts ← place layout data.length (TablesStream.bodyOffset valid heapSizes) Table.all
    let major ← numberFrom data 4 1
    let minor ← numberFrom data 5 1
    let sorted ← numberFrom data 16 8
    return { data, major, minor, heapSizes, valid, sorted, layout, starts }

theorem tablesStream_eq (data : Bytes) :
    tablesStream data = answered (TablesStream.ofBytes data) := by
  rw [tablesStream]
  by_cases sized : 24 ≤ data.length
  · rw [Layout.headerSize, if_neg (Nat.not_lt.mpr sized), TablesStream.ofBytes_sized sized]
    rw [numberFrom_eq (by omega), pure_bind, numberFrom_eq (by omega), numberFrom_eq (by omega),
      numberFrom_eq (by omega), numberFrom_eq (by omega)]
    simp only [pure_bind]
    change (if TablesStream.maskIn data = 0 then _ else _) = _
    by_cases empty : TablesStream.maskIn data = 0
    · rw [if_pos empty, if_pos empty]
      rfl
    rw [if_neg empty, if_neg empty, layout_eq]
    change answered (Layout.ofBytes data (TablesStream.maskIn data)) >>= _ = _
    cases Layout.ofBytes data (TablesStream.maskIn data) with
    | error fault => rfl
    | ok layout =>
      rw [answered_ok, pure_bind, place_eq]
      change orEnd (TablesStream.place layout data.length (TablesStream.bodyOffset
        (TablesStream.maskIn data) (Layout.flagsIn data)) Table.all) >>= _ = _
      dsimp only
      cases TablesStream.place layout data.length (TablesStream.bodyOffset
        (TablesStream.maskIn data) (Layout.flagsIn data)) Table.all <;> rfl
  · have short := Nat.not_le.mp sized
    rw [TablesStream.ofBytes, Layout.headerSize, if_pos short, if_pos short]
    rfl

def rowOffset (stream : TablesStream) (table : Table) (rid : Nat) : Watched Nat := do
  tableSlot table
  match stream.starts.lookup table with
  | none => throw .outOfBounds
  | some start =>
    let rows ← rows stream.layout table
    if rid = 0 ∨ rows < rid then throw .outOfBounds
    else
      let size ← rowSize stream.layout table
      return start + (rid - 1) * size

theorem rowOffset_eq (stream : TablesStream) (table : Table) (rid : Nat) :
    rowOffset stream table rid = answered (stream.rowOffset table rid) := by
  rw [rowOffset, tableSlot_eq, pure_bind, TablesStream.rowOffset]
  cases stream.starts.lookup table with
  | none => rfl
  | some start =>
    dsimp only
    rw [rows_eq, pure_bind, rowSize_eq, pure_bind, TablesStream.rows]
    split <;> rfl

def readModuleRow (layout : Layout) (rid : Nat) : WatchedReader ModuleRow := do
  let generation ← number 2
  let name ← number (layout.width .strings)
  let mvid ← number (layout.width .guid)
  let encId ← number (layout.width .guid)
  let encBaseId ← number (layout.width .guid)
  return { rid, generation, name, mvid, encId, encBaseId }

def readAssemblyRow (layout : Layout) (rid : Nat) : WatchedReader AssemblyRow := do
  let hashAlgorithm ← number 4
  let major ← number 2
  let minor ← number 2
  let build ← number 2
  let revision ← number 2
  let flags ← number 4
  let publicKey ← number (layout.width .blob)
  let name ← number (layout.width .strings)
  let culture ← number (layout.width .strings)
  return { rid, hashAlgorithm, major, minor, build, revision, flags, publicKey, name, culture }

theorem ofReader_readModuleRow (layout : Layout) (rid : Nat) :
    ofReader (ModuleRow.read layout rid) = readModuleRow layout rid := by
  simp only [ModuleRow.read, readModuleRow, Layout.read, Layout.width_fixed, ofReader_bind,
    ofReader_number, ofReader_pure]

theorem ofReader_readAssemblyRow (layout : Layout) (rid : Nat) :
    ofReader (AssemblyRow.read layout rid) = readAssemblyRow layout rid := by
  simp only [AssemblyRow.read, readAssemblyRow, Layout.read, Layout.width_fixed, ofReader_bind,
    ofReader_number, ofReader_pure]

def readAt {α : Type} (stream : TablesStream) (offset : Nat) (reader : WatchedReader α) :
    Watched α :=
  (·.1) <$> reader ⟨stream.data, offset⟩

theorem readAt_eq {α : Type} (stream : TablesStream) (offset : Nat) (reader : Reader α) :
    readAt stream offset (ofReader reader) = answered (stream.readAt offset reader) := by
  unfold readAt ofReader TablesStream.readAt
  cases reader ⟨stream.data, offset⟩ <;> rfl

def moduleRow (stream : TablesStream) : Watched ModuleRow := do
  let offset ← rowOffset stream .moduleDef 1
  readAt stream offset (readModuleRow stream.layout 1)

def assemblyRow (stream : TablesStream) : Watched (Option AssemblyRow) := do
  let rows ← rows stream.layout .assembly
  if rows = 0 then return none
  else
    let offset ← rowOffset stream .assembly 1
    let row ← readAt stream offset (readAssemblyRow stream.layout 1)
    return some row

theorem moduleRow_eq (stream : TablesStream) :
    moduleRow stream = answered stream.moduleRow := by
  simp only [moduleRow, TablesStream.moduleRow, rowOffset_eq, ← ofReader_readModuleRow, readAt_eq,
    answered_bind]

theorem assemblyRow_eq (stream : TablesStream) :
    assemblyRow stream = answered stream.assemblyRow := by
  rw [assemblyRow, rows_eq, pure_bind, TablesStream.assemblyRow, TablesStream.rows]
  split
  · rfl
  · simp only [rowOffset_eq, ← ofReader_readAssemblyRow, readAt_eq, answered_bind, answered_pure]

end Managed.Watched
