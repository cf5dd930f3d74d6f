import Managed.Identity.Version
import Managed.Proofs.ColumnWidths
import Managed.Proofs.RowPlacement

namespace Managed.Metadata

structure Stored (α : Type) where
  value : α
  index : Nat

structure TypeRow where
  flags : Nat
  name : Nat
  space : Nat
  base : Nat
  firstField : Nat
  firstMethod : Nat

structure Manifest where
  hashAlgorithm : UInt32
  version : Version
  flags : UInt32
  publicKey : Stored Bytes
  name : Stored String
  culture : Stored String

structure Draft where
  reserved : UInt32
  major : UInt8
  minor : UInt8
  heapSizes : UInt8
  spare : UInt8
  sorted : UInt64
  extra : UInt32
  generation : UInt16
  name : Stored String
  mvid : Nat
  encId : Nat
  encBaseId : Nat
  types : List TypeRow
  manifest : Option Manifest
  padding : Bytes

theorem Layout.readCounts_written {data behind : Bytes} {offset : Nat} {tables : List Table}
    {counts : List Nat} (same : tables.length = counts.length)
    (fits : ∀ count ∈ counts, count < 256 ^ 4)
    (faces : Cursor.Faces ⟨data, offset⟩ (counts.flatMap (Bytes.ofNat 4) ++ behind)) :
    readCounts data offset tables = some (tables.zip counts) := by
  induction tables generalizing offset counts with
  | nil => rfl
  | cons table rest ih =>
    cases counts with
    | nil => simp at same
    | cons count others =>
      rw [List.forall_mem_cons] at fits
      rw [List.flatMap_cons, List.append_assoc] at faces
      have here : data.number? offset 4 = some (Bytes.littleEndian (Bytes.ofNat 4 count)) :=
        faces.number?
      have later := ih (Nat.succ.inj same) fits.2 faces.forward
      rw [Bytes.length_ofNat] at later
      rw [Bytes.littleEndian_ofNat, Nat.mod_eq_of_lt fits.1] at here
      simp only [readCounts, here, later, Option.bind_eq_bind, Option.bind_some,
        List.zip_cons_cons]
      rfl

namespace Draft

def indexWidth (draft : Draft) (bit : Nat) : Nat :=
  if draft.heapSizes.toNat.testBit bit then 4 else 2

def stringWidth (draft : Draft) : Nat := draft.indexWidth 0

def guidWidth (draft : Draft) : Nat := draft.indexWidth 1

def blobWidth (draft : Draft) : Nat := draft.indexWidth 2

def baseWidth (draft : Draft) : Nat := if draft.types.length < 2 ^ 14 then 2 else 4

def mask (draft : Draft) : Nat :=
  1 + (if draft.types.isEmpty then 0 else 2 ^ 0x02) +
    (if draft.manifest.isSome then 2 ^ 0x20 else 0)

def counts (draft : Draft) : List Nat :=
  1 :: ((if draft.types.isEmpty then [] else [draft.types.length]) ++
    (if draft.manifest.isSome then [1] else []))

def header (draft : Draft) : Bytes :=
  Bytes.ofNat 4 draft.reserved.toNat ++
    [draft.major, draft.minor, draft.heapSizes, draft.spare] ++
    Bytes.ofNat 8 draft.mask ++ Bytes.ofNat 8 draft.sorted.toNat

def extraBytes (draft : Draft) : Bytes :=
  if draft.heapSizes.toNat.testBit 6 then Bytes.ofNat 4 draft.extra.toNat else []

def moduleBytes (draft : Draft) : Bytes :=
  Bytes.ofNat 2 draft.generation.toNat ++ Bytes.ofNat draft.stringWidth draft.name.index ++
    Bytes.ofNat draft.guidWidth draft.mvid ++ Bytes.ofNat draft.guidWidth draft.encId ++
    Bytes.ofNat draft.guidWidth draft.encBaseId

def typeBytes (draft : Draft) (row : TypeRow) : Bytes :=
  Bytes.ofNat 4 row.flags ++ Bytes.ofNat draft.stringWidth row.name ++
    Bytes.ofNat draft.stringWidth row.space ++ Bytes.ofNat draft.baseWidth row.base ++
    Bytes.ofNat 2 row.firstField ++ Bytes.ofNat 2 row.firstMethod

def manifestBytes (draft : Draft) (manifest : Manifest) : Bytes :=
  Bytes.ofNat 4 manifest.hashAlgorithm.toNat ++ Bytes.ofNat 2 manifest.version.major.toNat ++
    Bytes.ofNat 2 manifest.version.minor.toNat ++ Bytes.ofNat 2 manifest.version.build.toNat ++
    Bytes.ofNat 2 manifest.version.revision.toNat ++ Bytes.ofNat 4 manifest.flags.toNat ++
    Bytes.ofNat draft.blobWidth manifest.publicKey.index ++
    Bytes.ofNat draft.stringWidth manifest.name.index ++
    Bytes.ofNat draft.stringWidth manifest.culture.index

def front (draft : Draft) : Bytes :=
  draft.header ++ draft.counts.flatMap (Bytes.ofNat 4) ++ draft.extraBytes

def bytes (draft : Draft) : Bytes :=
  draft.front ++ draft.moduleBytes ++ draft.types.flatMap draft.typeBytes ++
    (draft.manifest.map draft.manifestBytes).getD [] ++ draft.padding

def tables (draft : Draft) : List Table :=
  .moduleDef :: ((if draft.types.isEmpty then [] else [.typeDef]) ++
    (if draft.manifest.isSome then [.assembly] else []))

def layout (draft : Draft) : Layout :=
  Layout.ofRows (draft.tables.zip draft.counts) (WideHeaps.ofFlags draft.heapSizes.toNat)

theorem ofMask_mask (draft : Draft) : Table.ofMask draft.mask = draft.tables := by
  unfold mask tables
  cases draft.types.isEmpty <;> cases draft.manifest.isSome <;> rfl

theorem mask_known (draft : Draft) : Table.IsKnown draft.mask := by
  rw [Table.isKnown_iff]
  unfold mask
  cases draft.types.isEmpty <;> cases draft.manifest.isSome <;> decide

theorem mask_ne_zero (draft : Draft) : draft.mask ≠ 0 := by
  unfold mask
  omega

theorem length_header (draft : Draft) : draft.header.length = 24 := rfl

theorem length_counts (draft : Draft) : draft.counts.length = draft.tables.length := by
  unfold counts tables
  cases draft.types.isEmpty <;> cases draft.manifest.isSome <;> rfl

theorem rows_eq (draft : Draft) (table : Table) :
    draft.layout.rows table =
      match table with
      | .moduleDef => 1
      | .typeDef => draft.types.length
      | .assembly => if draft.manifest.isSome then 1 else 0
      | _ => 0 := by
  unfold layout tables counts
  cases draft.types <;> cases draft.manifest <;> cases table <;> rfl

theorem width_strings (draft : Draft) : draft.layout.width .strings = draft.stringWidth := rfl

theorem codedIndexWidth_eq (draft : Draft) :
    draft.layout.codedIndexWidth .typeDefOrRef = draft.baseWidth := by
  have tag : CodedIndex.typeDefOrRef.tagBits = 2 := by decide
  have large : (∃ table ∈ CodedIndex.typeDefOrRef.tables, 2 ^ 14 ≤ draft.layout.rows table) ↔
      ¬ draft.types.length < 2 ^ 14 := by
    simp [CodedIndex.tables, rows_eq]
  simp only [Layout.codedIndexWidth_eq, tag, large, baseWidth, ite_not]

theorem rowSize_typeDef (draft : Draft) :
    draft.layout.rowSize .typeDef = 4 + 2 * draft.stringWidth + draft.baseWidth + 2 + 2 := by
  have single : ∀ table, draft.layout.rows table = 0 → draft.layout.rowIndexWidth table = 2 := by
    intro table unused
    rw [Layout.rowIndexWidth_eq, unused]
    rfl
  simp only [Layout.rowSize, Table.columns, List.foldr, width_strings]
  simp only [Layout.width, codedIndexWidth_eq, single .field (draft.rows_eq .field),
    single .methodDef (draft.rows_eq .methodDef)]
  omega

theorem length_typeBytes (draft : Draft) (row : TypeRow) :
    (draft.typeBytes row).length = 4 + 2 * draft.stringWidth + draft.baseWidth + 2 + 2 := by
  simp only [typeBytes, List.length_append, Bytes.length_ofNat]
  omega

theorem length_types (draft : Draft) :
    (draft.types.flatMap draft.typeBytes).length =
      draft.types.length * draft.layout.rowSize .typeDef := by
  rw [rowSize_typeDef, List.length_flatMap,
    List.map_congr_left fun row _ => length_typeBytes draft row]
  simp

theorem length_front (draft : Draft) :
    TablesStream.bodyOffset draft.mask draft.heapSizes.toNat = draft.front.length := by
  have count_bytes : (draft.counts.flatMap (Bytes.ofNat 4)).length = 4 * draft.tables.length := by
    rw [List.length_flatMap, List.map_congr_left fun count _ => Bytes.length_ofNat 4 count]
    simp [length_counts, Nat.mul_comm]
  have extra : draft.extraBytes.length = if draft.heapSizes.toNat.testBit 6 then 4 else 0 := by
    unfold extraBytes
    split <;> rfl
  rw [TablesStream.bodyOffset, ofMask_mask, front, List.length_append, List.length_append,
    count_bytes, extra,
    length_header]
  rfl

theorem mask_lt (draft : Draft) : draft.mask < 256 ^ 8 := by
  unfold mask
  split <;> split <;> decide

def body (draft : Draft) : Bytes :=
  draft.counts.flatMap (Bytes.ofNat 4) ++ (draft.extraBytes ++ draft.moduleBytes ++
    draft.types.flatMap draft.typeBytes ++ (draft.manifest.map draft.manifestBytes).getD [] ++
    draft.padding)

theorem bytes_eq (draft : Draft) : draft.bytes = draft.header ++ draft.body := by
  simp only [bytes, front, body, List.append_assoc]

theorem header_read (draft : Draft) :
    TablesStream.maskIn draft.bytes = draft.mask ∧
      Layout.flagsIn draft.bytes = draft.heapSizes.toNat ∧
        draft.bytes[6]? = some draft.heapSizes := by
  have mask_bytes : (draft.bytes.drop 8).take 8 = Bytes.ofNat 8 draft.mask := by
    rw [bytes_eq]
    rfl
  have flags_byte : (draft.bytes.drop 6).take 1 = [draft.heapSizes] := by
    rw [bytes_eq]
    rfl
  refine ⟨?_, ?_, ?_⟩
  · rw [TablesStream.maskIn, mask_bytes, Bytes.littleEndian_ofNat,
      Nat.mod_eq_of_lt draft.mask_lt]
  · rw [Layout.flagsIn, flags_byte]
    rfl
  · rw [bytes_eq]
    rfl

theorem layout_read (draft : Draft) (countable : draft.types.length < 2 ^ 32) :
    Layout.ofBytes draft.bytes draft.mask = .ok draft.layout := by
  have fits : ∀ count ∈ draft.counts, count < 256 ^ 4 := by
    unfold counts
    split <;> split <;> simp <;> omega
  have faces : Cursor.Faces ⟨draft.bytes, Layout.headerSize⟩ draft.body :=
    Cursor.faces_drop draft.bytes_eq draft.length_header
  have counted := Layout.readCounts_written draft.length_counts.symm fits faces
  have known := (Table.isKnown_iff _).mp draft.mask_known
  rw [Layout.ofBytes, if_neg (Nat.not_lt.mpr known), ofMask_mask, counted,
    draft.header_read.2.2]
  rfl

/-- The size of all rows. -/
theorem bytesOf_all (draft : Draft) :
    draft.layout.bytesOf Table.all = draft.layout.rowSize .moduleDef +
      draft.types.length * draft.layout.rowSize .typeDef +
        (if draft.manifest.isSome then 1 else 0) * draft.layout.rowSize .assembly := by
  simp [Layout.bytesOf, Table.all, rows_eq]
  omega

theorem bytesOf_before_assembly (draft : Draft) :
    draft.layout.bytesOf (Table.before .assembly) = draft.layout.rowSize .moduleDef +
      draft.types.length * draft.layout.rowSize .typeDef := by
  simp [Layout.bytesOf, Table.before, Table.all, rows_eq, Table.number]

def moduleRow (draft : Draft) : ModuleRow :=
  ⟨1, draft.generation.toNat, draft.name.index, draft.mvid, draft.encId, draft.encBaseId⟩

theorem moduleBytes_eq (draft : Draft) : draft.moduleBytes = draft.moduleRow.encode draft.layout :=
  rfl

end Draft

def Manifest.row (manifest : Manifest) : AssemblyRow :=
  ⟨1, manifest.hashAlgorithm.toNat, manifest.version.major.toNat, manifest.version.minor.toNat,
    manifest.version.build.toNat, manifest.version.revision.toNat, manifest.flags.toNat,
    manifest.publicKey.index, manifest.name.index, manifest.culture.index⟩

namespace Draft

theorem manifestBytes_eq (draft : Draft) (manifest : Manifest) :
    draft.manifestBytes manifest = manifest.row.encode draft.layout := rfl

theorem length_bytes (draft : Draft) :
    draft.front.length + draft.layout.bytesOf Table.all ≤ draft.bytes.length := by
  have manifest_size : ((draft.manifest.map draft.manifestBytes).getD []).length =
      (if draft.manifest.isSome then 1 else 0) * draft.layout.rowSize .assembly := by
    cases draft.manifest with
    | none => simp
    | some manifest =>
      simp [manifestBytes_eq, AssemblyRow.length_encode]
  simp only [bytes, List.length_append, bytesOf_all, moduleBytes_eq, ModuleRow.length_encode,
    length_types, manifest_size]
  omega

structure IsRead (draft : Draft) (stream : TablesStream) : Prop where
  data : stream.data = draft.bytes
  layout : stream.layout = draft.layout
  placed : TablesStream.place stream.layout stream.data.length draft.front.length Table.all =
    some stream.starts

theorem stream_read (draft : Draft) (countable : draft.types.length < 2 ^ 32) :
    ∃ stream, TablesStream.ofBytes draft.bytes = .ok stream ∧ draft.IsRead stream := by
  have sized : 24 ≤ draft.bytes.length := by
    rw [bytes_eq, List.length_append, length_header]
    omega
  have room := (TablesStream.place_isSome draft.layout draft.bytes.length draft.front.length
    Table.all).mpr (.inr draft.length_bytes)
  obtain ⟨starts, placed⟩ := Option.isSome_iff_exists.mp room
  have outcome := TablesStream.ofBytes_sized sized
  obtain ⟨mask, flags, -⟩ := draft.header_read
  rw [mask, flags, if_neg draft.mask_ne_zero, layout_read draft countable, length_front] at outcome
  simp only [placed] at outcome
  exact ⟨_, outcome, rfl, rfl, placed⟩

theorem moduleRow_read {draft : Draft} {stream : TablesStream} (read : draft.IsRead stream)
    (fits : draft.moduleRow.Fits draft.layout) : stream.moduleRow = .ok draft.moduleRow := by
  have rows : stream.rows .moduleDef = 1 := by
    rw [TablesStream.rows, read.layout, rows_eq]
  have found : stream.rowOffset .moduleDef 1 = .ok draft.front.length := by
    rw [TablesStream.rowOffset_eq_ok read.placed, rows]
    exact ⟨⟨Nat.le_refl 1, Nat.le_refl 1⟩, by simp [Layout.bytesOf, Table.before, Table.number]⟩
  have split : stream.data = draft.front ++ (draft.moduleRow.encode stream.layout ++
      (draft.types.flatMap draft.typeBytes ++
        (draft.manifest.map draft.manifestBytes).getD [] ++ draft.padding)) := by
    simp only [read.data, read.layout, ← moduleBytes_eq, bytes, List.append_assoc]
  rw [← read.layout] at fits
  have taken := ModuleRow.read_encode fits (Cursor.faces_drop split rfl)
  change ModuleRow.read stream.layout 1 _ = _ at taken
  simp only [TablesStream.moduleRow, found, TablesStream.readAt, taken, bind, Except.bind]

def beforeManifest (draft : Draft) : Bytes :=
  draft.front ++ draft.moduleBytes ++ draft.types.flatMap draft.typeBytes

theorem assemblyRow_read {draft : Draft} {stream : TablesStream} (read : draft.IsRead stream)
    {manifest : Manifest} (written : draft.manifest = some manifest)
    (fits : manifest.row.Fits draft.layout) : stream.assemblyRow = .ok (some manifest.row) := by
  have rows : stream.rows .assembly = 1 := by
    rw [TablesStream.rows, read.layout, rows_eq, written]
    rfl
  have found : stream.rowOffset .assembly 1 = .ok draft.beforeManifest.length := by
    rw [TablesStream.rowOffset_eq_ok read.placed, rows, read.layout, bytesOf_before_assembly,
      beforeManifest, List.length_append, List.length_append, moduleBytes_eq,
      ModuleRow.length_encode, length_types]
    exact ⟨⟨Nat.le_refl 1, Nat.le_refl 1⟩, by omega⟩
  have split : stream.data = draft.beforeManifest ++
      (manifest.row.encode stream.layout ++ draft.padding) := by
    simp only [read.data, read.layout, ← manifestBytes_eq, bytes, beforeManifest, written,
      Option.map_some, Option.getD_some, List.append_assoc]
  rw [← read.layout] at fits
  have taken := AssemblyRow.read_encode fits (Cursor.faces_drop split rfl)
  change AssemblyRow.read stream.layout 1 _ = _ at taken
  have some_rows : stream.rows .assembly ≠ 0 := by omega
  simp only [TablesStream.assemblyRow, if_neg some_rows, found, TablesStream.readAt, taken, bind,
    Except.bind]
  rfl

theorem assemblyRow_absent {draft : Draft} {stream : TablesStream} (read : draft.IsRead stream)
    (unwritten : draft.manifest = none) : stream.assemblyRow = .ok none := by
  have rows : stream.rows .assembly = 0 := by
    rw [TablesStream.rows, read.layout, rows_eq, unwritten]
    rfl
  rw [TablesStream.assemblyRow, if_pos rows]

end Draft

end Managed.Metadata
