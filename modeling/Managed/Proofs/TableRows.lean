import Managed.Metadata.TablesStream
import Managed.Proofs.ColumnReading

namespace Managed.Metadata

theorem Layout.width_fixed (layout : Layout) (width : Nat) :
    layout.width (.fixed width) = width := rfl

namespace ModuleRow

def shown (row : ModuleRow) : Nat × List Nat :=
  (row.rid, [row.generation, row.name, row.mvid, row.encId, row.encBaseId])

theorem shown_injective : Function.Injective shown := by
  intro left right same
  cases left
  cases right
  simp_all [shown]

theorem takes (layout : Layout) (rid : Nat) :
    layout.Takes (Table.columns .moduleDef) rid shown (read layout rid) := by
  simp [Layout.Takes, Layout.readColumns, Table.columns, read, shown]

theorem encode_eq (layout : Layout) (row : ModuleRow) :
    row.encode layout = layout.encodeColumns (Table.columns .moduleDef) row.shown.2 := by
  simp [encode, Layout.encodeColumns, Table.columns, shown]

theorem read_fits (layout : Layout) (rid : Nat) (cursor : Cursor)
    (fits : cursor.position + layout.rowSize .moduleDef ≤ cursor.data.length) :
    ∃ row, ModuleRow.read layout rid cursor =
      .ok row (cursor.forward (layout.rowSize .moduleDef)) := by
  rw [Layout.rowSize_eq_columns] at fits ⊢
  exact (takes layout rid).read_fits cursor fits

structure Fits (layout : Layout) (row : ModuleRow) : Prop where
  generation : row.generation < 256 ^ 2
  name : row.name < 256 ^ layout.width .strings
  mvid : row.mvid < 256 ^ layout.width .guid
  encId : row.encId < 256 ^ layout.width .guid
  encBaseId : row.encBaseId < 256 ^ layout.width .guid

theorem Fits.holds {layout : Layout} {row : ModuleRow} (fits : row.Fits layout) :
    layout.Holds (Table.columns .moduleDef) row.shown.2 :=
  .cons fits.generation (.cons fits.name (.cons fits.mvid (.cons fits.encId
    (.cons fits.encBaseId .nil))))

theorem length_encode (layout : Layout) (row : ModuleRow) :
    (row.encode layout).length = layout.rowSize .moduleDef := by
  rw [encode_eq, Layout.length_encodeColumns layout rfl, Layout.rowSize_eq_columns]

theorem read_encode {layout : Layout} {row : ModuleRow} {cursor : Cursor}
    {behind : Bytes} (fits : row.Fits layout)
    (faces : cursor.Faces (row.encode layout ++ behind)) :
    ModuleRow.read layout row.rid cursor =
      .ok row (cursor.forward (layout.rowSize .moduleDef)) := by
  rw [encode_eq] at faces
  rw [Layout.rowSize_eq_columns]
  exact (takes layout row.rid).read_encode shown_injective rfl fits.holds faces

end ModuleRow

namespace AssemblyRow

def shown (row : AssemblyRow) : Nat × List Nat :=
  (row.rid, [row.hashAlgorithm, row.major, row.minor, row.build, row.revision, row.flags,
    row.publicKey, row.name, row.culture])

theorem shown_injective : Function.Injective shown := by
  intro left right same
  cases left
  cases right
  simp_all [shown]

theorem takes (layout : Layout) (rid : Nat) :
    layout.Takes (Table.columns .assembly) rid shown (read layout rid) := by
  simp [Layout.Takes, Layout.readColumns, Table.columns, read, shown]

theorem encode_eq (layout : Layout) (row : AssemblyRow) :
    row.encode layout = layout.encodeColumns (Table.columns .assembly) row.shown.2 := by
  simp [encode, Layout.encodeColumns, Table.columns, shown]

theorem read_fits (layout : Layout) (rid : Nat) (cursor : Cursor)
    (fits : cursor.position + layout.rowSize .assembly ≤ cursor.data.length) :
    ∃ row, AssemblyRow.read layout rid cursor =
      .ok row (cursor.forward (layout.rowSize .assembly)) := by
  rw [Layout.rowSize_eq_columns] at fits ⊢
  exact (takes layout rid).read_fits cursor fits

structure Fits (layout : Layout) (row : AssemblyRow) : Prop where
  hashAlgorithm : row.hashAlgorithm < 256 ^ 4
  major : row.major < 256 ^ 2
  minor : row.minor < 256 ^ 2
  build : row.build < 256 ^ 2
  revision : row.revision < 256 ^ 2
  flags : row.flags < 256 ^ 4
  publicKey : row.publicKey < 256 ^ layout.width .blob
  name : row.name < 256 ^ layout.width .strings
  culture : row.culture < 256 ^ layout.width .strings

theorem Fits.holds {layout : Layout} {row : AssemblyRow} (fits : row.Fits layout) :
    layout.Holds (Table.columns .assembly) row.shown.2 :=
  .cons fits.hashAlgorithm (.cons fits.major (.cons fits.minor (.cons fits.build
    (.cons fits.revision (.cons fits.flags (.cons fits.publicKey (.cons fits.name
      (.cons fits.culture .nil))))))))

theorem length_encode (layout : Layout) (row : AssemblyRow) :
    (row.encode layout).length = layout.rowSize .assembly := by
  rw [encode_eq, Layout.length_encodeColumns layout rfl, Layout.rowSize_eq_columns]

theorem read_encode {layout : Layout} {row : AssemblyRow} {cursor : Cursor}
    {behind : Bytes} (fits : row.Fits layout)
    (faces : cursor.Faces (row.encode layout ++ behind)) :
    AssemblyRow.read layout row.rid cursor =
      .ok row (cursor.forward (layout.rowSize .assembly)) := by
  rw [encode_eq] at faces
  rw [Layout.rowSize_eq_columns]
  exact (takes layout row.rid).read_encode shown_injective rfl fits.holds faces

end AssemblyRow

end Managed.Metadata
