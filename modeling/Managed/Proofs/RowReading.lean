import Managed.Proofs.TableRows

namespace Managed.Metadata

/-- How rows of a table are read from some data at an offset. A failing read does not go beyond the
    end of the data, but it may have begun there. -/
structure ReadsRow {Row : Type} (layout : Layout) (table : Table) (rid : Nat)
    (shown : Row → Nat × List Nat) (reader : Reader Row) (data : Bytes) (offset : Nat) : Prop where
  succeeds : (∃ row final, reader ⟨data, offset⟩ = .ok row final) ↔
    offset + layout.rowSize table ≤ data.length
  advances : ∀ row final, reader ⟨data, offset⟩ = .ok row final →
    final = ⟨data, offset + layout.rowSize table⟩
  numbers : ∀ row final, reader ⟨data, offset⟩ = .ok row final →
    (shown row).1 = rid ∧ layout.Stand table.columns (shown row).2 data offset
  fails : ∀ fault final, reader ⟨data, offset⟩ = .error fault final →
    fault = .outOfBounds ∧ final.data = data ∧ offset ≤ final.position ∧
      (final.position = offset ∨ final.position ≤ data.length)

structure RowsAgree {Row : Type} (layout : Layout) (table : Table) (shown : Row → Nat × List Nat)
    (reader : (rid : Nat) → Reader Row) (encode : Row → Bytes) (fits : Row → Prop) : Prop where
  read : ∀ rid data offset, ReadsRow layout table rid shown (reader rid) data offset
  written : ∀ row, fits row → ∀ before behind,
    reader (shown row).1 ⟨before ++ encode row ++ behind, before.length⟩ =
      .ok row ⟨before ++ encode row ++ behind, before.length + layout.rowSize table⟩

theorem Table.columns_ne_nil (table : Table) : table.columns ≠ [] := by
  cases table <;> exact List.cons_ne_nil _ _

theorem Layout.Takes.readsRow {Row : Type} {layout : Layout} {table : Table} {rid : Nat}
    {shown : Row → Nat × List Nat} {reader : Reader Row}
    (takes : layout.Takes table.columns rid shown reader) (data : Bytes) (offset : Nat) :
    ReadsRow layout table rid shown reader data offset where
  succeeds := by
    rw [Layout.rowSize_eq_columns]
    constructor
    · intro taken
      obtain ⟨row, final, taken⟩ := taken
      exact Layout.readColumns_room (takes.shown_of_ok taken).2 table.columns_ne_nil
    · intro fits
      obtain ⟨row, taken⟩ := takes.read_fits ⟨data, offset⟩ fits
      exact ⟨row, _, taken⟩
  advances row final taken := by
    rw [Layout.rowSize_eq_columns]
    exact Layout.readColumns_final (takes.shown_of_ok taken).2
  numbers row final taken := by
    obtain ⟨numbered, columns⟩ := takes.shown_of_ok taken
    exact ⟨numbered, Layout.readColumns_stand columns⟩
  fails fault final refused := Layout.readColumns_eq_error (takes.error_of_error refused)

theorem ModuleRow.rowsAgree (layout : Layout) :
    RowsAgree layout .moduleDef shown (read layout) (encode layout) (Fits layout) where
  read rid := (takes layout rid).readsRow
  written row fits before behind := by
    apply read_encode fits
    exact Cursor.faces_drop (List.append_assoc _ _ _) rfl

theorem AssemblyRow.rowsAgree (layout : Layout) :
    RowsAgree layout .assembly shown (read layout) (encode layout) (Fits layout) where
  read rid := (takes layout rid).readsRow
  written row fits before behind := by
    apply read_encode fits
    exact Cursor.faces_drop (List.append_assoc _ _ _) rfl

/-- With any widths of the heaps, rows are read where a row of their size fits, column by column,
    and a row that has been written is read again. -/
theorem rows_read_by_size (layout : Layout) :
    RowsAgree layout .moduleDef ModuleRow.shown (ModuleRow.read layout)
        (ModuleRow.encode layout) (ModuleRow.Fits layout) ∧
      RowsAgree layout .assembly AssemblyRow.shown (AssemblyRow.read layout)
        (AssemblyRow.encode layout) (AssemblyRow.Fits layout) :=
  ⟨ModuleRow.rowsAgree layout, AssemblyRow.rowsAgree layout⟩

end Managed.Metadata
