import Managed.Proofs.TableLayout

namespace Managed.Metadata

namespace Table

theorem ofMask_zero : ofMask 0 = [] := by decide

theorem ofMask_ne_nil {mask : Nat} (known : IsKnown mask) (some_tables : mask ≠ 0) :
    ofMask mask ≠ [] := by
  obtain ⟨bit, set⟩ := Nat.exists_testBit_of_ne_zero some_tables
  obtain ⟨table, rfl⟩ := known bit set
  exact List.ne_nil_of_mem (mem_ofMask.mpr set)

/-- A table of a mask comes after fewer tables than there are. -/
theorem bitCount_lt {mask : Nat} (known : IsKnown mask) {table : Table}
    (set : mask.testBit table.number = true) : bitCount mask table.number < bitCount mask 64 := by
  have present := mem_ofMask.mpr set
  rw [← idxOf_ofMask present, ← length_ofMask known]
  exact List.idxOf_lt_length_of_mem present

end Table

namespace Layout

def Suffices (data : Bytes) (mask : Nat) : Prop :=
  7 ≤ data.length ∧ (mask ≠ 0 → headerSize + 4 * bitCount mask 64 ≤ data.length)

instance (data : Bytes) (mask : Nat) : Decidable (Suffices data mask) :=
  inferInstanceAs (Decidable (_ ∧ (_ → _)))

theorem readCounts_outside {data : Bytes} {offset : Nat} {tables : List Table}
    (outside : data.length < offset + 4) (some_tables : tables ≠ []) :
    readCounts data offset tables = none := by
  cases tables with
  | nil => exact absurd rfl some_tables
  | cons table rest =>
    rw [readCounts, Bytes.number?, Bytes.slice?_eq, if_neg (Nat.not_le.mpr outside)]
    rfl

/-- Data without any row counts need not even have the whole header. -/
theorem ofBytes_zero (data : Bytes) :
    ofBytes data 0 = if 7 ≤ data.length then .ok (declaredIn data 0) else .error .outOfBounds := by
  rw [ofBytes, if_neg (Nat.not_lt_zero _), Table.ofMask_zero, readCounts]
  cases there : data[6]? with
  | none =>
    have short : ¬ 7 ≤ data.length := by
      have := List.getElem?_eq_none_iff.mp there
      omega
    rw [if_neg short]
  | some flags =>
    have long : 7 ≤ data.length := (List.getElem?_eq_some_iff.mp there).1
    rw [if_pos long, declaredIn, Table.ofMask_zero, flagsIn_eq there]
    rfl

theorem ofBytes_known {data : Bytes} {mask : Nat} (known : Table.IsKnown mask) :
    ofBytes data mask =
      if Suffices data mask then .ok (declaredIn data mask) else .error .outOfBounds := by
  by_cases empty : mask = 0
  · subst empty
    rw [ofBytes_zero]
    simp [Suffices]
  by_cases sized : headerSize ≤ data.length
  · have sufficient : Suffices data mask ↔ headerSize + 4 * bitCount mask 64 ≤ data.length := by
      have flags : 7 ≤ data.length := Nat.le_trans (by decide) sized
      simp [Suffices, flags, empty]
    rw [ofBytes_eq known sized]
    simp only [sufficient]
  · have insufficient : ¬ Suffices data mask := by
      intro sufficient
      have counts := sufficient.2 empty
      omega
    have nothing : readCounts data headerSize (Table.ofMask mask) = none :=
      readCounts_outside (by omega) (Table.ofMask_ne_nil known empty)
    rw [ofBytes, if_neg (Nat.not_lt.mpr ((Table.isKnown_iff mask).mp known)), nothing,
      if_neg insufficient]

theorem number?_rowsIn {data : Bytes} {mask : Nat} (known : Table.IsKnown mask)
    (sufficient : Suffices data mask) {table : Table} (set : mask.testBit table.number = true) :
    data.number? (headerSize + 4 * bitCount mask table.number) 4 =
      some (rowsIn data mask table) := by
  have some_tables : mask ≠ 0 := by
    intro empty
    rw [empty, Nat.zero_testBit] at set
    cases set
  have counts := sufficient.2 some_tables
  have before := Table.bitCount_lt known set
  rw [Bytes.number?, Bytes.slice?_eq, if_pos (by omega), rowsIn, if_pos set]
  rfl

structure Agrees (left right : Layout) : Prop where
  rows : ∀ table, left.rows table = right.rows table
  bits : ∀ table, left.bits table = right.bits table
  wide : left.wide = right.wide
  row_index : ∀ table, left.rowIndexWidth table = right.rowIndexWidth table
  coded_index : ∀ kind, left.codedIndexWidth kind = right.codedIndexWidth kind
  width : ∀ column, left.width column = right.width column
  row_size : ∀ table, left.rowSize table = right.rowSize table

theorem agrees_of_declared {left right : Layout}
    (declared : ∀ table, left.declared? table = right.declared? table)
    (wide : left.wide = right.wide) : left.Agrees right := by
  have rows : left.rows = right.rows := funext fun table => by rw [Layout.rows, declared, Layout.rows]
  have bits : left.bits = right.bits := funext fun table => by rw [Layout.bits, declared, Layout.bits]
  have row_index : left.rowIndexWidth = right.rowIndexWidth := by
    funext table
    rw [rowIndexWidth, bits, rowIndexWidth]
  have coded_index : left.codedIndexWidth = right.codedIndexWidth := by
    funext kind
    rw [codedIndexWidth, codedBits, bits, codedIndexWidth, codedBits]
  have width : left.width = right.width := by
    funext column
    cases column <;> simp only [Layout.width, wide, row_index, coded_index]
  exact ⟨congrFun rows, congrFun bits, wide, congrFun row_index, congrFun coded_index,
    congrFun width, fun table => by rw [rowSize, width, rowSize]⟩

/-- A layout is as if it had been built from the flags of a table stream and from the counts of the
    tables in a mask, which are given in any order. The count of a table stands behind those of the
    tables with lower numbers. -/
def IsBuiltFrom (layout : Layout) (data : Bytes) (mask : Nat) : Prop :=
  ∃ (flags : UInt8) (count : Table → Nat), data[6]? = some flags ∧
    (∀ table, mask.testBit table.number = true →
      data.number? (headerSize + 4 * bitCount mask table.number) 4 = some (count table)) ∧
    ∀ tables : List Table, (∀ table, table ∈ tables ↔ mask.testBit table.number = true) →
      layout.Agrees (ofRows (tables.map fun table => (table, count table))
        ⟨flags.toNat.testBit 0, flags.toNat.testBit 1, flags.toNat.testBit 2⟩)

theorem isBuiltFrom_declaredIn {data : Bytes} {mask : Nat} (known : Table.IsKnown mask)
    (sufficient : Suffices data mask) : (declaredIn data mask).IsBuiltFrom data mask := by
  have within : 6 < data.length := sufficient.1
  have there := List.getElem?_eq_getElem within
  refine ⟨data[6], rowsIn data mask, there, fun _ set => number?_rowsIn known sufficient set, ?_⟩
  intro tables same
  apply agrees_of_declared
  · intro table
    rw [declaredIn, declared?_ofRows, declared?_ofRows]
    simp only [same, Table.mem_ofMask]
  · rw [declaredIn, flagsIn_eq there]
    rfl

/-- Which data have the row counts of the tables in a mask, what is wrong with the others, and that
    reading the counts is the same as being given them. -/
theorem counts_read_as_built (data : Bytes) (mask : Nat) :
    (ofBytes data mask = .error .notSupported ↔ ¬ Table.IsKnown mask) ∧
    (Table.IsKnown mask →
      ((∃ layout, ofBytes data mask = .ok layout) ↔ Suffices data mask) ∧
      (¬ Suffices data mask → ofBytes data mask = .error .outOfBounds)) ∧
    (∀ layout, ofBytes data mask = .ok layout → layout.IsBuiltFrom data mask) := by
  by_cases known : Table.IsKnown mask
  · rw [ofBytes_known known]
    by_cases sufficient : Suffices data mask
    · rw [if_pos sufficient]
      refine ⟨?_, fun _ => ⟨?_, fun missing => absurd sufficient missing⟩, ?_⟩
      · simp [known]
      · simp [sufficient]
      · intro layout read
        cases read
        exact isBuiltFrom_declaredIn known sufficient
    · rw [if_neg sufficient]
      simp [known, sufficient]
  · rw [ofBytes_unknown known]
    simp [known]

end Layout

end Managed.Metadata
