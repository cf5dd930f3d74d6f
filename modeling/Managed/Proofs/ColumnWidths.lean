import Mathlib.Algebra.Ring.Nat
import Mathlib.Data.List.Basic
import Managed.Metadata.Layout

namespace Managed.Metadata

/-- A number of rows needs more bits than a positive limit from that power of two on. -/
theorem lt_rowBits {limit : Nat} (positive : 0 < limit) (rows : Nat) :
    limit < rowBits rows ↔ 2 ^ limit ≤ rows := by
  by_cases empty : rows = 0
  · subst empty
    have powers : 0 < 2 ^ limit := Nat.two_pow_pos limit
    rw [rowBits, Nat.log2_zero]
    omega
  · rw [rowBits, Nat.lt_succ_iff, Nat.le_log2 empty]

namespace CodedIndex

theorem length_tables_le (kind : CodedIndex) : kind.tables.length ≤ 2 ^ kind.tagBits := by
  cases kind <;> decide

theorem tagBits_lt (kind : CodedIndex) : kind.tagBits < 16 := by
  cases kind <;> decide

theorem tag_lt {kind : CodedIndex} {tag : Nat} {table : Table}
    (tagged : kind.tables[tag]? = some table) : tag < 2 ^ kind.tagBits := by
  obtain ⟨below, -⟩ := List.getElem?_eq_some_iff.mp tagged
  exact Nat.lt_of_lt_of_le below kind.length_tables_le

end CodedIndex

namespace Layout

/-- Whether a table is undeclared or declared without rows makes no difference here. -/
theorem lt_bits {limit : Nat} (positive : 0 < limit) (layout : Layout) (table : Table) :
    limit < layout.bits table ↔ 2 ^ limit ≤ layout.rows table := by
  rw [bits, rows]
  cases layout.declared? table with
  | some count => exact lt_rowBits positive count
  | none =>
    have powers : 0 < 2 ^ limit := Nat.two_pow_pos limit
    dsimp only [Option.getD_none]
    omega

theorem lt_foldl_max (limit start : Nat) (numbers : List Nat) :
    limit < numbers.foldl max start ↔ limit < start ∨ ∃ number ∈ numbers, limit < number := by
  induction numbers generalizing start with
  | nil => simp
  | cons number rest ih =>
    have larger : limit < max start number ↔ limit < start ∨ limit < number := by omega
    rw [List.foldl_cons, ih, larger, List.exists_mem_cons_iff, or_assoc]

theorem lt_codedBits {limit : Nat} (positive : 0 < limit) (layout : Layout) (kind : CodedIndex) :
    limit < layout.codedBits kind ↔ ∃ table ∈ kind.tables, 2 ^ limit ≤ layout.rows table := by
  rw [codedBits, lt_foldl_max]
  simp only [Nat.not_lt_zero, false_or, List.mem_map, exists_exists_and_eq_and, lt_bits positive]

theorem rowIndexWidth_eq (layout : Layout) (table : Table) :
    layout.rowIndexWidth table = if 2 ^ 16 ≤ layout.rows table then 4 else 2 := by
  simp only [rowIndexWidth, gt_iff_lt, lt_bits (show 0 < 16 by decide)]

theorem codedIndexWidth_eq (layout : Layout) (kind : CodedIndex) :
    layout.codedIndexWidth kind =
      if ∃ table ∈ kind.tables, 2 ^ (16 - kind.tagBits) ≤ layout.rows table then 4 else 2 := by
  have tag := kind.tagBits_lt
  have wide : layout.codedBits kind + kind.tagBits > 16 ↔
      ∃ table ∈ kind.tables, 2 ^ (16 - kind.tagBits) ≤ layout.rows table := by
    rw [← lt_codedBits (by omega)]
    omega
  simp only [codedIndexWidth, wide]

/-- Every reference that a narrow coded index can be asked for fits into two bytes. -/
theorem coded_lt {layout : Layout} {kind : CodedIndex} (narrow : layout.codedIndexWidth kind = 2)
    {tag rid : Nat} {table : Table} (tagged : kind.tables[tag]? = some table)
    (numbered : rid ≤ layout.rows table) : rid <<< kind.tagBits ||| tag < 2 ^ 16 := by
  have few : ¬ 2 ^ (16 - kind.tagBits) ≤ layout.rows table := by
    intro many
    rw [codedIndexWidth_eq, if_pos ⟨table, List.mem_of_getElem? tagged, many⟩] at narrow
    exact absurd narrow (by decide)
  have room : 2 ^ (16 - kind.tagBits) * 2 ^ kind.tagBits = 2 ^ 16 := by
    rw [← Nat.pow_add, Nat.sub_add_cancel (Nat.le_of_lt kind.tagBits_lt)]
  have below : rid + 1 ≤ 2 ^ (16 - kind.tagBits) := by omega
  have tag_below := CodedIndex.tag_lt tagged
  calc
    rid <<< kind.tagBits ||| tag = rid * 2 ^ kind.tagBits + tag := by
      rw [← Nat.shiftLeft_add_eq_or_of_lt tag_below, Nat.shiftLeft_eq]
    _ < (rid + 1) * 2 ^ kind.tagBits := by
      rw [Nat.add_mul, Nat.one_mul]
      omega
    _ ≤ 2 ^ 16 := by
      rw [← room]
      exact Nat.mul_le_mul_right _ below

structure Within (layout larger : Layout) : Prop where
  rows : ∀ table, layout.rows table ≤ larger.rows table
  strings : layout.wide.strings = true → larger.wide.strings = true
  guid : layout.wide.guid = true → larger.wide.guid = true
  blob : layout.wide.blob = true → larger.wide.blob = true

theorem two_or_four_le {condition larger : Prop} [Decidable condition] [Decidable larger]
    (grows : condition → larger) : (if condition then 4 else 2) ≤ if larger then 4 else 2 := by
  by_cases holds : condition
  · have same : (if condition then 4 else 2) = if larger then 4 else 2 := by
      rw [if_pos holds, if_pos (grows holds)]
    exact Nat.le_of_eq same
  · rw [if_neg holds]
    split <;> decide

theorem Within.width_le {layout larger : Layout} (within : layout.Within larger)
    (column : Column) : layout.width column ≤ larger.width column := by
  cases column with
  | fixed width => exact Nat.le_refl width
  | strings => exact two_or_four_le within.strings
  | guid => exact two_or_four_le within.guid
  | blob => exact two_or_four_le within.blob
  | row table =>
    simp only [width, rowIndexWidth_eq]
    exact two_or_four_le fun many => Nat.le_trans many (within.rows table)
  | coded kind =>
    simp only [width, codedIndexWidth_eq]
    apply two_or_four_le
    intro referred
    obtain ⟨table, listed, many⟩ := referred
    exact ⟨table, listed, Nat.le_trans many (within.rows table)⟩

theorem Within.rowSize_le {layout larger : Layout} (within : layout.Within larger)
    (table : Table) : layout.rowSize table ≤ larger.rowSize table := by
  simp only [rowSize]
  induction table.columns with
  | nil => exact Nat.le_refl 0
  | cons column rest ih => exact Nat.add_le_add (within.width_le column) ih

structure FollowsCounts (layout : Layout) : Prop where
  row_index : ∀ table,
    layout.rowIndexWidth table = if 2 ^ 16 ≤ layout.rows table then 4 else 2
  coded_index : ∀ kind : CodedIndex, layout.codedIndexWidth kind =
    if ∃ table ∈ kind.tables, 2 ^ (16 - kind.tagBits) ≤ layout.rows table then 4 else 2
  room : ∀ kind : CodedIndex, layout.codedIndexWidth kind = 2 →
    ∀ tag table, kind.tables[tag]? = some table → ∀ rid ≤ layout.rows table,
      rid <<< kind.tagBits ||| tag < 2 ^ 16
  growth : ∀ larger, layout.Within larger →
    (∀ column, layout.width column ≤ larger.width column) ∧
      ∀ table, layout.rowSize table ≤ larger.rowSize table

/-- Indexes are as wide as the largest table that they refer to demands, with any numbers of rows
    in the tables and any widths of the heaps. -/
theorem widths_follow_counts (layout : Layout) : layout.FollowsCounts where
  row_index := layout.rowIndexWidth_eq
  coded_index := layout.codedIndexWidth_eq
  room _ narrow _ _ tagged _ numbered := coded_lt narrow tagged numbered
  growth _ within := ⟨within.width_le, within.rowSize_le⟩

example : (ofRows [(.typeRef, 0x3FFF)] ⟨false, false, false⟩).codedIndexWidth .typeDefOrRef = 2 := by
  decide

example : (ofRows [(.typeRef, 0x4000)] ⟨false, false, false⟩).codedIndexWidth .typeDefOrRef = 4 := by
  decide

end Layout

end Managed.Metadata
