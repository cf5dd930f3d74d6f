import Mathlib.Data.List.Nodup
import Managed.Proofs.TableLayout

namespace Managed.Metadata.TablesStream

def rowsOf (stream : TablesStream) (table : Table) : List (Table × Nat) :=
  (List.range' 1 (stream.rows table)).map fun rid => (table, rid)

def rowList (stream : TablesStream) : List (Table × Nat) := Table.all.flatMap stream.rowsOf

def rowBytes (stream : TablesStream) (rows : List (Table × Nat)) : Nat :=
  (rows.map fun row => stream.layout.rowSize row.1).sum

section

variable {stream : TablesStream}

theorem rowBytes_append (left right : List (Table × Nat)) :
    stream.rowBytes (left ++ right) = stream.rowBytes left + stream.rowBytes right := by
  simp [rowBytes]

theorem rowBytes_cons (row : Table × Nat) (rest : List (Table × Nat)) :
    stream.rowBytes (row :: rest) = stream.layout.rowSize row.1 + stream.rowBytes rest := by
  simp [rowBytes]

theorem rowBytes_same (table : Table) (rids : List Nat) :
    stream.rowBytes (rids.map fun rid => (table, rid)) =
      rids.length * stream.layout.rowSize table := by
  simp [rowBytes, Function.comp_def]

theorem rowBytes_flatMap (tables : List Table) :
    stream.rowBytes (tables.flatMap stream.rowsOf) = stream.layout.bytesOf tables := by
  induction tables with
  | nil => rfl
  | cons table rest ih =>
    rw [List.flatMap_cons, rowBytes_append, ih, Layout.bytesOf_cons, rowsOf, rowBytes_same,
      List.length_range']
    rfl

theorem mem_rowsOf {table : Table} {row : Table × Nat} :
    row ∈ stream.rowsOf table ↔ row.1 = table ∧ 1 ≤ row.2 ∧ row.2 ≤ stream.rows table := by
  obtain ⟨other, rid⟩ := row
  simp only [rowsOf, List.mem_map, List.mem_range'_1, Prod.mk.injEq]
  constructor
  · intro listed
    obtain ⟨number, bounds, same, rfl⟩ := listed
    exact ⟨same.symm, bounds.1, by omega⟩
  · intro listed
    obtain ⟨same, low, high⟩ := listed
    exact ⟨rid, ⟨low, by omega⟩, same.symm, rfl⟩

theorem mem_rowList {row : Table × Nat} :
    row ∈ stream.rowList ↔ 1 ≤ row.2 ∧ row.2 ≤ stream.rows row.1 := by
  simp [rowList, mem_rowsOf, Table.mem_all]

theorem nodup_rowList : stream.rowList.Nodup := by
  rw [rowList, List.nodup_flatMap]
  constructor
  · intro table _
    exact List.Nodup.map (fun _ _ same => congrArg Prod.snd same) List.nodup_range'
  · refine Table.nodup_all.imp fun differs row left right => differs ?_
    exact (mem_rowsOf.mp left).1.symm.trans (mem_rowsOf.mp right).1

theorem rowList_split {table : Table} {rid : Nat} (low : 1 ≤ rid)
    (high : rid ≤ stream.rows table) :
    ∃ after, stream.rowList = (table.before.flatMap stream.rowsOf ++
      (List.range' 1 (rid - 1)).map fun number => (table, number)) ++ (table, rid) :: after := by
  obtain ⟨later, all_eq⟩ := Table.all_eq_append table
  have rids : List.range' 1 (stream.rows table) =
      List.range' 1 (rid - 1) ++ rid :: List.range' (rid + 1) (stream.rows table - rid) := by
    have first : List.range' rid (stream.rows table - rid + 1) =
        rid :: List.range' (rid + 1) (stream.rows table - rid) := rfl
    have count : stream.rows table = rid - 1 + (stream.rows table - rid + 1) := by omega
    have next : 1 + (rid - 1) = rid := by omega
    rw [← first]
    conv_lhs => rw [count, ← List.range'_append_1, next]
  have here : stream.rowsOf table =
      (List.range' 1 (rid - 1)).map (fun number => (table, number)) ++ (table, rid) ::
        (List.range' (rid + 1) (stream.rows table - rid)).map fun number => (table, number) := by
    rw [rowsOf, rids, List.map_append, List.map_cons]
  refine ⟨(List.range' (rid + 1) (stream.rows table - rid)).map (fun number => (table, number)) ++
    later.flatMap stream.rowsOf, ?_⟩
  rw [rowList, all_eq, List.flatMap_append, List.flatMap_cons, here]
  simp only [List.append_assoc, List.cons_append]

theorem rowBytes_split {before after : List (Table × Nat)} {row : Table × Nat}
    (split : stream.rowList = before ++ row :: after) :
    stream.rowBytes before = stream.layout.bytesOf row.1.before +
      (row.2 - 1) * stream.layout.rowSize row.1 := by
  have member : row ∈ stream.rowList := by simp [split]
  obtain ⟨low, high⟩ := mem_rowList.mp member
  obtain ⟨later, other⟩ := rowList_split low high
  have distinct : stream.rowList.Nodup := nodup_rowList
  rw [split, List.nodup_middle, List.nodup_cons, List.mem_append, not_or] at distinct
  obtain ⟨⟨unlisted, unlisted'⟩, -⟩ := distinct
  have same := ((List.append_cons_inj_of_notMem unlisted unlisted').mp (split.symm.trans other)).1
  rw [same, rowBytes_append, rowBytes_flatMap, rowBytes_same, List.length_range']

theorem rowBytes_rowList : stream.rowBytes stream.rowList = stream.layout.bytesOf Table.all :=
  rowBytes_flatMap _

def Precedes (left right : Table × Nat) : Prop :=
  left.1.number < right.1.number ∨ left.1 = right.1 ∧ left.2 < right.2

theorem rowList_ordered : stream.rowList.Pairwise Precedes := by
  rw [rowList, List.pairwise_flatMap]
  constructor
  · intro table _
    rw [rowsOf, List.pairwise_map]
    exact List.Pairwise.imp (fun lower => .inr ⟨rfl, lower⟩) List.pairwise_lt_range'
  · refine Table.ordered_all.imp fun lower row inLeft other inRight => .inl ?_
    rw [(mem_rowsOf.mp inLeft).1, (mem_rowsOf.mp inRight).1]
    exact lower

end

section

variable {stream : TablesStream} {start : Nat}
  (placed : place stream.layout stream.data.length start Table.all = some stream.starts)

include placed

theorem rowOffset_eq_ok (table : Table) (rid offset : Nat) :
    stream.rowOffset table rid = .ok offset ↔
      (1 ≤ rid ∧ rid ≤ stream.rows table) ∧
        start + stream.layout.bytesOf table.before +
          (rid - 1) * stream.layout.rowSize table = offset := by
  by_cases empty : stream.layout.rows table = 0
  · have none_there : stream.rows table = 0 := empty
    rw [rowOffset, lookup_place_empty placed empty, none_there]
    simp only [reduceCtorEq, false_iff]
    omega
  · obtain ⟨after, all_eq⟩ := Table.all_eq_append table
    rw [rowOffset, lookup_place placed all_eq (Table.notMem_before table) empty]
    by_cases outside : rid = 0 ∨ stream.rows table < rid
    · simp only [outside, if_true, reduceCtorEq, false_iff]
      omega
    · have numbered : 1 ≤ rid ∧ rid ≤ stream.rows table := by omega
      simp only [outside, if_false, Except.ok.injEq, numbered, and_self, true_and]

theorem rowOffset_exists (table : Table) (rid : Nat) :
    (∃ offset, stream.rowOffset table rid = .ok offset) ↔
      1 ≤ rid ∧ rid ≤ stream.rows table := by
  simp only [rowOffset_eq_ok placed, exists_and_left, exists_eq', and_true]

theorem rowOffset_split {before after : List (Table × Nat)} {row : Table × Nat}
    (split : stream.rowList = before ++ row :: after) :
    stream.rowOffset row.1 row.2 = .ok (start + stream.rowBytes before) := by
  have member : row ∈ stream.rowList := by simp [split]
  rw [rowOffset_eq_ok placed, rowBytes_split split]
  exact ⟨mem_rowList.mp member, Nat.add_assoc _ _ _⟩

theorem split_of_rowOffset {table : Table} {rid offset : Nat}
    (found : stream.rowOffset table rid = .ok offset) :
    ∃ before after, stream.rowList = before ++ (table, rid) :: after ∧
      offset = start + stream.rowBytes before := by
  have member : (table, rid) ∈ stream.rowList :=
    mem_rowList.mpr ((rowOffset_exists placed table rid).mp ⟨offset, found⟩)
  obtain ⟨before, after, split⟩ := List.append_of_mem member
  have same := found.symm.trans (rowOffset_split placed split)
  exact ⟨before, after, split, Except.ok.inj same⟩

theorem rowOffset_inside {table : Table} {rid offset : Nat}
    (found : stream.rowOffset table rid = .ok offset) :
    start ≤ offset ∧ offset + stream.layout.rowSize table ≤ stream.data.length := by
  obtain ⟨before, after, split, rfl⟩ := split_of_rowOffset placed found
  have numbered := (rowOffset_exists placed table rid).mp ⟨_, found⟩
  have filled : start + stream.layout.bytesOf Table.all ≤ stream.data.length := by
    rcases (place_isSome _ _ _ _).mp (Option.isSome_of_eq_some placed) with vacant | fits
    · have none_there : stream.rows table = 0 := vacant table (Table.mem_all table)
      omega
    · exact fits
  have total := congrArg stream.rowBytes split
  rw [rowBytes_rowList, rowBytes_append, rowBytes_cons] at total
  dsimp only at total
  omega

/-- Of two rows the one listed first ends before the other one begins. -/
theorem rowOffset_before {before between after : List (Table × Nat)} {left right : Table × Nat}
    (split : stream.rowList = before ++ left :: (between ++ right :: after)) {first second : Nat}
    (left_at : stream.rowOffset left.1 left.2 = .ok first)
    (right_at : stream.rowOffset right.1 right.2 = .ok second) :
    first + stream.layout.rowSize left.1 ≤ second := by
  have regrouped : stream.rowList = (before ++ left :: between) ++ right :: after := by
    simp [split]
  have first_eq := Except.ok.inj (left_at.symm.trans (rowOffset_split placed split))
  have second_eq := Except.ok.inj (right_at.symm.trans (rowOffset_split placed regrouped))
  rw [rowBytes_append, rowBytes_cons] at second_eq
  omega

theorem rowOffset_disjoint {left right : Table × Nat} (apart : left ≠ right) {first second : Nat}
    (left_at : stream.rowOffset left.1 left.2 = .ok first)
    (right_at : stream.rowOffset right.1 right.2 = .ok second) :
    first + stream.layout.rowSize left.1 ≤ second ∨
      second + stream.layout.rowSize right.1 ≤ first := by
  obtain ⟨before, after, split, -⟩ := split_of_rowOffset placed left_at
  have member := mem_rowList.mpr ((rowOffset_exists placed right.1 right.2).mp ⟨_, right_at⟩)
  rw [split, List.mem_append, List.mem_cons] at member
  rcases member with earlier | same | later
  · obtain ⟨ahead, between, rfl⟩ := List.append_of_mem earlier
    have regrouped : stream.rowList = ahead ++ right :: (between ++ left :: after) := by
      simp [split]
    exact .inr (rowOffset_before placed regrouped right_at left_at)
  · exact absurd same.symm apart
  · obtain ⟨between, behind, rfl⟩ := List.append_of_mem later
    exact .inl (rowOffset_before placed split left_at right_at)

theorem readAt_moduleRow (some_rows : stream.rows .moduleDef ≠ 0) :
    ∃ row, stream.moduleRow = .ok row := by
  obtain ⟨offset, found⟩ := (rowOffset_exists placed .moduleDef 1).mpr (by omega)
  have fits := (rowOffset_inside placed found).2
  obtain ⟨row, taken⟩ := ModuleRow.read_fits stream.layout 1 ⟨stream.data, offset⟩ fits
  refine ⟨row, ?_⟩
  simp [moduleRow, found, readAt, taken, bind, Except.bind]

theorem moduleRow_missing (empty : stream.rows .moduleDef = 0) :
    stream.moduleRow = .error .outOfBounds := by
  have nothing : stream.rowOffset .moduleDef 1 = .error .outOfBounds := by
    rw [rowOffset, lookup_place_empty placed empty]
  rw [moduleRow, nothing]
  rfl

theorem assemblyRow_ok : ∃ row, stream.assemblyRow = .ok row := by
  by_cases empty : stream.rows .assembly = 0
  · exact ⟨none, if_pos empty⟩
  obtain ⟨offset, found⟩ := (rowOffset_exists placed .assembly 1).mpr (by omega)
  have fits := (rowOffset_inside placed found).2
  obtain ⟨row, taken⟩ := AssemblyRow.read_fits stream.layout 1 ⟨stream.data, offset⟩ fits
  refine ⟨some row, ?_⟩
  simp [assemblyRow, empty, found, readAt, taken, bind, Except.bind, pure, Except.pure]

end

structure Packs (stream : TablesStream) (data : Bytes) : Prop where
  declared : stream.layout = Layout.declaredIn data (maskIn data)
  counted : ∀ table, stream.rows table = Layout.rowsIn data (maskIn data) table
  numbered : ∀ table rid, (∃ offset, stream.rowOffset table rid = .ok offset) ↔
    1 ≤ rid ∧ rid ≤ stream.rows table
  disjoint : ∀ left right : Table × Nat, left ≠ right → ∀ first second,
    stream.rowOffset left.1 left.2 = .ok first → stream.rowOffset right.1 right.2 = .ok second →
      first + stream.layout.rowSize left.1 ≤ second ∨
        second + stream.layout.rowSize right.1 ≤ first
  inside : ∀ table rid offset, stream.rowOffset table rid = .ok offset →
    rowsStart data ≤ offset ∧ offset + stream.layout.rowSize table ≤ data.length
  listed : ∀ row : Table × Nat, row ∈ stream.rowList ↔ 1 ≤ row.2 ∧ row.2 ≤ stream.rows row.1
  ordered : stream.rowList.Pairwise Precedes
  gapless : ∀ before row after, stream.rowList = before ++ row :: after →
    stream.rowOffset row.1 row.2 = .ok (rowsStart data + stream.rowBytes before)
  assembly : ∃ row, stream.assemblyRow = .ok row
  module : (∃ fault, stream.moduleRow = .error fault) ↔ stream.rows .moduleDef = 0

theorem packs_assembled {data : Bytes} {starts : List (Table × Nat)}
    (placed : place (Layout.declaredIn data (maskIn data)) data.length (rowsStart data)
      Table.all = some starts) :
    (assembled data starts).Packs data where
  declared := rfl
  counted := Layout.rows_declaredIn data (maskIn data)
  numbered := rowOffset_exists placed
  disjoint _ _ apart _ _ left_at right_at := rowOffset_disjoint placed apart left_at right_at
  inside table rid _ found := rowOffset_inside placed found
  listed _ := mem_rowList
  ordered := rowList_ordered
  gapless _ _ _ split := rowOffset_split placed split
  assembly := assemblyRow_ok placed
  module := by
    constructor
    · intro failed
      obtain ⟨fault, failed⟩ := failed
      by_contra some_rows
      obtain ⟨row, taken⟩ := readAt_moduleRow placed some_rows
      rw [taken] at failed
      cases failed
    · intro empty
      exact ⟨_, moduleRow_missing placed empty⟩

/-- Which table streams are accepted, what is wrong with the others, and where the rows are. -/
theorem accepts_packed (data : Bytes) :
    ((∃ stream, ofBytes data = .ok stream) ↔
      24 ≤ data.length ∧ maskIn data ≠ 0 ∧ Table.IsKnown (maskIn data) ∧ Fits data) ∧
    (24 ≤ data.length ∧ maskIn data = 0 → ofBytes data = .error (.malformed .noRows)) ∧
    (24 ≤ data.length ∧ ¬ Table.IsKnown (maskIn data) → ofBytes data = .error .notSupported) ∧
    (∀ fault, ofBytes data = .error fault →
      ¬ (24 ≤ data.length ∧ (maskIn data = 0 ∨ ¬ Table.IsKnown (maskIn data))) →
        fault = .outOfBounds) ∧
    (∀ stream, ofBytes data = .ok stream → stream.Packs data) := by
  have unset : maskIn data = 0 → Table.IsKnown (maskIn data) := by
    intro empty
    rw [Table.isKnown_iff, empty]
    exact Nat.zero_le _
  have outcome := reading data
  generalize ofBytes data = answer at outcome ⊢
  cases outcome with
  | short short =>
    have small : ¬ 24 ≤ data.length := Nat.not_le.mpr short
    simp [small]
  | empty sized empty =>
    have known := unset empty
    simp_all
  | unknown sized unknown =>
    have some_tables : maskIn data ≠ 0 := fun empty => unknown (unset empty)
    simp_all
  | truncated sized some_tables known truncated => simp_all
  | read sized some_tables known fits starts placed =>
    have packed := packs_assembled placed
    simp_all

end Managed.Metadata.TablesStream
