import Mathlib.Data.List.Basic
import Mathlib.Data.Nat.Bitwise
import Managed.Proofs.LittleEndian
import Managed.Proofs.TableRows

namespace Managed.Metadata

def bitCount (mask limit : Nat) : Nat := (List.range limit).countP mask.testBit

namespace Table

theorem numbers_all : all.map number = List.range 45 := by decide

theorem mem_ofMask {mask : Nat} {table : Table} :
    table ∈ ofMask mask ↔ mask.testBit table.number = true := by
  simp [ofMask, mem_all]

theorem nodup_all : all.Nodup := by decide

theorem ordered_all : all.Pairwise fun left right => left.number < right.number := by decide

theorem numbers_ofMask (mask : Nat) :
    (ofMask mask).map number = (List.range 45).filter mask.testBit := by
  rw [← numbers_all, List.filter_map]
  rfl

def IsKnown (mask : Nat) : Prop := ∀ bit, mask.testBit bit = true → ∃ table, number table = bit

theorem isKnown_iff (mask : Nat) : IsKnown mask ↔ mask ≤ knownMask := by
  have limit : knownMask + 1 = 2 ^ 45 := by decide
  rw [← Nat.lt_succ_iff, Nat.succ_eq_add_one, limit]
  constructor
  · intro known
    apply Nat.lt_pow_two_of_testBit
    intro bit high
    by_contra set
    obtain ⟨table, rfl⟩ := known bit (by simpa using set)
    exact absurd (number_lt table) (by omega)
  · intro below bit set
    have low : bit < 45 := by
      by_contra high
      have unset := Nat.testBit_lt_two_pow
        (Nat.lt_of_lt_of_le below (Nat.pow_le_pow_right (by decide) (Nat.not_lt.mp high)))
      rw [unset] at set
      cases set
    have listed : bit ∈ all.map number := by
      rw [numbers_all]
      exact List.mem_range.mpr low
    obtain ⟨table, -, same⟩ := List.mem_map.mp listed
    exact ⟨table, same⟩

theorem length_ofMask {mask : Nat} (known : IsKnown mask) :
    (ofMask mask).length = bitCount mask 64 := by
  have high : ∀ bit ∈ (List.range 19).map (45 + ·), mask.testBit bit ≠ true := by
    intro bit member set
    obtain ⟨distance, -, rfl⟩ := List.mem_map.mp member
    obtain ⟨table, same⟩ := known _ set
    have bound := number_lt table
    omega
  have split : List.range 64 = List.range 45 ++ (List.range 19).map (45 + ·) :=
    List.range_add (n := 45) (m := 19)
  rw [← List.length_map number, numbers_ofMask, bitCount, split, List.countP_append,
    List.countP_eq_zero.mpr high, List.countP_eq_length_filter]
  rfl

def before (table : Table) : List Table := all.filter (·.number < table.number)

theorem numbers_before (table : Table) : table.before.map number = List.range table.number := by
  cases table <;> rfl

theorem notMem_before (table : Table) : table ∉ table.before := by
  simp [before]

theorem all_eq_append (table : Table) : ∃ after, all = table.before ++ table :: after := by
  cases table <;> exact ⟨_, rfl⟩

theorem idxOf_ofMask {mask : Nat} {table : Table} (present : table ∈ ofMask mask) :
    (ofMask mask).idxOf table = bitCount mask table.number := by
  obtain ⟨after, split⟩ := all_eq_append table
  have set := mem_ofMask.mp present
  have unlisted : table ∉ table.before.filter fun other => mask.testBit other.number :=
    fun member => notMem_before table (List.mem_filter.mp member).1
  have counted := congrArg (List.countP mask.testBit) (numbers_before table)
  rw [List.countP_map] at counted
  rw [ofMask, split, List.filter_append, List.filter_cons, if_pos set,
    List.idxOf_append_of_notMem unlisted, List.idxOf_cons_self, Nat.add_zero,
    ← List.countP_eq_length_filter, bitCount, ← counted]
  rfl

end Table

namespace Layout

def rowsIn (data : Bytes) (mask : Nat) (table : Table) : Nat :=
  if mask.testBit table.number then
    Bytes.littleEndian ((data.drop (headerSize + 4 * bitCount mask table.number)).take 4)
  else 0

def flagsIn (data : Bytes) : Nat := Bytes.littleEndian ((data.drop 6).take 1)

theorem flagsIn_eq {data : Bytes} {flags : UInt8} (there : data[6]? = some flags) :
    flagsIn data = flags.toNat := by
  obtain ⟨within, rfl⟩ := List.getElem?_eq_some_iff.mp there
  rw [flagsIn, List.drop_eq_getElem_cons within]
  rfl

def declaredIn (data : Bytes) (mask : Nat) : Layout :=
  ofRows ((Table.ofMask mask).map fun table => (table, rowsIn data mask table))
    (WideHeaps.ofFlags (flagsIn data))

theorem lookup_map_pair (tables : List Table) (count : Table → Nat) (table : Table) :
    (tables.map fun other => (other, count other)).lookup table =
      if table ∈ tables then some (count table) else none := by
  induction tables with
  | nil => rfl
  | cons first rest ih =>
    rw [List.map_cons, List.lookup_cons, ih]
    by_cases same : table = first
    · subst same
      simp
    · have differs : (table == first) = false := by simpa using same
      simp [same, differs]

theorem declared?_ofRows (tables : List Table) (count : Table → Nat) (wide : WideHeaps)
    (table : Table) :
    (ofRows (tables.map fun table => (table, count table)) wide).declared? table =
      if table ∈ tables then some (count table) else none := by
  rw [declared?, ofRows, ← List.map_reverse, lookup_map_pair]
  simp only [List.mem_reverse]

theorem rows_declaredIn (data : Bytes) (mask : Nat) (table : Table) :
    (declaredIn data mask).rows table = rowsIn data mask table := by
  have counts : (declaredIn data mask).declared? table =
      if mask.testBit table.number then some (rowsIn data mask table) else none := by
    rw [declaredIn, declared?_ofRows]
    simp only [Table.mem_ofMask]
  rw [rows, counts]
  by_cases set : mask.testBit table.number = true
  · rw [if_pos set]
    rfl
  · rw [if_neg set, rowsIn, if_neg set]
    rfl

theorem readCounts_eq (data : Bytes) (offset : Nat) (tables : List Table)
    (distinct : tables.Nodup) (inside : offset ≤ data.length) :
    readCounts data offset tables =
      if offset + 4 * tables.length ≤ data.length then
        some (tables.map fun table =>
          (table, Bytes.littleEndian ((data.drop (offset + 4 * tables.idxOf table)).take 4)))
      else none := by
  induction tables generalizing offset with
  | nil => exact (if_pos inside).symm
  | cons first rest ih =>
    obtain ⟨unlisted, distinct⟩ := List.nodup_cons.mp distinct
    rw [readCounts, Bytes.number?, Bytes.slice?_eq, List.length_cons]
    by_cases here : offset + 4 ≤ data.length
    · have later : ∀ table ∈ rest,
          offset + 4 * (first :: rest).idxOf table = offset + 4 + 4 * rest.idxOf table := by
        intro table member
        have differs : first ≠ table := fun same => unlisted (same ▸ member)
        rw [List.idxOf_cons_ne _ differs]
        omega
      have size : offset + 4 * (rest.length + 1) = offset + 4 + 4 * rest.length := by omega
      rw [if_pos here, ih (offset + 4) distinct here, size]
      by_cases fits : offset + 4 + 4 * rest.length ≤ data.length
      · rw [if_pos fits, if_pos fits, List.map_cons, List.idxOf_cons_self]
        have tail := List.map_congr_left fun table member =>
          congrArg (fun start => (table, Bytes.littleEndian ((data.drop start).take 4)))
            (later table member)
        rw [tail]
        rfl
      · rw [if_neg fits, if_neg fits]
        rfl
    · rw [if_neg here, if_neg (by omega)]
      rfl

theorem ofBytes_eq {data : Bytes} {mask : Nat} (known : Table.IsKnown mask)
    (sized : headerSize ≤ data.length) :
    ofBytes data mask =
      if headerSize + 4 * bitCount mask 64 ≤ data.length then .ok (declaredIn data mask)
      else .error .outOfBounds := by
  have within : 6 < data.length := by
    unfold headerSize at sized
    omega
  have flags := flagsIn_eq (List.getElem?_eq_getElem within)
  have counted := readCounts_eq data headerSize (Table.ofMask mask)
    (Table.nodup_all.filter _) sized
  rw [Table.length_ofMask known] at counted
  rw [ofBytes, if_neg (Nat.not_lt.mpr ((Table.isKnown_iff mask).mp known)), counted,
    List.getElem?_eq_getElem within]
  by_cases fits : headerSize + 4 * bitCount mask 64 ≤ data.length
  · have numbers : ∀ table ∈ Table.ofMask mask,
        (table, Bytes.littleEndian
          ((data.drop (headerSize + 4 * (Table.ofMask mask).idxOf table)).take 4)) =
        (table, rowsIn data mask table) := by
      intro table member
      rw [Table.idxOf_ofMask member, rowsIn, if_pos (Table.mem_ofMask.mp member)]
    rw [if_pos fits, if_pos fits, List.map_congr_left numbers, declaredIn, flags]
  · rw [if_neg fits, if_neg fits]

theorem ofBytes_unknown {data : Bytes} {mask : Nat} (unknown : ¬ Table.IsKnown mask) :
    ofBytes data mask = .error .notSupported := by
  rw [Table.isKnown_iff, Nat.not_le] at unknown
  rw [ofBytes, if_pos unknown]

def bytesOf (layout : Layout) (tables : List Table) : Nat :=
  (tables.map fun table => layout.rows table * layout.rowSize table).sum

theorem bytesOf_cons (layout : Layout) (table : Table) (rest : List Table) :
    layout.bytesOf (table :: rest) =
      layout.rows table * layout.rowSize table + layout.bytesOf rest := by
  simp [bytesOf]

theorem bytesOf_empty (layout : Layout) (tables : List Table)
    (empty : ∀ table ∈ tables, layout.rows table = 0) : layout.bytesOf tables = 0 := by
  induction tables with
  | nil => rfl
  | cons table rest ih =>
    rw [List.forall_mem_cons] at empty
    rw [bytesOf_cons, empty.1, ih empty.2, Nat.zero_mul]

end Layout

namespace TablesStream

theorem place_isSome (layout : Layout) (limit offset : Nat) (tables : List Table) :
    (place layout limit offset tables).isSome = true ↔
      (∀ table ∈ tables, layout.rows table = 0) ∨ offset + layout.bytesOf tables ≤ limit := by
  induction tables generalizing offset with
  | nil => simp [place]
  | cons table rest ih =>
    rw [place, Layout.bytesOf_cons, List.forall_mem_cons]
    by_cases empty : layout.rows table = 0
    · rw [if_pos empty, ih, empty, Nat.zero_mul, Nat.zero_add]
      simp
    · simp only [empty, false_and, false_or, ite_false]
      by_cases fits : offset + layout.rows table * layout.rowSize table ≤ limit
      · rw [if_pos fits, Option.isSome_map, ih]
        constructor
        · intro placed
          rcases placed with vacant | inside
          · rw [layout.bytesOf_empty rest vacant]
            exact fits
          · omega
        · intro fits
          right
          omega
      · rw [if_neg fits]
        simp only [Option.isSome_none, Bool.false_eq_true, false_iff]
        omega

theorem place_cons {layout : Layout} {limit offset : Nat} {table : Table} {rest : List Table}
    {starts : List (Table × Nat)} (some_rows : layout.rows table ≠ 0) :
    place layout limit offset (table :: rest) = some starts ↔
      offset + layout.rows table * layout.rowSize table ≤ limit ∧
        ∃ later, place layout limit (offset + layout.rows table * layout.rowSize table) rest =
          some later ∧ (table, offset) :: later = starts := by
  simp only [place, if_neg some_rows]
  split
  · rename_i fits
    simp [fits]
  · rename_i outside
    simp [outside]

theorem lookup_place {layout : Layout} {limit offset : Nat} {tables : List Table}
    {starts : List (Table × Nat)} (placed : place layout limit offset tables = some starts)
    {table : Table} {ahead after : List Table} (split : tables = ahead ++ table :: after)
    (first : table ∉ ahead) (some_rows : layout.rows table ≠ 0) :
    starts.lookup table = some (offset + layout.bytesOf ahead) := by
  induction ahead generalizing offset tables starts with
  | nil =>
    subst split
    obtain ⟨-, later, -, rfl⟩ := (place_cons some_rows).mp placed
    simp [Layout.bytesOf]
  | cons other rest ih =>
    subst split
    rw [List.mem_cons, not_or] at first
    rw [Layout.bytesOf_cons]
    by_cases empty : layout.rows other = 0
    · rw [List.cons_append, place, if_pos empty] at placed
      rw [ih placed rfl first.2, empty, Nat.zero_mul, Nat.zero_add]
    · obtain ⟨-, later, behind, rfl⟩ := (place_cons empty).mp placed
      have differs : (table == other) = false := by simpa using first.1
      rw [List.lookup_cons, differs]
      exact (ih behind rfl first.2).trans (congrArg some (Nat.add_assoc _ _ _))

theorem lookup_place_empty {layout : Layout} {limit offset : Nat} {tables : List Table}
    {starts : List (Table × Nat)} (placed : place layout limit offset tables = some starts)
    {table : Table} (empty : layout.rows table = 0) : starts.lookup table = none := by
  induction tables generalizing offset starts with
  | nil =>
    cases placed
    rfl
  | cons other rest ih =>
    by_cases vacant : layout.rows other = 0
    · rw [place, if_pos vacant] at placed
      exact ih placed
    · obtain ⟨-, later, behind, rfl⟩ := (place_cons vacant).mp placed
      have apart : table ≠ other := fun same => vacant (same ▸ empty)
      have differs : (table == other) = false := by simpa using apart
      rw [List.lookup_cons, differs]
      exact ih behind

def maskIn (data : Bytes) : Nat := Bytes.littleEndian ((data.drop 8).take 8)

def rowsStart (data : Bytes) : Nat :=
  24 + 4 * bitCount (maskIn data) 64 + if (Layout.flagsIn data).testBit 6 then 4 else 0

theorem bodyOffset_eq {data : Bytes} (known : Table.IsKnown (maskIn data)) :
    bodyOffset (maskIn data) (Layout.flagsIn data) = rowsStart data := by
  rw [bodyOffset, Table.length_ofMask known]
  rfl

def Fits (data : Bytes) : Prop :=
  24 + 4 * bitCount (maskIn data) 64 ≤ data.length ∧
    ((∀ table, Layout.rowsIn data (maskIn data) table = 0) ∨
      rowsStart data + (Layout.declaredIn data (maskIn data)).bytesOf Table.all ≤ data.length)

def assembled (data : Bytes) (starts : List (Table × Nat)) : TablesStream where
  data
  major := Bytes.littleEndian ((data.drop 4).take 1)
  minor := Bytes.littleEndian ((data.drop 5).take 1)
  heapSizes := Layout.flagsIn data
  valid := maskIn data
  sorted := Bytes.littleEndian ((data.drop 16).take 8)
  layout := Layout.declaredIn data (maskIn data)
  starts

theorem place_declaredIn (data : Bytes) :
    (place (Layout.declaredIn data (maskIn data)) data.length (rowsStart data)
        Table.all).isSome = true ↔
      (∀ table, Layout.rowsIn data (maskIn data) table = 0) ∨
        rowsStart data + (Layout.declaredIn data (maskIn data)).bytesOf Table.all ≤
          data.length := by
  rw [place_isSome]
  simp only [Layout.rows_declaredIn, Table.mem_all, true_implies]

inductive Reading (data : Bytes) : Except Fault TablesStream → Prop where
  | short (short : data.length < 24) : Reading data (.error .outOfBounds)
  | empty (sized : 24 ≤ data.length) (empty : maskIn data = 0) :
    Reading data (.error (.malformed .noRows))
  | unknown (sized : 24 ≤ data.length) (unknown : ¬ Table.IsKnown (maskIn data)) :
    Reading data (.error .notSupported)
  | truncated (sized : 24 ≤ data.length) (some_tables : maskIn data ≠ 0)
      (known : Table.IsKnown (maskIn data)) (truncated : ¬ Fits data) :
    Reading data (.error .outOfBounds)
  | read (sized : 24 ≤ data.length) (some_tables : maskIn data ≠ 0)
      (known : Table.IsKnown (maskIn data)) (fits : Fits data) (starts : List (Table × Nat))
      (placed : place (Layout.declaredIn data (maskIn data)) data.length (rowsStart data)
        Table.all = some starts) :
    Reading data (.ok (assembled data starts))

theorem ofBytes_sized {data : Bytes} (sized : 24 ≤ data.length) :
    ofBytes data =
      if maskIn data = 0 then .error (.malformed .noRows)
      else
        match Layout.ofBytes data (maskIn data) with
        | .error fault => .error fault
        | .ok layout =>
          match place layout data.length (bodyOffset (maskIn data) (Layout.flagsIn data))
            Table.all with
          | none => .error .outOfBounds
          | some starts => .ok { assembled data starts with layout } := by
  rw [ofBytes, Layout.headerSize, if_neg (Nat.not_lt.mpr sized)]
  rfl

theorem reading (data : Bytes) : Reading data (ofBytes data) := by
  by_cases sized : 24 ≤ data.length
  · rw [ofBytes_sized sized]
    by_cases empty : maskIn data = 0
    · rw [if_pos empty]
      exact .empty sized empty
    rw [if_neg empty]
    by_cases known : Table.IsKnown (maskIn data)
    · rw [Layout.ofBytes_eq known sized, bodyOffset_eq known]
      by_cases counted : 24 + 4 * bitCount (maskIn data) 64 ≤ data.length
      · rw [Layout.headerSize, if_pos counted]
        dsimp only
        have room := place_declaredIn data
        cases placed : place (Layout.declaredIn data (maskIn data)) data.length
            (rowsStart data) Table.all with
        | none =>
          rw [placed] at room
          exact .truncated sized empty known fun fits => by simpa using room.mpr fits.2
        | some starts =>
          rw [placed] at room
          exact .read sized empty known ⟨counted, room.mp rfl⟩ starts placed
      · rw [Layout.headerSize, if_neg counted]
        exact .truncated sized empty known fun fits => counted fits.1
    · rw [Layout.ofBytes_unknown known]
      exact .unknown sized known
  · have short := Nat.not_le.mp sized
    rw [ofBytes, Layout.headerSize, if_pos short]
    exact .short short

end TablesStream

end Managed.Metadata
