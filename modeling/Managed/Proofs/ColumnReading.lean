import Mathlib.Data.List.Forall2
import Managed.Metadata.Row
import Managed.Proofs.LittleEndian
import Managed.Proofs.Reading

namespace Managed.Metadata.Layout

theorem read_eq_ok (layout : Layout) (column : Column) (cursor final : Cursor)
    (value : Nat) :
    layout.read column cursor = .ok value final ↔
      cursor.position + layout.width column ≤ cursor.data.length ∧
        Bytes.littleEndian (cursor.rest.take (layout.width column)) = value ∧
          cursor.forward (layout.width column) = final :=
  Reader.number_eq_ok _ _ _ _

theorem read_eq_error {layout : Layout} {column : Column} {cursor final : Cursor} {fault : Fault}
    (refused : layout.read column cursor = .error fault final) :
    fault = .outOfBounds ∧ final = cursor := by
  rw [read, Reader.number_eq] at refused
  split at refused
  · cases refused
  · cases refused
    exact ⟨rfl, rfl⟩

theorem number?_of_read {layout : Layout} {column : Column} {cursor final : Cursor} {value : Nat}
    (taken : layout.read column cursor = .ok value final) :
    cursor.data.number? cursor.position (layout.width column) = some value := by
  obtain ⟨room, value_eq, -⟩ := (layout.read_eq_ok _ _ _ _).mp taken
  rw [Bytes.number?, Bytes.slice?_eq, if_pos room, Option.map_some]
  exact congrArg some value_eq

theorem length_encode (layout : Layout) (column : Column) (number : Nat) :
    (layout.encode column number).length = layout.width column := Bytes.length_ofNat _ _

theorem read_encode {layout : Layout} {column : Column} {number : Nat} {cursor : Cursor}
    {behind : Bytes} (faces : cursor.Faces (layout.encode column number ++ behind))
    (fits : number < 256 ^ layout.width column) :
    layout.read column cursor = .ok number (cursor.forward (layout.encode column number).length) := by
  have taken := Reader.number_ahead faces
  have value : Bytes.littleEndian (layout.encode column number) = number := by
    rw [encode, Bytes.littleEndian_ofNat, Nat.mod_eq_of_lt fits]
  rw [value, length_encode] at taken
  rw [length_encode]
  exact taken

def sizeOfColumns (layout : Layout) (columns : List Column) : Nat :=
  (columns.map layout.width).sum

theorem sizeOfColumns_cons (layout : Layout) (column : Column) (rest : List Column) :
    layout.sizeOfColumns (column :: rest) = layout.width column + layout.sizeOfColumns rest := by
  simp [sizeOfColumns]

theorem rowSize_eq_columns (layout : Layout) (table : Table) :
    layout.rowSize table = layout.sizeOfColumns table.columns := by
  rw [rowSize]
  induction table.columns with
  | nil => rfl
  | cons column rest ih => rw [List.foldr_cons, ih, sizeOfColumns_cons]

def readColumns (layout : Layout) (columns : List Column) : Reader (List Nat) :=
  columns.mapM layout.read

def encodeColumns (layout : Layout) (columns : List Column) (numbers : List Nat) : Bytes :=
  (List.zipWith layout.encode columns numbers).flatten

def Holds (layout : Layout) (columns : List Column) (numbers : List Nat) : Prop :=
  List.Forall₂ (fun column number => number < 256 ^ layout.width column) columns numbers

theorem readColumns_cons_eq_ok {layout : Layout} {column : Column} {rest : List Column}
    {cursor final : Cursor} {numbers : List Nat} :
    layout.readColumns (column :: rest) cursor = .ok numbers final ↔
      ∃ number later, layout.read column cursor = .ok number (cursor.forward (layout.width column)) ∧
        layout.readColumns rest (cursor.forward (layout.width column)) = .ok later final ∧
          number :: later = numbers := by
  rw [readColumns, List.mapM_cons, Reader.bind_eq_ok]
  simp only [Reader.bind_eq_ok, Reader.pure_eq_ok]
  constructor
  · intro read
    obtain ⟨number, middle, taken, later, _, more, rfl, rfl⟩ := read
    obtain rfl := ((layout.read_eq_ok _ _ _ _).mp taken).2.2
    exact ⟨number, later, taken, more, rfl⟩
  · intro read
    obtain ⟨number, later, taken, more, rfl⟩ := read
    exact ⟨number, _, taken, later, final, more, rfl, rfl⟩

theorem readColumns_fits {layout : Layout} {columns : List Column} {cursor : Cursor}
    (fits : cursor.position + layout.sizeOfColumns columns ≤ cursor.data.length) :
    ∃ numbers final, layout.readColumns columns cursor = .ok numbers final := by
  induction columns generalizing cursor with
  | nil => exact ⟨[], cursor, rfl⟩
  | cons column rest ih =>
    rw [sizeOfColumns_cons] at fits
    have taken := (layout.read_eq_ok column cursor _ _).mpr ⟨by omega, rfl, rfl⟩
    have room : (cursor.forward (layout.width column)).position + layout.sizeOfColumns rest ≤
        (cursor.forward (layout.width column)).data.length := by
      dsimp only [Cursor.forward]
      omega
    obtain ⟨later, final, more⟩ := ih room
    exact ⟨_, final, readColumns_cons_eq_ok.mpr ⟨_, later, taken, more, rfl⟩⟩

theorem readColumns_final {layout : Layout} {columns : List Column} {cursor final : Cursor}
    {numbers : List Nat} (taken : layout.readColumns columns cursor = .ok numbers final) :
    final = cursor.forward (layout.sizeOfColumns columns) := by
  induction columns generalizing cursor numbers with
  | nil =>
    cases taken
    rfl
  | cons column rest ih =>
    obtain ⟨number, later, -, more, -⟩ := readColumns_cons_eq_ok.mp taken
    rw [ih more, Cursor.forward_forward, sizeOfColumns_cons]

/-- Reading no columns at all succeeds anywhere, even behind the end of the data. -/
theorem readColumns_room {layout : Layout} {columns : List Column} {cursor final : Cursor}
    {numbers : List Nat} (taken : layout.readColumns columns cursor = .ok numbers final)
    (some_columns : columns ≠ []) :
    cursor.position + layout.sizeOfColumns columns ≤ cursor.data.length := by
  induction columns generalizing cursor numbers with
  | nil => exact absurd rfl some_columns
  | cons column rest ih =>
    obtain ⟨number, later, first, more, -⟩ := readColumns_cons_eq_ok.mp taken
    have room := ((layout.read_eq_ok _ _ _ _).mp first).1
    rw [sizeOfColumns_cons]
    by_cases last : rest = []
    · subst last
      exact room
    · have later_room := ih more last
      dsimp only [Cursor.forward] at later_room
      omega

def Stand (layout : Layout) (columns : List Column) (numbers : List Nat) (data : Bytes)
    (offset : Nat) : Prop :=
  numbers.length = columns.length ∧
    ∀ place column number, columns[place]? = some column → numbers[place]? = some number →
      data.number? (offset + layout.sizeOfColumns (columns.take place)) (layout.width column) =
        some number

theorem readColumns_stand {layout : Layout} {columns : List Column} {cursor final : Cursor}
    {numbers : List Nat} (taken : layout.readColumns columns cursor = .ok numbers final) :
    layout.Stand columns numbers cursor.data cursor.position := by
  induction columns generalizing cursor numbers with
  | nil =>
    cases taken
    exact ⟨rfl, fun place column number listed => by simp at listed⟩
  | cons column rest ih =>
    obtain ⟨number, later, first, more, rfl⟩ := readColumns_cons_eq_ok.mp taken
    obtain ⟨length, behind⟩ := ih more
    refine ⟨congrArg (· + 1) length, ?_⟩
    intro place other value listed given
    cases place with
    | zero =>
      cases listed
      cases given
      exact number?_of_read first
    | succ place =>
      have found := behind place other value listed given
      rw [List.take_succ_cons, sizeOfColumns_cons, ← Nat.add_assoc]
      exact found

/-- A read that fails has taken the columns that are there. -/
theorem readColumns_eq_error {layout : Layout} {columns : List Column} {cursor final : Cursor}
    {fault : Fault} (refused : layout.readColumns columns cursor = .error fault final) :
    fault = .outOfBounds ∧ final.data = cursor.data ∧ cursor.position ≤ final.position ∧
      (final.position = cursor.position ∨ final.position ≤ cursor.data.length) := by
  induction columns generalizing cursor with
  | nil => cases refused
  | cons column rest ih =>
    rw [readColumns, List.mapM_cons, Reader.bind_eq_error] at refused
    rcases refused with first | ⟨number, middle, taken, later⟩
    · obtain ⟨rfl, rfl⟩ := read_eq_error first
      exact ⟨rfl, rfl, Nat.le_refl _, .inl rfl⟩
    obtain ⟨room, -, rfl⟩ := (layout.read_eq_ok _ _ _ _).mp taken
    rcases (Reader.bind_eq_error _ _ _ _ _).mp later with later | ⟨_, _, _, impossible⟩
    · obtain ⟨fault_eq, data, onward, short⟩ := ih later
      dsimp only [Cursor.forward] at data onward short
      refine ⟨fault_eq, data, by omega, .inr ?_⟩
      omega
    · cases impossible

theorem length_encodeColumns (layout : Layout) {columns : List Column} {numbers : List Nat}
    (same : numbers.length = columns.length) :
    (layout.encodeColumns columns numbers).length = layout.sizeOfColumns columns := by
  induction columns generalizing numbers with
  | nil => rfl
  | cons column rest ih =>
    cases numbers with
    | nil => cases same
    | cons number later =>
      have behind := ih (Nat.succ.inj same)
      rw [encodeColumns] at behind
      rw [encodeColumns, List.zipWith_cons_cons, List.flatten_cons, List.length_append, behind,
        length_encode, sizeOfColumns_cons]

theorem Holds.readColumns_encode {layout : Layout} {columns : List Column} {numbers : List Nat}
    (holds : layout.Holds columns numbers) {cursor : Cursor} {behind : Bytes}
    (faces : cursor.Faces (layout.encodeColumns columns numbers ++ behind)) :
    layout.readColumns columns cursor =
      .ok numbers (cursor.forward (layout.sizeOfColumns columns)) := by
  induction holds generalizing cursor with
  | nil => rfl
  | @cons column number rest later fits _ ih =>
    rw [encodeColumns, List.zipWith_cons_cons, List.flatten_cons, List.append_assoc] at faces
    have first := read_encode faces fits
    have onward := faces.forward
    rw [length_encode] at first onward
    have more := ih onward
    rw [Cursor.forward_forward, ← sizeOfColumns_cons] at more
    exact readColumns_cons_eq_ok.mpr ⟨number, later, first, more, rfl⟩

/-- A reader of rows takes some columns; what it makes of them shows their numbers and the number of
    the row that it was given. -/
def Takes {Row : Type} (layout : Layout) (columns : List Column) (rid : Nat)
    (shown : Row → Nat × List Nat) (reader : Reader Row) : Prop :=
  shown <$> reader = (rid, ·) <$> layout.readColumns columns

section

variable {Row : Type} {layout : Layout} {columns : List Column} {rid : Nat}
  {shown : Row → Nat × List Nat} {reader : Reader Row}
  (takes : layout.Takes columns rid shown reader)

include takes

theorem Takes.shown_of_ok {cursor final : Cursor} {row : Row}
    (taken : reader cursor = .ok row final) :
    (shown row).1 = rid ∧ layout.readColumns columns cursor = .ok (shown row).2 final := by
  have mapped := (Reader.map_eq_ok shown _ _ _ _).mpr ⟨row, taken, rfl⟩
  rw [takes, Reader.map_eq_ok] at mapped
  obtain ⟨numbers, read, pair⟩ := mapped
  rw [← pair]
  exact ⟨rfl, read⟩

theorem Takes.ok_of_numbers {cursor final : Cursor} {numbers : List Nat}
    (taken : layout.readColumns columns cursor = .ok numbers final) :
    ∃ row, reader cursor = .ok row final ∧ shown row = (rid, numbers) := by
  have mapped := (Reader.map_eq_ok (rid, ·) _ _ _ _).mpr ⟨numbers, taken, rfl⟩
  rwa [← takes, Reader.map_eq_ok] at mapped

theorem Takes.error_of_error {cursor final : Cursor} {fault : Fault}
    (refused : reader cursor = .error fault final) :
    layout.readColumns columns cursor = .error fault final := by
  have mapped := (Reader.map_eq_error shown _ _ _ _).mpr refused
  rwa [takes, Reader.map_eq_error] at mapped

theorem Takes.read_fits (cursor : Cursor)
    (fits : cursor.position + layout.sizeOfColumns columns ≤ cursor.data.length) :
    ∃ row, reader cursor = .ok row (cursor.forward (layout.sizeOfColumns columns)) := by
  obtain ⟨numbers, final, taken⟩ := readColumns_fits fits
  obtain ⟨row, read, -⟩ := takes.ok_of_numbers taken
  rw [readColumns_final taken] at read
  exact ⟨row, read⟩

theorem Takes.read_encode {row : Row} (injective : Function.Injective shown)
    (numbered : (shown row).1 = rid) (holds : layout.Holds columns (shown row).2)
    {cursor : Cursor} {behind : Bytes}
    (faces : cursor.Faces (layout.encodeColumns columns (shown row).2 ++ behind)) :
    reader cursor = .ok row (cursor.forward (layout.sizeOfColumns columns)) := by
  obtain ⟨found, read, shown_eq⟩ := takes.ok_of_numbers (holds.readColumns_encode faces)
  have same : found = row := injective (shown_eq.trans (Prod.ext numbered.symm rfl))
  rwa [same] at read

end

end Managed.Metadata.Layout
