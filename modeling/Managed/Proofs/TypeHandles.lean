import Managed.Proofs.TypedImages

namespace Managed

namespace Metadata.Token

theorem number_lt (table : Table) : table.number < 256 := by
  cases table <;> decide

theorem value_ofRow (table : Table) (row : Nat) :
    (ofRow table row).value.toNat = table.number * rowRange + row % rowRange := by
  have bound := number_lt table
  have low := Nat.mod_lt row (show 0 < rowRange by decide)
  apply UInt32.toNat_ofNat_of_lt'
  simp only [rowRange, UInt32.size] at low ⊢
  omega

theorem table_ofRow (table : Table) (row : Nat) : (ofRow table row).table = table.number := by
  rw [Token.table, value_ofRow]
  simp only [rowRange]
  omega

theorem row_ofRow (table : Table) (row : Nat) : (ofRow table row).row = row % rowRange := by
  rw [Token.row, value_ofRow]
  simp only [rowRange]
  omega

/-- Rows whose numbers differ in the top bits only have one token. -/
theorem ofRow_eq_iff (table : Table) (first second : Nat) :
    ofRow table first = ofRow table second ↔ first % rowRange = second % rowRange := by
  constructor
  · intro same
    rw [← row_ofRow table first, same, row_ofRow]
  · intro same
    rw [ofRow, ofRow, same]

end Metadata.Token

namespace Module

open Metadata

theorem typeHandle?_eq_some {loaded : Module} {rid : Nat} {handle : TypeHandle} :
    loaded.typeHandle? rid = some handle ↔
      (1 ≤ rid ∧ rid ≤ loaded.rowCount .typeDef) ∧ handle = ⟨loaded.id, .ofRow .typeDef rid⟩ := by
  rw [typeHandle?]
  split
  · rename_i there
    rw [Option.some.injEq, eq_comm]
    exact ⟨fun same => ⟨⟨by omega, there.2⟩, same⟩, fun both => both.2⟩
  · rename_i absent
    exact ⟨nofun, fun both => absurd ⟨by omega, both.1.2⟩ absent⟩

def NamesRows (loaded : Module) : Prop :=
  ∀ rid handle, loaded.typeHandle? rid = some handle →
    handle.token.table = 0x02 ∧ handle.token.row = rid

def TellsApart (first second : Module) : Prop :=
  ∀ rid other handle otherHandle, first.typeHandle? rid = some handle →
    second.typeHandle? other = some otherHandle →
      (handle = otherHandle ↔ first.id = second.id ∧ rid = other)

theorem handle_eq_iff {first second : Module} {rid other : Nat} {handle otherHandle : TypeHandle}
    (given : first.typeHandle? rid = some handle)
    (other_given : second.typeHandle? other = some otherHandle) :
    handle = otherHandle ↔
      first.id = second.id ∧ rid % Token.rowRange = other % Token.rowRange := by
  obtain ⟨-, rfl⟩ := typeHandle?_eq_some.mp given
  obtain ⟨-, rfl⟩ := typeHandle?_eq_some.mp other_given
  rw [Handle.mk.injEq, Token.ofRow_eq_iff]

theorem namesRows_iff (loaded : Module) :
    loaded.NamesRows ↔ loaded.rowCount .typeDef < Token.rowRange := by
  constructor
  · intro names
    refine Nat.not_le.mp fun many => ?_
    have last : loaded.typeHandle? Token.rowRange =
        some ⟨loaded.id, .ofRow .typeDef Token.rowRange⟩ :=
      typeHandle?_eq_some.mpr ⟨⟨by decide, many⟩, rfl⟩
    have named := (names _ _ last).2
    rw [Token.row_ofRow, Nat.mod_self] at named
    exact absurd named (by decide)
  · intro few rid handle given
    obtain ⟨there, rfl⟩ := typeHandle?_eq_some.mp given
    refine ⟨Token.table_ofRow _ _, ?_⟩
    rw [Token.row_ofRow, Nat.mod_eq_of_lt (by omega)]

theorem tellsApart_of_ids {first second : Module} (different : first.id ≠ second.id) :
    first.TellsApart second := by
  intro rid other handle otherHandle given other_given
  rw [handle_eq_iff given other_given]
  exact iff_of_false (fun both => different both.1) (fun both => different both.1)

theorem tellsApart_self_iff (loaded : Module) :
    loaded.TellsApart loaded ↔ loaded.rowCount .typeDef ≤ Token.rowRange := by
  constructor
  · intro tells
    refine Nat.not_lt.mp fun many => ?_
    have first : loaded.typeHandle? 1 = some ⟨loaded.id, .ofRow .typeDef 1⟩ :=
      typeHandle?_eq_some.mpr ⟨⟨Nat.le_refl 1, by omega⟩, rfl⟩
    have later : loaded.typeHandle? (Token.rowRange + 1) =
        some ⟨loaded.id, .ofRow .typeDef (Token.rowRange + 1)⟩ :=
      typeHandle?_eq_some.mpr ⟨⟨Nat.le_add_left 1 Token.rowRange, many⟩, rfl⟩
    have same := (handle_eq_iff first later).mpr ⟨rfl, by decide⟩
    exact absurd ((tells _ _ _ _ first later).mp same).2 (by decide)
  · intro few rid other handle otherHandle given other_given
    obtain ⟨there, -⟩ := typeHandle?_eq_some.mp given
    obtain ⟨other_there, -⟩ := typeHandle?_eq_some.mp other_given
    rw [handle_eq_iff given other_given]
    refine and_congr_right fun _ => ⟨fun same => ?_, fun same => by rw [same]⟩
    simp only [Token.rowRange] at few same
    omega

/-- Handles are given for the rows that exist. A token has room for the low bits of the row number
    only, so that up to `2 ^ 24` rows are told apart, and all but the last of these are named. -/
theorem typeHandles_exact (loaded : Module) :
    (∀ rid, (loaded.typeHandle? rid).isSome ↔ 1 ≤ rid ∧ rid ≤ loaded.rowCount .typeDef) ∧
    (∀ rid handle, loaded.typeHandle? rid = some handle →
      handle.owner = loaded.id ∧ handle.token.table = 0x02 ∧ handle.token.row = rid % 2 ^ 24) ∧
    (∀ (other : Module) rid otherRid handle otherHandle, loaded.typeHandle? rid = some handle →
      other.typeHandle? otherRid = some otherHandle →
        (handle = otherHandle ↔ loaded.id = other.id ∧ rid % 2 ^ 24 = otherRid % 2 ^ 24)) ∧
    (loaded.NamesRows ↔ loaded.rowCount .typeDef < 2 ^ 24) ∧
    (loaded.TellsApart loaded ↔ loaded.rowCount .typeDef ≤ 2 ^ 24) ∧
    ∀ other : Module, loaded.id ≠ other.id → loaded.TellsApart other := by
  refine ⟨fun rid => ?_, fun rid handle given => ?_, fun other rid otherRid handle otherHandle =>
    handle_eq_iff, namesRows_iff loaded, tellsApart_self_iff loaded, fun other =>
    tellsApart_of_ids⟩
  · rw [Option.isSome_iff_exists]
    simp only [typeHandle?_eq_some, exists_and_left, exists_eq, and_true]
  · obtain ⟨-, rfl⟩ := typeHandle?_eq_some.mp given
    exact ⟨rfl, Token.table_ofRow _ _, Token.row_ofRow _ _⟩

open scoped Image.Container

/-- With one row more than a token can tell, the last row has the handle of the first one. -/
theorem last_row_as_first :
    ∃ loaded, Module.ofBytes ⟨1⟩ "/Types.netmodule"
        (TypedImage.image (TypedImage.draft (2 ^ 24 + 1)).bytes) = .ok loaded ∧
      loaded.rowCount .typeDef = 2 ^ 24 + 1 ∧
      (∃ handle, loaded.typeHandle? 1 = some handle ∧
        loaded.typeHandle? (2 ^ 24 + 1) = some handle ∧ handle.token.row = 1) ∧
      ¬ loaded.NamesRows ∧ ¬ loaded.TellsApart loaded := by
  have room : 542 + 16 * (2 ^ 24 + 1) < 2 ^ 32 := by decide
  obtain ⟨loaded, read, -, count⟩ := types_loaded ⟨1⟩ "/Types.netmodule" room
  refine ⟨loaded, read, count, ⟨⟨loaded.id, .ofRow .typeDef 1⟩, ?_, ?_, ?_⟩, ?_, ?_⟩
  · rw [typeHandle?_eq_some, count]
    exact ⟨⟨Nat.le_refl 1, by decide⟩, rfl⟩
  · rw [typeHandle?_eq_some, count, Handle.mk.injEq, Token.ofRow_eq_iff]
    exact ⟨⟨by decide, Nat.le_refl _⟩, rfl, by decide⟩
  · rw [Token.row_ofRow]
    decide
  · rw [namesRows_iff, count]
    decide
  · rw [tellsApart_self_iff, count]
    decide

end Module

end Managed
