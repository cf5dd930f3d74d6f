import Mathlib.Data.List.Sort
import Managed.OptionalFields.Encoding
import Managed.Proofs.SevenBit

namespace Managed.FieldSet

open Integer

def Precedes (left right : FieldTag × UInt32) : Prop := left.1.index < right.1.index

instance : Std.Irrefl Precedes := ⟨fun _ => Nat.lt_irrefl _⟩

instance : Std.Antisymm Precedes := ⟨fun _ _ less more => absurd less (Nat.lt_asymm more)⟩

def Rising (previous : Option FieldTag) (entries : List (FieldTag × UInt32)) : Prop :=
  (∀ entry ∈ entries, follows previous entry.1) ∧ entries.Pairwise Precedes

theorem follows_trans {previous : Option FieldTag} {middle tag : FieldTag}
    (first : follows previous middle) (second : follows (some middle) tag) :
    follows previous tag := by
  cases previous with
  | none => exact True.intro
  | some earlier => exact Nat.lt_trans first second

theorem rising_nil (previous : Option FieldTag) : Rising previous [] :=
  ⟨by simp, List.Pairwise.nil⟩

theorem rising_cons (previous : Option FieldTag) (entry : FieldTag × UInt32)
    (rest : List (FieldTag × UInt32)) :
    Rising previous (entry :: rest) ↔ follows previous entry.1 ∧ Rising (some entry.1) rest := by
  simp only [Rising, List.forall_mem_cons, List.pairwise_cons]
  constructor
  · intro rising
    obtain ⟨⟨first, -⟩, after, ordered⟩ := rising
    exact ⟨first, after, ordered⟩
  · intro rising
    obtain ⟨first, after, ordered⟩ := rising
    exact ⟨⟨first, fun later member => follows_trans first (after later member)⟩, after, ordered⟩

theorem mem_all (tag : FieldTag) : tag ∈ FieldTag.all := by
  cases tag <;> decide

theorem mem_entries (fields : FieldSet) (tag : FieldTag) (value : UInt32) :
    (tag, value) ∈ fields.entries ↔ fields.get? tag = some value := by
  simp [entries, mem_all]

theorem rising_entries (fields : FieldSet) : Rising none fields.entries := by
  refine ⟨fun _ _ => True.intro, ?_⟩
  have ordered : FieldTag.all.Pairwise fun left right => left.index < right.index := by decide
  apply ordered.filterMap _
  intro left right less first found second found'
  obtain ⟨_, -, rfl⟩ := Option.map_eq_some_iff.mp found
  obtain ⟨_, -, rfl⟩ := Option.map_eq_some_iff.mp found'
  exact less

theorem get?_foldl_set (entries : List (FieldTag × UInt32)) (fields : FieldSet)
    (tag : FieldTag) (value : UInt32) (ordered : entries.Pairwise Precedes) :
    (entries.foldl (fun fields entry => fields.set entry.1 entry.2) fields).get? tag = some value ↔
      (tag, value) ∈ entries ∨
        fields.get? tag = some value ∧ ∀ entry ∈ entries, entry.1 ≠ tag := by
  induction entries generalizing fields with
  | nil => simp
  | cons entry rest ih =>
    rw [List.pairwise_cons] at ordered
    have later : ∀ other ∈ rest, other.1 ≠ entry.1 := by
      intro other member same
      have less : entry.1.index < other.1.index := ordered.1 other member
      rw [same] at less
      exact Nat.lt_irrefl _ less
    rw [List.foldl_cons, ih _ ordered.2, set, get?_put, List.mem_cons, List.forall_mem_cons]
    by_cases same : tag = entry.1
    · subst same
      have absent : (entry.1, value) ∉ rest := fun member => later _ member rfl
      simp only [absent, if_true, Option.some.injEq, false_or, ne_eq, not_true, false_and, and_false,
        or_false, Prod.ext_iff, true_and]
      exact ⟨fun found => found.1.symm, fun found => ⟨found.symm, later⟩⟩
    · have other : (tag, value) ≠ entry := fun equal => same (congrArg Prod.fst equal)
      have differs : entry.1 ≠ tag := fun equal => same equal.symm
      simp only [if_neg same, other, false_or, ne_eq, differs, not_false_eq_true, true_and]

theorem get?_ofEntries (entries : List (FieldTag × UInt32)) (tag : FieldTag) (value : UInt32)
    (ordered : entries.Pairwise Precedes) :
    (ofEntries entries).get? tag = some value ↔ (tag, value) ∈ entries := by
  rw [ofEntries, get?_foldl_set entries empty tag value ordered]
  have absent : empty.get? tag ≠ some value := by cases tag <;> simp [empty, get?]
  simp only [absent, false_and, or_false]

theorem ofEntries_entries (fields : FieldSet) : ofEntries fields.entries = fields := by
  apply ext_get?
  intro tag
  apply Option.ext
  intro value
  rw [get?_ofEntries _ _ _ (rising_entries fields).2, mem_entries]

theorem entries_ofEntries (entries : List (FieldTag × UInt32)) (rising : Rising none entries) :
    (ofEntries entries).entries = entries := by
  apply (rising_entries _).2.eq_of_mem_iff rising.2
  intro entry
  obtain ⟨tag, value⟩ := entry
  rw [mem_entries, get?_ofEntries _ _ _ rising.2]

def mark (tag : FieldTag) (last : Bool) : Nat :=
  if last then lastFieldMark + tag.index else tag.index

theorem mark_lt (tag : FieldTag) (last : Bool) : mark tag last < 256 := by
  have bound := tag.index_le
  cases last <;> simp only [mark, lastFieldMark] <;> simp <;> omega

theorem mark_mod (tag : FieldTag) (last : Bool) : mark tag last % lastFieldMark = tag.index := by
  have bound := tag.index_le
  cases last <;> simp only [mark, lastFieldMark] <;> simp <;> omega

theorem mark_lt_lastFieldMark (tag : FieldTag) (last : Bool) :
    mark tag last < lastFieldMark ↔ last = false := by
  have bound := tag.index_le
  cases last <;> simp only [mark, lastFieldMark] <;> simp
  omega

theorem encodeEntries_cons (tag : FieldTag) (value : UInt32) (rest : List (FieldTag × UInt32)) :
    encodeEntries ((tag, value) :: rest) =
      UInt8.ofNat (mark tag rest.isEmpty) :: (SevenBit.encode value ++ encodeEntries rest) := by
  cases rest with
  | nil => simp [encodeEntries, mark]
  | cons next rest => simp [encodeEntries, mark]

theorem ofIndex?_eq_some (index : Nat) (tag : FieldTag) (found : FieldTag.ofIndex? index = some tag) :
    index = tag.index := by
  unfold FieldTag.ofIndex? FieldTag.all at found
  match index with
  | 0 | 1 | 2 | 3 | 4 | 5 => cases found; rfl
  | _ + 6 => cases found

theorem ofNat_mark (byte : UInt8) (tag : FieldTag) (last : Bool)
    (low : byte.toNat % lastFieldMark = tag.index)
    (high : byte.toNat < lastFieldMark ↔ last = false) :
    UInt8.ofNat (mark tag last) = byte := by
  have bound := byte.toNat_lt
  have same : mark tag last = byte.toNat := by
    unfold lastFieldMark at low high
    cases last with
    | false => simp only [mark]; simp only [iff_true] at high; simp; omega
    | true => simp only [mark, lastFieldMark]; simp at high; simp; omega
  rw [same, UInt8.ofNat_toNat]

/-- Whatever is read is the encoding of the fields that it gives. -/
theorem encodeEntries_of_readEntries (previous : Option FieldTag) (cursor final : Cursor)
    (entries : List (FieldTag × UInt32))
    (accepted : readEntries previous cursor = .ok entries final) :
    Rising previous entries ∧ (previous ≠ none → entries ≠ []) ∧
      cursor.rest = encodeEntries entries := by
  rw [readEntries, Reader.bind_eq_ok] at accepted
  obtain ⟨_, _, looked, accepted⟩ := accepted
  rw [Reader.atEnd_eq] at looked
  cases looked
  split at accepted
  · rename_i ended
    split at accepted
    · exact absurd accepted (Reader.malformed_ne_ok _ _ _ _)
    rename_i first
    obtain ⟨rfl, rfl⟩ := (Reader.pure_eq_ok _ _ _ _).mp accepted
    refine ⟨rising_nil previous, fun later => ?_, List.isEmpty_iff.mp ended⟩
    exact absurd (Option.isSome_iff_ne_none.mpr later) first
  · simp only [Reader.bind_eq_ok, Reader.byte_eq_ok] at accepted
    obtain ⟨_, _, ⟨byte, behind, ahead, rfl, rfl⟩, accepted⟩ := accepted
    cases known : FieldTag.ofIndex? (byte.toNat % lastFieldMark) with
    | none =>
      simp only [known] at accepted
      exact absurd accepted (Reader.malformed_ne_ok _ _ _ _)
    | some tag =>
      simp only [known] at accepted
      have low := ofIndex?_eq_some _ _ known
      split at accepted
      · rename_i rising
        simp only [Reader.bind_eq_ok, SevenBit.read_eq_ok] at accepted
        obtain ⟨value, _, ⟨⟨following, written⟩, rfl⟩, accepted⟩ := accepted
        rw [Cursor.rest_forward, ahead, List.drop_one, List.tail_cons] at written
        have behind_value : ((cursor.forward 1).forward (SevenBit.encode value).length).rest =
            following := Cursor.rest_forward_cons cursor byte _ _ (by rw [ahead, written])
        split at accepted
        · rename_i unmarked
          simp only [Reader.bind_eq_ok, Reader.pure_eq_ok] at accepted
          obtain ⟨rest, _, read, rfl, rfl⟩ := accepted
          obtain ⟨later, more, remaining⟩ := encodeEntries_of_readEntries (some tag) _ _ _ read
          have not_last : rest.isEmpty = false := by simpa using more
          refine ⟨(rising_cons _ _ _).mpr ⟨rising, later⟩, by simp, ?_⟩
          rw [encodeEntries_cons, ofNat_mark byte tag _ low (by simp [unmarked, not_last]), ahead,
            ← written, ← behind_value, remaining]
        · rename_i marked
          simp only [Reader.bind_eq_ok, Reader.atEnd_eq] at accepted
          obtain ⟨_, _, looked, accepted⟩ := accepted
          cases looked
          split at accepted
          · rename_i ended
            obtain ⟨rfl, rfl⟩ := (Reader.pure_eq_ok _ _ _ _).mp accepted
            rw [behind_value, List.isEmpty_iff] at ended
            refine ⟨(rising_cons _ _ _).mpr ⟨rising, rising_nil _⟩, by simp, ?_⟩
            rw [encodeEntries_cons, ofNat_mark byte tag _ low (by simp [marked]), ahead,
              ← written, ended, encodeEntries]
          · rw [Reader.bind_eq_ok] at accepted
            obtain ⟨_, _, -, accepted⟩ := accepted
            exact absurd accepted (Reader.malformed_ne_ok _ _ _ _)
      · exact absurd accepted (Reader.malformed_ne_ok _ _ _ _)
termination_by room previous
decreasing_by exact room_lt (by assumption)

def fieldBytes (entry : FieldTag × UInt32) (last : Bool) : Bytes :=
  UInt8.ofNat (mark entry.1 last) :: SevenBit.encode entry.2

theorem encodeEntries_cons_eq (entry : FieldTag × UInt32) (rest : List (FieldTag × UInt32)) :
    encodeEntries (entry :: rest) = fieldBytes entry rest.isEmpty ++ encodeEntries rest :=
  encodeEntries_cons entry.1 entry.2 rest

def readBehind (entry : FieldTag × UInt32) : (last : Bool) → Reader (List (FieldTag × UInt32))
  | false => do
    let rest ← readEntries (some entry.1)
    return entry :: rest
  | true => do
    if ← Reader.atEnd then return [entry]
    else Reader.malformed (.trailingFieldData (← Reader.remaining))

theorem readEntries_field {previous : Option FieldTag} {entry : FieldTag × UInt32} {last : Bool}
    {cursor : Cursor} {behind : Bytes} (rising : follows previous entry.1)
    (ahead : cursor.rest = fieldBytes entry last ++ behind) :
    readEntries previous cursor =
      readBehind entry last (cursor.forward (fieldBytes entry last).length) := by
  rw [fieldBytes, List.cons_append] at ahead
  have same : (UInt8.ofNat (mark entry.1 last)).toNat = mark entry.1 last :=
    UInt8.toNat_ofNat_of_lt' (mark_lt entry.1 last)
  have mark_read := (Reader.byte_eq_ok cursor _ _).mpr ⟨_, _, ahead, rfl, rfl⟩
  have value_read : SevenBit.read (cursor.forward 1) =
      .ok entry.2 ((cursor.forward 1).forward (SevenBit.encode entry.2).length) := by
    rw [SevenBit.read_eq_ok, Cursor.rest_forward, ahead]
    exact ⟨⟨_, rfl⟩, rfl⟩
  rw [readEntries, Reader.bind_of_ok (Reader.atEnd_eq cursor), ahead, if_neg (by simp),
    Reader.bind_of_ok mark_read, same, mark_mod, FieldTag.ofIndex?_index]
  simp only [dif_pos rising]
  rw [Reader.bind_of_ok value_read, fieldBytes, List.length_cons, Cursor.forward_forward,
    Nat.add_comm 1]
  cases last with
  | false => rw [if_pos ((mark_lt_lastFieldMark _ _).mpr rfl), readBehind]
  | true => rw [if_neg (by simp [mark_lt_lastFieldMark]), readBehind]

theorem rest_behind_field {entry : FieldTag × UInt32} {last : Bool} {cursor : Cursor}
    {behind : Bytes} (ahead : cursor.rest = fieldBytes entry last ++ behind) :
    (cursor.forward (fieldBytes entry last).length).rest = behind := by
  rw [Cursor.rest_forward, ahead, List.drop_left]

theorem readEntries_encodeEntries (previous : Option FieldTag) (cursor : Cursor)
    (entries : List (FieldTag × UInt32)) (rising : Rising previous entries)
    (some_field : previous ≠ none → entries ≠ []) (ahead : cursor.rest = encodeEntries entries) :
    readEntries previous cursor = .ok entries (cursor.forward (encodeEntries entries).length) := by
  induction entries generalizing previous cursor with
  | nil =>
    have first : previous = none := by
      by_contra later
      exact some_field later rfl
    subst first
    rw [readEntries, Reader.bind_eq_ok]
    refine ⟨_, _, Reader.atEnd_eq cursor, ?_⟩
    rw [ahead]
    simp [encodeEntries, Cursor.forward, Reader.pure_eq_ok]
  | cons entry rest ih =>
    obtain ⟨first, later⟩ := (rising_cons _ _ _).mp rising
    rw [encodeEntries_cons_eq] at ahead ⊢
    have remaining := rest_behind_field ahead
    rw [readEntries_field first ahead]
    cases rest with
    | nil =>
      rw [List.isEmpty_nil] at remaining ⊢
      rw [readBehind, Reader.bind_of_ok (Reader.atEnd_eq _), remaining]
      simp [encodeEntries, Reader.pure_eq_ok]
    | cons next rest =>
      have read := ih (some entry.1) _ later (by simp) remaining
      rw [List.isEmpty_cons] at read ⊢
      rw [readBehind, Reader.bind_of_ok read, Cursor.forward_forward, List.length_append]
      rfl

theorem decode_eq_ok (data : Bytes) (fields : FieldSet) :
    decode data = .ok fields ↔ data = fields.encode := by
  have mapped : decode data = .ok fields ↔
      ∃ entries, Reader.run? (readEntries none) data = .ok entries ∧ ofEntries entries = fields := by
    unfold decode
    cases Reader.run? (readEntries none) data with
    | error fault => simp [Except.map]
    | ok entries => simp [Except.map]
  simp only [mapped, Reader.run?_eq_ok]
  constructor
  · intro accepted
    obtain ⟨entries, ⟨final, read⟩, rfl⟩ := accepted
    obtain ⟨rising, -, written⟩ := encodeEntries_of_readEntries none _ _ _ read
    rw [encode, entries_ofEntries entries rising, ← written, Cursor.rest_ofBytes]
  · intro same
    subst same
    have read := readEntries_encodeEntries none (Cursor.ofBytes fields.encode) fields.entries
      (rising_entries fields) (by simp) rfl
    exact ⟨fields.entries, ⟨_, read⟩, ofEntries_entries fields⟩

theorem encode_empty : empty.encode = [] := rfl

/-- Every set has one encoding, no other bytes are accepted, and freezing changes none of them. -/
theorem encoding_canonical :
    (∀ data fields, decode data = .ok fields ↔ data = fields.encode) ∧
      (∀ fields : FieldSet, decode fields.encode = .ok fields) ∧
      (∀ data fields, decode data = .ok fields → fields.encode = data) ∧
      (∀ left right fields, decode left = .ok fields → decode right = .ok fields → left = right) ∧
      (∀ data, decode data = .ok empty ↔ data = []) ∧
      (∀ fields : FieldSet, fields.encode = [] ↔ fields = empty) ∧
      ∀ fields : FieldSet, fields.freeze.data = fields.encode := by
  refine ⟨decode_eq_ok, ?_, ?_, ?_, ?_, ?_, ?_⟩
  · intro fields
    exact (decode_eq_ok _ _).mpr rfl
  · intro data fields accepted
    exact ((decode_eq_ok _ _).mp accepted).symm
  · intro left right fields first second
    rw [(decode_eq_ok _ _).mp first, (decode_eq_ok _ _).mp second]
  · intro data
    rw [decode_eq_ok, encode_empty]
  · intro fields
    constructor
    · intro nothing
      have accepted := (decode_eq_ok [] fields).mpr nothing.symm
      have accepted_empty := (decode_eq_ok [] empty).mpr encode_empty.symm
      rw [accepted] at accepted_empty
      exact Except.ok.inj accepted_empty
    · intro same
      subst same
      exact encode_empty
  · intro fields
    rfl

end Managed.FieldSet
