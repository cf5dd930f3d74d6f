import Managed.Proofs.FieldEncoding
import Managed.Proofs.SevenBitFaults

namespace Managed.FieldSet

open Integer

def openFields (entries : List (FieldTag × UInt32)) : Bytes :=
  entries.flatMap (fieldBytes · false)

/-- The bytes go up to the end of a field that is not the last one. -/
def EndsBetween (entries : List (FieldTag × UInt32)) (taken : Bytes) : Prop :=
  ∃ before after, before ≠ [] ∧ after ≠ [] ∧ entries = before ++ after ∧ taken = openFields before

/-- The bytes go up to a place within a field, at the earliest behind its tag byte. -/
def EndsWithin (entries : List (FieldTag × UInt32)) (taken : Bytes) : Prop :=
  ∃ before entry after part, entries = before ++ entry :: after ∧ part ≠ [] ∧
    part <+: fieldBytes entry after.isEmpty ∧ part ≠ fieldBytes entry after.isEmpty ∧
      taken = openFields before ++ part

theorem openFields_cons (entry : FieldTag × UInt32) (rest : List (FieldTag × UInt32)) :
    openFields (entry :: rest) = fieldBytes entry false ++ openFields rest := rfl

theorem encodeEntries_append (before : List (FieldTag × UInt32)) (entry : FieldTag × UInt32)
    (after : List (FieldTag × UInt32)) :
    encodeEntries (before ++ entry :: after) =
      openFields before ++ (fieldBytes entry after.isEmpty ++ encodeEntries after) := by
  induction before with
  | nil => exact encodeEntries_cons_eq entry after
  | cons first rest ih =>
    have more : (rest ++ entry :: after).isEmpty = false := by
      rw [List.isEmpty_eq_false_iff]
      exact List.append_ne_nil_of_right_ne_nil _ (List.cons_ne_nil _ _)
    rw [List.cons_append, encodeEntries_cons_eq, more, ih, openFields_cons, List.append_assoc]

theorem EndsBetween.cons {entry : FieldTag × UInt32} {rest : List (FieldTag × UInt32)}
    {taken : Bytes} (between : EndsBetween rest taken) :
    EndsBetween (entry :: rest) (fieldBytes entry false ++ taken) := by
  obtain ⟨before, after, -, some_after, rfl, rfl⟩ := between
  exact ⟨entry :: before, after, List.cons_ne_nil _ _, some_after, rfl, rfl⟩

theorem EndsWithin.cons {entry : FieldTag × UInt32} {rest : List (FieldTag × UInt32)}
    {taken : Bytes} (within : EndsWithin rest taken) :
    EndsWithin (entry :: rest) (fieldBytes entry false ++ taken) := by
  obtain ⟨before, other, after, part, rfl, some_part, begins, short, rfl⟩ := within
  refine ⟨entry :: before, other, after, part, rfl, some_part, begins, short, ?_⟩
  rw [openFields_cons, List.append_assoc]

/-- There are three kinds of places where an encoding can be cut. -/
theorem cut_cases (entries : List (FieldTag × UInt32)) (taken : Bytes)
    (begins : taken <+: encodeEntries entries) (short : taken ≠ encodeEntries entries) :
    taken = [] ∨ EndsBetween entries taken ∨ EndsWithin entries taken := by
  induction entries generalizing taken with
  | nil => exact absurd (List.prefix_nil.mp begins) short
  | cons entry rest ih =>
    rw [encodeEntries_cons_eq] at begins short
    rcases List.prefix_or_prefix_of_prefix begins (List.prefix_append _ _) with
      inside | ⟨later, rfl⟩
    · by_cases nothing : taken = []
      · exact .inl nothing
      by_cases whole : taken = fieldBytes entry rest.isEmpty
      · -- Behind a whole field the cut is one before the fields that are left.
        subst whole
        cases rest with
        | nil => exact absurd (List.append_nil _).symm short
        | cons next rest =>
          exact .inr (.inl ⟨[entry], next :: rest, List.cons_ne_nil _ _, List.cons_ne_nil _ _, rfl,
            (List.append_nil _).symm⟩)
      · exact .inr (.inr ⟨[], entry, rest, taken, rfl, nothing, inside, whole, rfl⟩)
    · have onward := (List.prefix_append_right_inj _).mp begins
      have shorter : later ≠ encodeEntries rest := fun whole => short (by rw [whole])
      cases rest with
      | nil => exact absurd (List.prefix_nil.mp onward) shorter
      | cons next rest =>
        rw [List.isEmpty_cons]
        rcases ih later onward shorter with rfl | between | within
        · exact .inr (.inl ⟨[entry], next :: rest, List.cons_ne_nil _ _, List.cons_ne_nil _ _, rfl,
            rfl⟩)
        · exact .inr (.inl between.cons)
        · exact .inr (.inr within.cons)

def lastRead (previous : Option FieldTag) (entries : List (FieldTag × UInt32)) : Option FieldTag :=
  entries.foldl (fun _ entry => some entry.1) previous

theorem lastRead_ne_none {previous : Option FieldTag} {entries : List (FieldTag × UInt32)}
    (some_field : entries ≠ []) : lastRead previous entries ≠ none := by
  induction entries generalizing previous with
  | nil => exact absurd rfl some_field
  | cons entry rest ih =>
    cases rest with
    | nil => exact Option.some_ne_none _
    | cons next rest => exact @ih (some entry.1) (List.cons_ne_nil _ _)

theorem rising_append (previous : Option FieldTag) (before after : List (FieldTag × UInt32)) :
    Rising previous (before ++ after) ↔
      Rising previous before ∧ Rising (lastRead previous before) after := by
  induction before generalizing previous with
  | nil => exact ⟨fun rising => ⟨rising_nil _, rising⟩, And.right⟩
  | cons entry rest ih =>
    rw [List.cons_append, rising_cons, rising_cons, ih, and_assoc]
    rfl

/-- A fault behind fields that are not the last is the fault of all of them. -/
theorem readEntries_open (previous : Option FieldTag) (before : List (FieldTag × UInt32))
    (cursor : Cursor) (behind : Bytes) (rising : Rising previous before)
    (ahead : cursor.rest = openFields before ++ behind) (fault : Fault)
    (refused : ∀ cursor : Cursor, cursor.rest = behind →
      ∃ final, readEntries (lastRead previous before) cursor = .error fault final) :
    ∃ final, readEntries previous cursor = .error fault final := by
  induction before generalizing previous cursor with
  | nil => exact refused cursor ahead
  | cons entry rest ih =>
    obtain ⟨first, later⟩ := (rising_cons _ _ _).mp rising
    rw [openFields_cons, List.append_assoc] at ahead
    obtain ⟨final, read⟩ := ih (some entry.1) _ later (rest_behind_field ahead) refused
    rw [readEntries_field first ahead, readBehind]
    exact ⟨final, (Reader.bind_eq_error _ _ _ _ _).mpr (.inl read)⟩

theorem readEntries_ended {previous : Option FieldTag} (later : previous ≠ none) (cursor : Cursor)
    (ended : cursor.rest = []) :
    readEntries previous cursor = .error (.malformed .fieldsNotTerminated) cursor := by
  rw [readEntries, Reader.bind_of_ok (Reader.atEnd_eq cursor), ended,
    if_pos (Option.isSome_iff_ne_none.mpr later)]
  rfl

theorem readEntries_trailing {previous : Option FieldTag} {entry : FieldTag × UInt32}
    {cursor : Cursor} {behind : Bytes} (rising : follows previous entry.1)
    (ahead : cursor.rest = fieldBytes entry true ++ behind) (some_behind : behind ≠ []) :
    ∃ final, readEntries previous cursor =
      .error (.malformed (.trailingFieldData behind.length)) final := by
  have remaining := rest_behind_field ahead
  have more : behind.isEmpty = false := List.isEmpty_eq_false_iff.mpr some_behind
  rw [readEntries_field rising ahead, readBehind, Reader.bind_of_ok (Reader.atEnd_eq _), remaining,
    more, if_neg Bool.false_ne_true, Reader.bind_of_ok (Reader.remaining_eq _), remaining]
  exact ⟨_, rfl⟩

theorem readEntries_within {previous : Option FieldTag} {entry : FieldTag × UInt32} {last : Bool}
    {cursor : Cursor} (rising : follows previous entry.1) (some_part : cursor.rest ≠ [])
    (begins : cursor.rest <+: fieldBytes entry last) (short : cursor.rest ≠ fieldBytes entry last) :
    ∃ final, readEntries previous cursor = .error .outOfBounds final := by
  obtain ⟨byte, part, ahead⟩ := List.exists_cons_of_ne_nil some_part
  rw [ahead, fieldBytes] at begins short
  obtain ⟨rfl, onward⟩ := List.cons_prefix_cons.mp begins
  have cut := SevenBit.isCut_of_prefix onward fun whole => short (by rw [whole])
  have part_eq : (cursor.forward 1).rest = part := Cursor.rest_forward_one ahead
  have refused := (SevenBit.read_eq_outOfBounds (cursor.forward 1) _).mpr ⟨part_eq ▸ cut, rfl⟩
  have same : (UInt8.ofNat (mark entry.1 last)).toNat = mark entry.1 last :=
    UInt8.toNat_ofNat_of_lt' (mark_lt entry.1 last)
  have mark_read := (Reader.byte_eq_ok cursor _ _).mpr ⟨_, _, ahead, rfl, rfl⟩
  rw [readEntries, Reader.bind_of_ok (Reader.atEnd_eq cursor), ahead, if_neg (by simp),
    Reader.bind_of_ok mark_read, same, mark_mod, FieldTag.ofIndex?_index]
  simp only [dif_pos rising]
  exact ⟨_, (Reader.bind_eq_error _ _ _ _ _).mpr (.inl refused)⟩

theorem decode_nil : decode [] = .ok empty := (decode_eq_ok _ _).mpr encode_empty.symm

theorem decode_eq_error (data : Bytes) (fault : Fault) :
    decode data = .error fault ↔
      ∃ final, readEntries none (Cursor.ofBytes data) = .error fault final := by
  rw [← Reader.run?_eq_error, decode]
  cases Reader.run? (readEntries none) data with
  | error other => simp [Except.map]
  | ok entries => simp [Except.map]

theorem decode_trailing (fields : FieldSet) (used : fields ≠ empty) {behind : Bytes}
    (some_behind : behind ≠ []) :
    decode (fields.encode ++ behind) =
      .error (.malformed (.trailingFieldData behind.length)) := by
  have some_field : fields.entries ≠ [] := fun nothing => used (by
    rw [← ofEntries_entries fields, nothing]
    rfl)
  have rising := rising_entries fields
  obtain ⟨before, last, entries_eq⟩ := (List.eq_nil_or_concat' fields.entries).resolve_left some_field
  rw [entries_eq] at rising
  obtain ⟨first, rest⟩ := (rising_append _ _ _).mp rising
  rw [decode_eq_error]
  refine readEntries_open none before _ (fieldBytes last true ++ behind) first ?_ _ ?_
  · rw [Cursor.rest_ofBytes, encode, entries_eq, encodeEntries_append, encodeEntries,
      List.append_nil, List.append_assoc]
    rfl
  · exact fun cursor ahead =>
      readEntries_trailing ((rising_cons _ _ _).mp rest).1 ahead some_behind

theorem decode_between {fields : FieldSet} {taken : Bytes}
    (between : EndsBetween fields.entries taken) :
    decode taken = .error (.malformed .fieldsNotTerminated) := by
  obtain ⟨before, after, some_before, -, entries_eq, rfl⟩ := between
  have rising := rising_entries fields
  rw [entries_eq] at rising
  rw [decode_eq_error]
  refine readEntries_open none before _ [] ((rising_append _ _ _).mp rising).1 ?_ _ ?_
  · exact (List.append_nil _).symm
  · exact fun cursor ended => ⟨cursor, readEntries_ended (lastRead_ne_none some_before) cursor ended⟩

theorem decode_within {fields : FieldSet} {taken : Bytes}
    (within : EndsWithin fields.entries taken) : decode taken = .error .outOfBounds := by
  obtain ⟨before, entry, after, part, entries_eq, some_part, begins, short, rfl⟩ := within
  have rising := rising_entries fields
  rw [entries_eq] at rising
  obtain ⟨first, rest⟩ := (rising_append _ _ _).mp rising
  rw [decode_eq_error]
  refine readEntries_open none before _ part first rfl _ ?_
  rintro cursor rfl
  exact readEntries_within ((rising_cons _ _ _).mp rest).1 some_part begins short

/-- Bytes behind the encoding of some fields, and a cut anywhere in it but before the first of them,
    are noticed; it tells whether the cut is within a field. -/
theorem truncation_noticed (fields : FieldSet) (used : fields ≠ empty) :
    (∀ behind, behind ≠ [] → decode (fields.encode ++ behind) =
      .error (.malformed (.trailingFieldData behind.length))) ∧
    (∀ taken, taken <+: fields.encode → taken ≠ fields.encode →
      (decode taken = .ok empty ↔ taken = []) ∧
      (decode taken = .error (.malformed .fieldsNotTerminated) ↔
        EndsBetween fields.entries taken) ∧
      (decode taken = .error .outOfBounds ↔ EndsWithin fields.entries taken) ∧
      (taken = [] ∨ EndsBetween fields.entries taken ∨ EndsWithin fields.entries taken)) ∧
    ∀ other : FieldSet, fields.encode <+: other.encode → fields = other := by
  refine ⟨fun behind => decode_trailing fields used, ?_, ?_⟩
  · intro taken begins short
    have places := cut_cases fields.entries taken begins short
    refine ⟨?_, ?_, ?_, places⟩
    · rw [decode_eq_ok, encode_empty]
    · refine ⟨fun refused => ?_, decode_between⟩
      rcases places with rfl | between | within
      · rw [decode_nil] at refused
        cases refused
      · exact between
      · rw [decode_within within] at refused
        cases refused
    · refine ⟨fun refused => ?_, decode_within⟩
      rcases places with rfl | between | within
      · rw [decode_nil] at refused
        cases refused
      · rw [decode_between between] at refused
        cases refused
      · exact within
  · rintro other ⟨behind, whole⟩
    have accepted := (decode_eq_ok other.encode other).mpr rfl
    rw [← whole] at accepted
    by_cases nothing : behind = []
    · subst nothing
      rw [List.append_nil] at accepted
      have own := (decode_eq_ok fields.encode fields).mpr rfl
      rw [own] at accepted
      exact Except.ok.inj accepted
    · rw [decode_trailing fields used nothing] at accepted
      cases accepted

/-- The value of the first field takes two bytes, and the second field is the last. -/
def twoFields : FieldSet := { dispatchMap := some 300, nullableValueOffset := some 5 }

theorem two_fields_cut :
    twoFields ≠ empty ∧ twoFields.encode = [2, 0xAC, 2, 0x85, 5] ∧
      decode [2, 0xAC] = .error .outOfBounds ∧
      decode [2, 0xAC, 2] = .error (.malformed .fieldsNotTerminated) ∧
      decode [2, 0xAC, 2, 0x85] = .error .outOfBounds ∧
      decode ([2, 0xAC, 2, 0x85, 5] ++ [2]) = .error (.malformed (.trailingFieldData 1)) := by
  have used : twoFields ≠ empty := by decide
  have written : twoFields.encode = [2, 0xAC, 2, 0x85, 5] := by decide +kernel
  obtain ⟨behind, cut, -⟩ := truncation_noticed twoFields used
  rw [written] at behind cut
  refine ⟨used, written, (cut [2, 0xAC] ?_ ?_).2.2.1.mpr ?_, (cut [2, 0xAC, 2] ?_ ?_).2.1.mpr ?_,
    (cut [2, 0xAC, 2, 0x85] ?_ ?_).2.2.1.mpr ?_, behind [2] (by decide)⟩
  case refine_3 =>
    exact ⟨[], (.dispatchMap, 300), [(.nullableValueOffset, 5)], [2, 0xAC], by decide +kernel⟩
  case refine_6 =>
    exact ⟨[(.dispatchMap, 300)], [(.nullableValueOffset, 5)], by decide +kernel⟩
  case refine_9 =>
    exact ⟨[(.dispatchMap, 300)], (.nullableValueOffset, 5), [], [0x85], by decide +kernel⟩
  all_goals decide

end Managed.FieldSet
