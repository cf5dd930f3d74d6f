import Managed.Proofs.SevenBit

namespace Managed.Integer.SevenBit

/-- Bytes that end before the number in them does: each of them tells that another follows, and
    the given number of bytes has not been used up. -/
def IsCut (groups : Nat) (bytes : Bytes) : Prop :=
  bytes.length < groups ∧ ∀ byte ∈ bytes, 0x80 ≤ byte.toNat

theorem isCut_nil (groups : Nat) : IsCut (groups + 1) [] := ⟨Nat.succ_pos groups, nofun⟩

theorem isCut_cons (groups : Nat) (byte : UInt8) (rest : Bytes) :
    IsCut (groups + 1) (byte :: rest) ↔ 0x80 ≤ byte.toNat ∧ IsCut groups rest := by
  rw [IsCut, IsCut, List.length_cons, List.forall_mem_cons, Nat.succ_lt_succ_iff]
  exact and_left_comm

theorem encodeNat_ne_nil (number : Nat) : encodeNat number ≠ [] := by
  rw [encodeNat]
  split <;> exact List.cons_ne_nil _ _

theorem length_encodeNat_pos (number : Nat) : 1 ≤ (encodeNat number).length :=
  List.length_pos_iff.mpr (encodeNat_ne_nil _)

/-- Every further byte holds seven more bits of a number. -/
theorem length_encodeNat_le_iff (groups number : Nat) :
    (encodeNat number).length ≤ groups + 1 ↔ number < 0x80 ^ (groups + 1) := by
  induction groups generalizing number with
  | zero =>
    rw [encodeNat]
    split
    · rename_i small
      simpa using small
    · rename_i large
      have more := length_encodeNat_pos (number / 0x80)
      simp only [List.length_cons]
      omega
  | succ groups ih =>
    rw [encodeNat, Nat.pow_succ]
    split
    · rename_i small
      have room : 0 < 0x80 ^ (groups + 1) := Nat.pow_pos (by decide)
      simp only [List.length_singleton]
      omega
    · rw [List.length_cons, Nat.succ_le_succ_iff, ih, Nat.div_lt_iff_lt_mul (by decide)]

theorem length_encode_pos (value : UInt32) : 1 ≤ (encode value).length :=
  length_encodeNat_pos _

theorem length_encode_le (value : UInt32) : (encode value).length ≤ 5 := by
  have bound := value.toNat_lt
  rw [encode, length_encodeNat_le_iff]
  omega

/-- The last byte of an encoding, and no other, tells that none follows. -/
theorem encodeNat_marks (number : Nat) :
    ∃ before last, encodeNat number = before ++ [last] ∧ (∀ byte ∈ before, 0x80 ≤ byte.toNat) ∧
      last.toNat < 0x80 := by
  induction number using encodeNat.induct with
  | case1 number small =>
    refine ⟨[], UInt8.ofNat number, encodeNat_small number small, nofun, ?_⟩
    rwa [UInt8.toNat_ofNat_of_lt' (show number < 256 by omega)]
  | case2 number large ih =>
    obtain ⟨before, last, rest_eq, marked, unmarked⟩ := ih
    refine ⟨UInt8.ofNat (0x80 + number % 0x80) :: before, last, ?_, ?_, unmarked⟩
    · rw [encodeNat, if_neg large, rest_eq, List.cons_append]
    · refine List.forall_mem_cons.mpr ⟨?_, marked⟩
      rw [UInt8.toNat_ofNat_of_lt' (show 0x80 + number % 0x80 < 256 by omega)]
      exact Nat.le_add_right _ _

theorem isCut_of_prefix {value : UInt32} {taken : Bytes} (begins : taken <+: encode value)
    (short : taken ≠ encode value) : IsCut 5 taken := by
  obtain ⟨before, last, written, marked, -⟩ := encodeNat_marks value.toNat
  have bound := length_encode_le value
  rw [encode, written] at begins short bound
  have inside := (List.prefix_concat_iff.mp begins).resolve_left short
  refine ⟨?_, fun byte member => marked byte (inside.subset member)⟩
  have length := inside.length_le
  rw [List.length_append, List.length_singleton] at bound
  omega

theorem readGroups_cut (groups : Nat) (first : Bool) (cursor : Cursor)
    (cut : IsCut groups cursor.rest) :
    readGroups groups first cursor = .error .outOfBounds (cursor.forward cursor.rest.length) := by
  induction groups generalizing first cursor with
  | zero => exact absurd cut.1 (Nat.not_lt_zero _)
  | succ groups ih =>
    rw [readGroups, Reader.bind_eq_error, Reader.byte_eq_error]
    cases ahead : cursor.rest with
    | nil => exact .inl ⟨rfl, rfl, rfl⟩
    | cons byte behind =>
      rw [ahead, isCut_cons] at cut
      obtain ⟨marked, cut⟩ := cut
      have behind_eq : (cursor.forward 1).rest = behind := Cursor.rest_forward_one ahead
      have more : ¬ (groups = 0 ∧ byte.toNat % 0x80 ≥ 0x10) := fun last =>
        absurd cut.1 (by rw [last.1]; exact Nat.not_lt_zero _)
      refine .inr ⟨_, _, (Reader.byte_eq_ok _ _ _).mpr ⟨byte, behind, ahead, rfl, rfl⟩, ?_⟩
      rw [if_neg more, if_pos marked, Reader.bind_eq_error, ih false _ (behind_eq ▸ cut), behind_eq,
        Cursor.forward_forward, List.length_cons, Nat.add_comm 1]
      exact .inl rfl

inductive Refusal (groups : Nat) (cursor : Cursor) : Fault → Cursor → Prop where
  | cut (cut : IsCut groups cursor.rest) :
    Refusal groups cursor .outOfBounds (cursor.forward cursor.rest.length)
  | malformed (defect : Defect) (taken : Nat) (bound : taken ≤ groups)
      (inside : taken ≤ cursor.rest.length) :
    Refusal groups cursor (.malformed defect) (cursor.forward taken)

theorem Refusal.behind {groups : Nat} {cursor final : Cursor} {fault : Fault} {byte : UInt8}
    {behind : Bytes} (ahead : cursor.rest = byte :: behind) (marked : 0x80 ≤ byte.toNat)
    (refusal : Refusal groups (cursor.forward 1) fault final) :
    Refusal (groups + 1) cursor fault final := by
  have behind_eq : (cursor.forward 1).rest = behind := Cursor.rest_forward_one ahead
  have length : cursor.rest.length = behind.length + 1 := by rw [ahead, List.length_cons]
  cases refusal with
  | cut cut =>
    rw [behind_eq] at cut ⊢
    rw [Cursor.forward_forward, Nat.add_comm 1, ← length]
    apply Refusal.cut
    rw [ahead]
    exact (isCut_cons groups byte behind).mpr ⟨marked, cut⟩
  | malformed defect taken bound inside =>
    rw [behind_eq] at inside
    rw [Cursor.forward_forward]
    exact .malformed defect _ (by omega) (by omega)

theorem refusal_of_readGroups (groups : Nat) (first : Bool) (cursor final : Cursor) (fault : Fault)
    (refused : readGroups groups first cursor = .error fault final) :
    Refusal groups cursor fault final := by
  induction groups generalizing first cursor with
  | zero =>
    obtain ⟨rfl, rfl⟩ := (Reader.malformed_eq_error _ _ _ _).mp refused
    exact .malformed _ 0 (Nat.le_refl _) (Nat.zero_le _)
  | succ groups ih =>
    rw [readGroups, Reader.bind_eq_error, Reader.byte_eq_error] at refused
    rcases refused with ⟨nothing, rfl, rfl⟩ | ⟨_, _, taken, refused⟩
    · have cut : Refusal (groups + 1) final .outOfBounds (final.forward final.rest.length) :=
        .cut (nothing ▸ isCut_nil groups)
      rwa [nothing] at cut
    · obtain ⟨byte, behind, ahead, rfl, rfl⟩ := (Reader.byte_eq_ok _ _ _).mp taken
      -- A defect is seen in the byte itself, if at all, or else behind it.
      have seen (defect : Defect) : Refusal (groups + 1) cursor (.malformed defect)
          (cursor.forward 1) :=
        .malformed defect 1 (Nat.succ_le_succ (Nat.zero_le _)) (by rw [ahead]; simp)
      split at refused
      · obtain ⟨rfl, rfl⟩ := (Reader.malformed_eq_error _ _ _ _).mp refused
        exact seen _
      · split at refused
        · rename_i marked
          rcases (Reader.bind_eq_error _ _ _ _ _).mp refused with later | ⟨_, _, -, read⟩
          · exact (ih false _ later).behind ahead marked
          · exact absurd read (Reader.pure_ne_error _ _ _ _)
        · split at refused
          · obtain ⟨rfl, rfl⟩ := (Reader.malformed_eq_error _ _ _ _).mp refused
            exact seen _
          · exact absurd refused (Reader.pure_ne_error _ _ _ _)

theorem read_eq_error (cursor final : Cursor) (fault : Fault) :
    read cursor = .error fault final ↔ readGroups 5 true cursor = .error fault final := by
  rw [read, Reader.bind_eq_error]
  constructor
  · rintro (refused | ⟨_, _, -, read⟩)
    · exact refused
    · exact absurd read (Reader.pure_ne_error _ _ _ _)
  · exact .inl

theorem refusal_of_read {cursor final : Cursor} {fault : Fault}
    (refused : read cursor = .error fault final) : Refusal 5 cursor fault final :=
  refusal_of_readGroups _ _ _ _ _ ((read_eq_error _ _ _).mp refused)

theorem read_eq_outOfBounds (cursor final : Cursor) :
    read cursor = .error .outOfBounds final ↔
      IsCut 5 cursor.rest ∧ final = cursor.forward cursor.rest.length := by
  constructor
  · intro refused
    cases refusal_of_read refused with
    | cut cut => exact ⟨cut, rfl⟩
  · rintro ⟨cut, rfl⟩
    exact (read_eq_error _ _ _).mpr (readGroups_cut 5 true cursor cut)

theorem read_malformed_iff (cursor : Cursor) :
    (∃ defect final, read cursor = .error (.malformed defect) final) ↔
      (∀ value, ¬ encode value <+: cursor.rest) ∧ ¬ IsCut 5 cursor.rest := by
  constructor
  · rintro ⟨defect, final, refused⟩
    refine ⟨fun value written => ?_, fun cut => ?_⟩
    · rw [(read_eq_ok _ _ value).mpr ⟨written, rfl⟩] at refused
      cases refused
    · rw [(read_eq_outOfBounds _ _).mpr ⟨cut, rfl⟩] at refused
      cases refused
  · rintro ⟨unwritten, uncut⟩
    cases outcome : read cursor with
    | ok value final => exact absurd ((read_eq_ok _ _ _).mp outcome).1 (unwritten value)
    | error fault final =>
      cases refusal_of_read outcome with
      | cut cut => exact absurd cut uncut
      | malformed defect taken => exact ⟨defect, _, rfl⟩

theorem final_read (cursor : Cursor) :
    ∃ taken, taken ≤ 5 ∧ taken ≤ cursor.rest.length ∧
      Reader.final (read cursor) = cursor.forward taken := by
  cases outcome : read cursor with
  | ok value final =>
    obtain ⟨written, rfl⟩ := (read_eq_ok _ _ _).mp outcome
    exact ⟨_, length_encode_le value, written.length_le, rfl⟩
  | error fault final =>
    cases refusal_of_read outcome with
    | cut cut => exact ⟨_, Nat.le_of_lt cut.1, Nat.le_refl _, rfl⟩
    | malformed defect taken bound inside => exact ⟨_, bound, inside, rfl⟩

/-- The bytes at the cursor are those of a number if the length of the number is what is taken. -/
theorem read_eq_ok_take (cursor : Cursor) (value : UInt32) (length : Nat) :
    read cursor = .ok value (cursor.forward length) ↔
      length ≤ cursor.rest.length ∧ cursor.rest.take length = encode value := by
  rw [read_eq_ok, List.prefix_iff_eq_take]
  constructor
  · rintro ⟨written, same⟩
    obtain rfl : length = (encode value).length :=
      Nat.add_left_cancel (congrArg Cursor.position same)
    have bound := congrArg List.length written
    rw [List.length_take] at bound
    exact ⟨by omega, written.symm⟩
  · rintro ⟨bound, written⟩
    have same : (encode value).length = length := by
      rw [← written, List.length_take, Nat.min_eq_left bound]
    rw [same]
    exact ⟨written.symm, rfl⟩

/-- A number is read exactly where it is written, whatever stands behind it; data that end within a
    number are told from bytes that no number has, and no more than five bytes are taken. -/
theorem reads_what_is_written (before ahead : Bytes) :
    let cursor : Cursor := ⟨before ++ ahead, before.length⟩
    (∀ value length, read cursor = .ok value (cursor.forward length) ↔
      length ≤ ahead.length ∧ ahead.take length = encode value) ∧
    (∀ value final, read cursor = .ok value final →
      ∃ length, 1 ≤ length ∧ length ≤ 5 ∧ final = cursor.forward length) ∧
    (∀ final, read cursor = .error .outOfBounds final ↔
      (ahead.length ≤ 4 ∧ ∀ byte ∈ ahead, 0x80 ≤ byte.toNat) ∧
        final = ⟨before ++ ahead, (before ++ ahead).length⟩) ∧
    ((∃ defect final, read cursor = .error (.malformed defect) final) ↔
      (∀ value, ¬ encode value <+: ahead) ∧
        ¬ (ahead.length ≤ 4 ∧ ∀ byte ∈ ahead, 0x80 ≤ byte.toNat)) ∧
    ∃ taken, taken ≤ 5 ∧ taken ≤ ahead.length ∧ Reader.final (read cursor) = cursor.forward taken := by
  intro cursor
  have rest_eq : cursor.rest = ahead := List.drop_left
  have cut_iff : IsCut 5 ahead ↔ ahead.length ≤ 4 ∧ ∀ byte ∈ ahead, 0x80 ≤ byte.toNat := by
    rw [IsCut, Nat.lt_succ_iff]
  have at_end : cursor.forward ahead.length = ⟨before ++ ahead, (before ++ ahead).length⟩ := by
    rw [List.length_append]
    rfl
  rw [← cut_iff, ← at_end, ← rest_eq]
  refine ⟨read_eq_ok_take cursor, ?_, read_eq_outOfBounds cursor, read_malformed_iff cursor,
    final_read cursor⟩
  intro value final accepted
  obtain ⟨-, rfl⟩ := (read_eq_ok _ _ _).mp accepted
  exact ⟨_, length_encode_pos value, length_encode_le value, rfl⟩

end Managed.Integer.SevenBit
