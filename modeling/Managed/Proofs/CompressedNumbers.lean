import Mathlib.Algebra.Ring.Nat
import Mathlib.Data.List.Basic
import Managed.Integer.Compressed
import Managed.Proofs.Reading

namespace Managed.Integer.Compressed

/-- One, two or four bytes, the most significant one first, begin with the bits `0`, `10` or `110`
    and hold a number behind them. No number has a longer encoding than it needs. -/
def Encodes (encoded : Bytes) (number : Nat) : Prop :=
  (number < 2 ^ 7 ∧ encoded.length = 1 ∧ Bytes.bigEndian encoded = number) ∨
  (2 ^ 7 ≤ number ∧ number < 2 ^ 14 ∧ encoded.length = 2 ∧
    Bytes.bigEndian encoded = 0b10 * 2 ^ 14 + number) ∨
  (2 ^ 14 ≤ number ∧ number < 2 ^ 29 ∧ encoded.length = 4 ∧
    Bytes.bigEndian encoded = 0b110 * 2 ^ 29 + number)

theorem encodes_encode {number : Nat} (bound : number < 2 ^ 29) :
    Encodes (encode number) number := by
  unfold encode
  by_cases one : number < 0x80
  · left
    rw [if_pos one]
    have value : Bytes.bigEndian [UInt8.ofNat number] = number := by
      simp only [Bytes.bigEndian, List.foldl, UInt8.toNat_ofNat']
      omega
    exact ⟨one, rfl, value⟩
  right
  rw [if_neg one]
  by_cases two : number < 0x4000
  · left
    rw [if_pos two]
    have value : Bytes.bigEndian [UInt8.ofNat (0x80 + number / 0x100), UInt8.ofNat number] =
        0b10 * 2 ^ 14 + number := by
      simp only [Bytes.bigEndian, List.foldl, UInt8.toNat_ofNat']
      omega
    exact ⟨by omega, two, rfl, value⟩
  · right
    rw [if_neg two]
    have value : Bytes.bigEndian [UInt8.ofNat (0xC0 + number / 0x1000000),
        UInt8.ofNat (number / 0x10000), UInt8.ofNat (number / 0x100), UInt8.ofNat number] =
          0b110 * 2 ^ 29 + number := by
      simp only [Bytes.bigEndian, List.foldl, UInt8.toNat_ofNat']
      omega
    exact ⟨by omega, bound, rfl, value⟩

theorem encode_ne_nil (number : Nat) : encode number ≠ [] := by
  unfold encode
  split
  · exact List.cons_ne_nil _ _
  split <;> exact List.cons_ne_nil _ _

theorem encode_head_ne_zero (number : Nat) (positive : 0 < number) (bound : number < 2 ^ 29) :
    (encode number).head? ≠ some 0 := by
  have different : ∀ lead : Nat, lead < 256 → 0 < lead → some (UInt8.ofNat lead) ≠ some 0 := by
    intro lead small nonzero same
    have value := congrArg UInt8.toNat (Option.some.inj same)
    rw [UInt8.toNat_ofNat_of_lt' small] at value
    exact Nat.ne_of_gt nonzero value
  unfold encode
  split
  · exact different _ (by omega) positive
  split
  · exact different _ (by omega) (by omega)
  · exact different _ (by omega) (by omega)

/-- How many bytes the first one asks for. It has to be there itself, and a reserved one asks for no
    others. -/
def demand : Bytes → Nat
  | [] => 1
  | lead :: _ =>
    if lead.toNat < 0x80 then 1
    else if lead.toNat < 0xC0 then 2
    else if lead.toNat < 0xE0 then 4
    else 1

theorem demand_one {lead : UInt8} (small : lead.toNat < 0x80) (behind : Bytes) :
    demand (lead :: behind) = 1 := if_pos small

theorem demand_two {lead : UInt8} (marked : 0x80 ≤ lead.toNat) (small : lead.toNat < 0xC0)
    (behind : Bytes) : demand (lead :: behind) = 2 := by
  rw [demand, if_neg (Nat.not_lt.mpr marked), if_pos small]

theorem demand_four {lead : UInt8} (marked : 0xC0 ≤ lead.toNat) (small : lead.toNat < 0xE0)
    (behind : Bytes) : demand (lead :: behind) = 4 := by
  rw [demand, if_neg (by omega), if_neg (Nat.not_lt.mpr marked), if_pos small]

theorem demand_reserved {lead : UInt8} (large : 0xE0 ≤ lead.toNat) (behind : Bytes) :
    demand (lead :: behind) = 1 := by
  rw [demand, if_neg (by omega), if_neg (by omega), if_neg (Nat.not_lt.mpr large)]

section

variable {cursor : Cursor} {lead : UInt8} {behind : Bytes}

theorem read_one (ahead : cursor.rest = lead :: behind) (small : lead.toNat < 0x80) :
    read cursor = .ok lead.toNat (cursor.forward 1) := by
  rw [read, Reader.byte_bind_cons ahead, if_pos small]
  rfl

theorem read_two {low : UInt8} (ahead : cursor.rest = lead :: low :: behind)
    (marked : 0x80 ≤ lead.toNat) (small : lead.toNat < 0xC0) :
    read cursor = .ok ((lead.toNat - 0x80) * 0x100 + low.toNat) (cursor.forward 2) := by
  rw [read, Reader.byte_bind_cons ahead, if_neg (Nat.not_lt.mpr marked), if_pos small,
    Reader.byte_bind_cons (Cursor.rest_forward_one ahead), Cursor.forward_forward]
  rfl

theorem read_four {upper middle low : UInt8}
    (ahead : cursor.rest = lead :: upper :: middle :: low :: behind)
    (marked : 0xC0 ≤ lead.toNat) (small : lead.toNat < 0xE0) :
    read cursor = .ok ((lead.toNat - 0xC0) * 0x1000000 + upper.toNat * 0x10000 +
      middle.toNat * 0x100 + low.toNat) (cursor.forward 4) := by
  have upper_ahead := Cursor.rest_forward_one ahead
  have middle_ahead := Cursor.rest_forward_one upper_ahead
  have low_ahead := Cursor.rest_forward_one middle_ahead
  rw [read, Reader.byte_bind_cons ahead, if_neg (by omega), if_neg (Nat.not_lt.mpr marked),
    if_pos small, Reader.byte_bind_cons upper_ahead, Reader.byte_bind_cons middle_ahead,
    Reader.byte_bind_cons low_ahead]
  simp only [Cursor.forward_forward]
  rfl

theorem read_reserved (ahead : cursor.rest = lead :: behind) (large : 0xE0 ≤ lead.toNat) :
    read cursor = .error (.malformed (.compressedLead lead.toNat)) (cursor.forward 1) := by
  rw [read, Reader.byte_bind_cons ahead, if_neg (by omega), if_neg (by omega),
    if_neg (Nat.not_lt.mpr large)]
  rfl

end

/-- The bytes are taken one at a time, so a number that is cut off takes them all. -/
theorem read_cut {cursor : Cursor} (short : cursor.rest.length < demand cursor.rest) :
    read cursor = .error .outOfBounds (cursor.forward cursor.rest.length) := by
  rcases ahead : cursor.rest with - | ⟨lead, behind⟩
  · rw [read, Reader.byte_bind_nil ahead]
    rfl
  rw [ahead, List.length_cons] at short
  by_cases small : lead.toNat < 0x80 ∨ 0xE0 ≤ lead.toNat
  · have one : demand (lead :: behind) = 1 :=
      small.elim (demand_one · behind) (demand_reserved · behind)
    omega
  have marked : ¬ lead.toNat < 0x80 := fun below => small (.inl below)
  have upper_ahead := Cursor.rest_forward_one ahead
  by_cases two : lead.toNat < 0xC0
  · rw [demand_two (Nat.not_lt.mp marked) two] at short
    have ended : behind = [] := List.length_eq_zero_iff.mp (by omega)
    subst ended
    rw [read, Reader.byte_bind_cons ahead, if_neg marked, if_pos two,
      Reader.byte_bind_nil upper_ahead]
    rfl
  have four : lead.toNat < 0xE0 := Nat.not_le.mp fun large => small (.inr large)
  rw [demand_four (Nat.not_lt.mp two) four] at short
  rw [read, Reader.byte_bind_cons ahead, if_neg marked, if_neg two, if_pos four]
  rcases behind with - | ⟨upper, - | ⟨middle, - | ⟨low, more⟩⟩⟩
  · rw [Reader.byte_bind_nil upper_ahead]
    rfl
  · have middle_ahead := Cursor.rest_forward_one upper_ahead
    rw [Reader.byte_bind_cons upper_ahead, Reader.byte_bind_nil middle_ahead]
    rfl
  · have middle_ahead := Cursor.rest_forward_one upper_ahead
    have low_ahead := Cursor.rest_forward_one middle_ahead
    rw [Reader.byte_bind_cons upper_ahead, Reader.byte_bind_cons middle_ahead,
      Reader.byte_bind_nil low_ahead]
    rfl
  · simp only [List.length_cons] at short
    omega

inductive Outcome (cursor : Cursor) : EStateM.Result Fault Cursor Nat → Prop where
  | one {lead : UInt8} {behind : Bytes} (ahead : cursor.rest = lead :: behind)
      (small : lead.toNat < 0x80) : Outcome cursor (.ok lead.toNat (cursor.forward 1))
  | two {lead low : UInt8} {behind : Bytes} (ahead : cursor.rest = lead :: low :: behind)
      (marked : 0x80 ≤ lead.toNat) (small : lead.toNat < 0xC0) :
      Outcome cursor (.ok ((lead.toNat - 0x80) * 0x100 + low.toNat) (cursor.forward 2))
  | four {lead upper middle low : UInt8} {behind : Bytes}
      (ahead : cursor.rest = lead :: upper :: middle :: low :: behind)
      (marked : 0xC0 ≤ lead.toNat) (small : lead.toNat < 0xE0) :
      Outcome cursor (.ok ((lead.toNat - 0xC0) * 0x1000000 + upper.toNat * 0x10000 +
        middle.toNat * 0x100 + low.toNat) (cursor.forward 4))
  | reserved {lead : UInt8} {behind : Bytes} (ahead : cursor.rest = lead :: behind)
      (large : 0xE0 ≤ lead.toNat) :
      Outcome cursor (.error (.malformed (.compressedLead lead.toNat)) (cursor.forward 1))
  | cut (short : cursor.rest.length < demand cursor.rest) :
      Outcome cursor (.error .outOfBounds (cursor.forward cursor.rest.length))

theorem outcome (cursor : Cursor) : Outcome cursor (read cursor) := by
  by_cases short : cursor.rest.length < demand cursor.rest
  · rw [read_cut short]
    exact .cut short
  rcases ahead : cursor.rest with - | ⟨lead, behind⟩
  · rw [ahead] at short
    exact absurd Nat.zero_lt_one short
  rw [ahead, List.length_cons] at short
  by_cases one : lead.toNat < 0x80
  · rw [read_one ahead one]
    exact .one ahead one
  by_cases reserved : 0xE0 ≤ lead.toNat
  · rw [read_reserved ahead reserved]
    exact .reserved ahead reserved
  by_cases two : lead.toNat < 0xC0
  · rw [demand_two (Nat.not_lt.mp one) two] at short
    obtain ⟨low, more, rfl⟩ : ∃ low more, behind = low :: more :=
      List.exists_cons_of_length_pos (by omega)
    rw [read_two ahead (Nat.not_lt.mp one) two]
    exact .two ahead (Nat.not_lt.mp one) two
  · have four := Nat.not_le.mp reserved
    rw [demand_four (Nat.not_lt.mp two) four] at short
    have enough : 3 ≤ behind.length := by omega
    obtain ⟨upper, middle, low, more, rfl⟩ : ∃ upper middle low more,
        behind = upper :: middle :: low :: more := by
      match behind, enough with
      | upper :: middle :: low :: more, _ => exact ⟨upper, middle, low, more, rfl⟩
    rw [read_four ahead (Nat.not_lt.mp two) four]
    exact .four ahead (Nat.not_lt.mp two) four

/-- One, two or four bytes, the most significant one first, begin with the bits `0`, `10` or `110`
    and hold a number behind them, which may need fewer bytes. -/
def Denotes (marked : Bytes) (number : Nat) : Prop :=
  (number < 2 ^ 7 ∧ marked.length = 1 ∧ Bytes.bigEndian marked = number) ∨
  (number < 2 ^ 14 ∧ marked.length = 2 ∧ Bytes.bigEndian marked = 0b10 * 2 ^ 14 + number) ∨
  (number < 2 ^ 29 ∧ marked.length = 4 ∧ Bytes.bigEndian marked = 0b110 * 2 ^ 29 + number)

theorem Encodes.denotes {encoded : Bytes} {number : Nat} (encodes : Encodes encoded number) :
    Denotes encoded number := by
  rcases encodes with one | ⟨-, two⟩ | ⟨-, four⟩
  · exact .inl one
  · exact .inr (.inl two)
  · exact .inr (.inr four)

theorem Denotes.ne_nil {marked : Bytes} {number : Nat} (denotes : Denotes marked number) :
    marked ≠ [] := by
  rw [← List.length_pos_iff]
  rcases denotes with ⟨-, size, -⟩ | ⟨-, size, -⟩ | ⟨-, size, -⟩ <;> omega

theorem read_denoted {cursor : Cursor} {marked behind : Bytes} {number : Nat}
    (denotes : Denotes marked number) (ahead : cursor.rest = marked ++ behind) :
    read cursor = .ok number (cursor.forward marked.length) := by
  rcases denotes with ⟨bound, size, value⟩ | ⟨bound, size, value⟩ | ⟨bound, size, value⟩
  · obtain ⟨lead, rfl⟩ := List.length_eq_one_iff.mp size
    simp only [Bytes.bigEndian, List.foldl] at value
    have same : lead.toNat = number := by omega
    rw [read_one ahead (by omega), same]
    rfl
  · obtain ⟨lead, low, rfl⟩ := List.length_eq_two.mp size
    have low_bound := low.toNat_lt
    simp only [Bytes.bigEndian, List.foldl] at value
    have same : (lead.toNat - 0x80) * 0x100 + low.toNat = number := by omega
    rw [read_two ahead (by omega) (by omega), same]
    rfl
  · obtain ⟨lead, upper, middle, low, rfl⟩ := List.length_eq_four.mp size
    have upper_bound := upper.toNat_lt
    have middle_bound := middle.toNat_lt
    have low_bound := low.toNat_lt
    simp only [Bytes.bigEndian, List.foldl] at value
    have same : (lead.toNat - 0xC0) * 0x1000000 + upper.toNat * 0x10000 +
        middle.toNat * 0x100 + low.toNat = number := by omega
    rw [read_four ahead (by omega) (by omega), same]
    rfl

theorem denotes_of_read {cursor final : Cursor} {value : Nat}
    (taken : read cursor = .ok value final) :
    ∃ marked behind, cursor.rest = marked ++ behind ∧ Denotes marked value ∧
      final = cursor.forward marked.length := by
  have outcome := outcome cursor
  rw [taken] at outcome
  cases outcome with
  | @one lead behind ahead small =>
    refine ⟨[lead], behind, ahead, .inl ⟨small, rfl, ?_⟩, rfl⟩
    simp only [Bytes.bigEndian, List.foldl]
    omega
  | @two lead low behind ahead marked small =>
    have low_bound := low.toNat_lt
    refine ⟨[lead, low], behind, ahead, .inr (.inl ⟨by omega, rfl, ?_⟩), rfl⟩
    simp only [Bytes.bigEndian, List.foldl]
    omega
  | @four lead upper middle low behind ahead marked small =>
    have upper_bound := upper.toNat_lt
    have middle_bound := middle.toNat_lt
    have low_bound := low.toNat_lt
    refine ⟨[lead, upper, middle, low], behind, ahead, .inr (.inr ⟨by omega, rfl, ?_⟩), rfl⟩
    simp only [Bytes.bigEndian, List.foldl]
    omega

theorem read_encode {number : Nat} (bound : number < 2 ^ 29) {cursor : Cursor} {behind : Bytes}
    (ahead : cursor.rest = encode number ++ behind) :
    read cursor = .ok number (cursor.forward (encode number).length) :=
  read_denoted (encodes_encode bound).denotes ahead

theorem bound_of_read {cursor final : Cursor} {value : Nat}
    (taken : read cursor = .ok value final) :
    final = cursor.forward 1 ∧ value < 2 ^ 7 ∨ final = cursor.forward 2 ∧ value < 2 ^ 14 ∨
      final = cursor.forward 4 ∧ value < 2 ^ 29 := by
  have outcome := outcome cursor
  rw [taken] at outcome
  cases outcome with
  | one _ small => exact .inl ⟨rfl, small⟩
  | @two lead low _ _ marked small =>
    have low_bound := low.toNat_lt
    exact .inr (.inl ⟨rfl, by omega⟩)
  | @four lead upper middle low _ _ marked small =>
    have upper_bound := upper.toNat_lt
    have middle_bound := middle.toNat_lt
    have low_bound := low.toNat_lt
    exact .inr (.inr ⟨rfl, by omega⟩)

theorem read_eq_outOfBounds (cursor final : Cursor) :
    read cursor = .error .outOfBounds final ↔
      cursor.rest.length < demand cursor.rest ∧
        final = cursor.forward cursor.rest.length := by
  constructor
  · intro refused
    have outcome := outcome cursor
    rw [refused] at outcome
    cases outcome with
    | cut short => exact ⟨short, rfl⟩
  · intro cut
    obtain ⟨short, rfl⟩ := cut
    exact read_cut short

theorem read_malformed_iff (cursor final : Cursor) :
    (∃ defect, read cursor = .error (.malformed defect) final) ↔
      (∃ lead, cursor.rest.head? = some lead ∧ 0xE0 ≤ lead.toNat) ∧ final = cursor.forward 1 := by
  constructor
  · intro refused
    obtain ⟨defect, refused⟩ := refused
    have outcome := outcome cursor
    rw [refused] at outcome
    cases outcome with
    | @reserved lead behind ahead large =>
      rw [ahead]
      exact ⟨⟨lead, rfl, large⟩, rfl⟩
  · intro reserved
    obtain ⟨⟨lead, begins, large⟩, rfl⟩ := reserved
    obtain ⟨behind, ahead⟩ := List.head?_eq_some_iff.mp begins
    exact ⟨_, read_reserved ahead large⟩

/-- Only a number that is cut off and a reserved first byte are refused. -/
theorem fault_of_read {cursor final : Cursor} {fault : Fault}
    (refused : read cursor = .error fault final) :
    fault = .outOfBounds ∨ ∃ lead, cursor.rest.head? = some lead ∧ 0xE0 ≤ lead.toNat ∧
      fault = .malformed (.compressedLead lead.toNat) := by
  have outcome := outcome cursor
  rw [refused] at outcome
  cases outcome with
  | cut short => exact .inl rfl
  | @reserved lead behind ahead large =>
    rw [ahead]
    exact .inr ⟨lead, rfl, large, rfl⟩

theorem read_exists_iff (cursor : Cursor) :
    (∃ value final, read cursor = .ok value final) ↔
      demand cursor.rest ≤ cursor.rest.length ∧
        ∀ lead, cursor.rest.head? = some lead → lead.toNat < 0xE0 := by
  constructor
  · intro taken
    obtain ⟨value, final, taken⟩ := taken
    constructor
    · by_contra short
      rw [read_cut (Nat.not_le.mp short)] at taken
      cases taken
    · intro lead begins
      by_contra large
      obtain ⟨behind, ahead⟩ := List.head?_eq_some_iff.mp begins
      rw [read_reserved ahead (Nat.not_lt.mp large)] at taken
      cases taken
  · intro complete
    obtain ⟨enough, unreserved⟩ := complete
    have outcome := outcome cursor
    generalize read cursor = answer at outcome ⊢
    cases outcome with
    | one => exact ⟨_, _, rfl⟩
    | two => exact ⟨_, _, rfl⟩
    | four => exact ⟨_, _, rfl⟩
    | @reserved lead _ ahead large =>
      have small := unreserved lead (by rw [ahead]; rfl)
      omega
    | cut short => omega

/-- A number is read where its encoding stands. The first byte says how many there must be and so
    how large the number can be; what is missing shows at the end of the data, and a reserved first
    byte at once. -/
theorem lead_byte_decides (before ahead : Bytes) :
    let cursor : Cursor := ⟨before ++ ahead, before.length⟩
    (∀ number behind, number < 2 ^ 29 → ahead = encode number ++ behind →
      Encodes (encode number) number ∧
        read cursor = .ok number (cursor.forward (encode number).length)) ∧
    (∀ value final, read cursor = .ok value final →
      final = cursor.forward 1 ∧ value < 2 ^ 7 ∨ final = cursor.forward 2 ∧ value < 2 ^ 14 ∨
        final = cursor.forward 4 ∧ value < 2 ^ 29) ∧
    ((∃ value final, read cursor = .ok value final) ↔
      demand ahead ≤ ahead.length ∧ ∀ lead, ahead.head? = some lead → lead.toNat < 0xE0) ∧
    (∀ final, (∃ defect, read cursor = .error (.malformed defect) final) ↔
      (∃ lead, ahead.head? = some lead ∧ 0xE0 ≤ lead.toNat) ∧ final = cursor.forward 1) ∧
    (∀ final, read cursor = .error .outOfBounds final ↔
      ahead.length < demand ahead ∧ final = ⟨before ++ ahead, (before ++ ahead).length⟩) := by
  intro cursor
  have rest_eq : cursor.rest = ahead := List.drop_left
  have at_end : cursor.forward ahead.length = ⟨before ++ ahead, (before ++ ahead).length⟩ := by
    rw [List.length_append]
    rfl
  rw [← at_end, ← rest_eq]
  refine ⟨?_, fun _ _ => bound_of_read, read_exists_iff cursor, read_malformed_iff cursor,
    read_eq_outOfBounds cursor⟩
  intro number behind bound begins
  exact ⟨encodes_encode bound, read_encode bound begins⟩

end Managed.Integer.Compressed
