import Managed.Integer.Compressed
import Managed.Integer.SevenBit
import Managed.Proofs.Reading

namespace Managed.Reader

variable {α β : Type}

def placed (cursor : Cursor) : EStateM.Result Fault Cursor α → EStateM.Result Fault Cursor α
  | .ok value final => .ok value (cursor.forward final.position)
  | .error fault final => .error fault (cursor.forward final.position)

/-- Only the bytes from the cursor on matter, and those behind the ones taken do not. -/
structure Local (reader : Reader α) : Prop where
  forward : ∀ cursor, cursor.position ≤ cursor.data.length →
    ∃ advance, advance ≤ cursor.rest.length ∧ final (reader cursor) = cursor.forward advance
  placed_eq : ∀ cursor, cursor.position ≤ cursor.data.length →
    reader cursor = placed cursor (reader (Cursor.ofBytes cursor.rest))
  extended : ∀ cursor value next behind, cursor.position ≤ cursor.data.length →
    reader cursor = .ok value next →
    reader { cursor with data := cursor.data ++ behind } =
      .ok value { next with data := next.data ++ behind }

theorem rest_append {cursor : Cursor} (inside : cursor.position ≤ cursor.data.length)
    (behind : Bytes) :
    ({ cursor with data := cursor.data ++ behind } : Cursor).rest = cursor.rest ++ behind :=
  List.drop_append_of_le_length inside

theorem room_iff {cursor : Cursor} (inside : cursor.position ≤ cursor.data.length) (length : Nat) :
    cursor.position + length ≤ cursor.data.length ↔ length ≤ cursor.rest.length := by
  rw [Cursor.rest, List.length_drop]
  omega

def Whole (reader : Reader α) : Prop :=
  ∃ length, ∃ change : Bytes → α, ∀ cursor, cursor.position ≤ cursor.data.length →
    reader cursor =
      if length ≤ cursor.rest.length then
        .ok (change (cursor.rest.take length)) (cursor.forward length)
      else .error .outOfBounds cursor

theorem whole_bytes (length : Nat) : Whole (bytes length) := by
  refine ⟨length, id, fun cursor inside => ?_⟩
  simp only [bytes_eq, room_iff inside, id]

theorem Whole.map {reader : Reader α} (whole : Whole reader) (change : α → β) :
    Whole (reader >>= fun value => pure (change value)) := by
  obtain ⟨length, first, reads⟩ := whole
  refine ⟨length, fun taken => change (first taken), fun cursor inside => ?_⟩
  simp only [bind, EStateM.bind, reads cursor inside]
  by_cases fits : length ≤ cursor.rest.length
  · simp only [if_pos fits]
    rfl
  · simp only [if_neg fits]

theorem whole_number (width : Nat) : Whole (number width) :=
  (whole_bytes width).map Bytes.littleEndian

theorem whole_skip (length : Nat) : Whole (skip length) := (whole_bytes length).map fun _ => ()

namespace Whole

variable {reader : Reader α}

theorem kept (whole : Whole reader) {cursor next : Cursor} {fault : Fault}
    (inside : cursor.position ≤ cursor.data.length)
    (refused : reader cursor = .error fault next) : next = cursor := by
  obtain ⟨length, change, reads⟩ := whole
  rw [reads cursor inside] at refused
  split at refused <;> cases refused
  rfl

theorem isLocal (whole : Whole reader) : Local reader := by
  obtain ⟨length, change, reads⟩ := whole
  constructor
  · intro cursor inside
    rw [reads cursor inside]
    split <;> rename_i fits
    · exact ⟨length, fits, rfl⟩
    · exact ⟨0, Nat.zero_le _, rfl⟩
  · intro cursor inside
    rw [reads cursor inside, reads _ (Nat.zero_le _), Cursor.rest_ofBytes]
    split
    · simp only [placed, Cursor.forward, Cursor.ofBytes, Nat.zero_add]
    · rfl
  · intro cursor value next behind inside taken
    rw [reads cursor inside] at taken
    split at taken <;> cases taken
    rename_i fits
    have still_inside : cursor.position ≤ (cursor.data ++ behind).length := by
      rw [List.length_append]
      exact Nat.le_add_right_of_le inside
    have more : length ≤ (cursor.rest ++ behind).length := by
      rw [List.length_append]
      exact Nat.le_add_right_of_le fits
    rw [reads _ still_inside, rest_append inside, if_pos more, List.take_append_of_le_length fits]
    rfl

end Whole

def Cut (reader : Reader α) (ahead : Bytes) : Prop :=
  ∀ cursor : Cursor, cursor.Faces ahead →
    reader cursor = .error .outOfBounds (cursor.forward ahead.length)

def answer : Except Defect α → Cursor → EStateM.Result Fault Cursor α
  | .ok value, cursor => .ok value cursor
  | .error defect, cursor => .error (.malformed defect) cursor

structure Settles (reader : Reader α) (taken : Bytes) (result : Except Defect α) : Prop where
  answers : ∀ (cursor : Cursor) (behind : Bytes), cursor.Faces (taken ++ behind) →
    reader cursor = answer result (cursor.forward taken.length)
  needed : ∀ begun, begun <+: taken → begun ≠ taken → Cut reader begun

inductive Settled (reader : Reader α) (ahead : Bytes) : Prop where
  | settled (taken behind : Bytes) (result : Except Defect α) (split : ahead = taken ++ behind)
      (settles : Settles reader taken result) : Settled reader ahead
  | cut (cut : Cut reader ahead) : Settled reader ahead

def Bytewise (reader : Reader α) : Prop := ∀ ahead, Settled reader ahead

theorem settles_nil {reader : Reader α} {result : Except Defect α}
    (answers : ∀ cursor, reader cursor = answer result cursor) : Settles reader [] result := by
  constructor
  · intro cursor behind faces
    exact answers cursor
  · intro begun begins short
    exact absurd (List.prefix_nil.mp begins) short

theorem cut_bind {reader : Reader α} {ahead : Bytes} (cut : Cut reader ahead)
    (next : α → Reader β) : Cut (reader >>= next) ahead := by
  intro cursor faces
  simp only [bind, EStateM.bind, cut cursor faces]

theorem Settles.error_bind {reader : Reader α} {taken : Bytes} {defect : Defect}
    (settles : Settles reader taken (.error defect)) (next : α → Reader β) :
    Settles (reader >>= next) taken (.error defect) := by
  constructor
  · intro cursor behind faces
    simp only [bind, EStateM.bind, settles.answers cursor behind faces, answer]
  · intro begun begins short
    exact cut_bind (settles.needed begun begins short) next

section

variable {reader : Reader α} {next : α → Reader β} {first : Bytes} {value : α}

theorem Settles.bind_of_ok (settles : Settles reader first (.ok value)) (next : α → Reader β)
    {cursor : Cursor} {behind : Bytes} (faces : cursor.Faces (first ++ behind)) :
    (reader >>= next) cursor = next value (cursor.forward first.length) :=
  Reader.bind_of_ok (settles.answers cursor behind faces) next

theorem Settles.cut_append (settles : Settles reader first (.ok value)) {second : Bytes}
    (cut : Cut (next value) second) : Cut (reader >>= next) (first ++ second) := by
  intro cursor faces
  rw [settles.bind_of_ok next faces, cut _ faces.forward, Cursor.forward_forward,
    List.length_append]

theorem Settles.append (settles : Settles reader first (.ok value)) {second : Bytes}
    {result : Except Defect β} (settled : Settles (next value) second result) :
    Settles (reader >>= next) (first ++ second) result := by
  constructor
  · intro cursor behind faces
    rw [List.append_assoc] at faces
    rw [settles.bind_of_ok next faces, settled.answers _ behind faces.forward,
      Cursor.forward_forward, List.length_append]
  · intro begun begins short
    -- The data end among the first bytes or among the second.
    rcases List.prefix_or_prefix_of_prefix begins (List.prefix_append first second) with
      within | ⟨more, rfl⟩
    · by_cases whole : begun = first
      · subst whole
        have nonempty : [] ≠ second := by
          rintro rfl
          exact short (List.append_nil _).symm
        have cut := settles.cut_append (settled.needed [] List.nil_prefix nonempty)
        rwa [List.append_nil] at cut
      · exact cut_bind (settles.needed begun within whole) next
    · have within := (List.prefix_append_right_inj first).mp begins
      exact settles.cut_append (settled.needed more within fun same => short (by rw [same]))

end

namespace Bytewise

theorem ofAnswer {reader : Reader α} (result : Except Defect α)
    (answers : ∀ cursor, reader cursor = answer result cursor) : Bytewise reader :=
  fun ahead => .settled [] ahead result rfl (settles_nil answers)

theorem pure (value : α) : Bytewise (Pure.pure value : Reader α) :=
  ofAnswer (.ok value) fun _ => rfl

theorem malformed (defect : Defect) : Bytewise (malformed defect : Reader α) :=
  ofAnswer (.error defect) fun _ => rfl

theorem bind {reader : Reader α} {next : α → Reader β} (first : Bytewise reader)
    (second : ∀ value, Bytewise (next value)) : Bytewise (reader >>= next) := by
  intro ahead
  cases first ahead with
  | cut cut => exact .cut (cut_bind cut next)
  | settled taken behind result split settles =>
    cases result with
    | error defect => exact .settled taken behind _ split (settles.error_bind next)
    | ok value =>
      cases second value behind with
      | cut cut =>
        rw [split]
        exact .cut (settles.cut_append cut)
      | settled more others result behind_eq settled =>
        refine .settled (taken ++ more) others result ?_ (settles.append settled)
        rw [split, behind_eq, List.append_assoc]

theorem byte : Bytewise Reader.byte := by
  intro ahead
  cases ahead with
  | nil =>
    refine .cut fun cursor faces => ?_
    rw [byte_eq, faces.rest_eq]
    rfl
  | cons low behind =>
    refine .settled [low] behind (.ok low.toNat) rfl ⟨?_, ?_⟩
    · intro cursor others faces
      rw [byte_eq, faces.rest_eq]
      rfl
    · intro begun begins short
      have nothing : begun = [] :=
        List.prefix_nil.mp ((List.prefix_concat_iff.mp begins).resolve_left short)
      subst nothing
      intro cursor faces
      rw [byte_eq, faces.rest_eq]
      rfl

theorem isLocal {reader : Reader α} (bytewise : Bytewise reader) : Local reader := by
  constructor
  · intro cursor inside
    cases bytewise cursor.rest with
    | cut cut => exact ⟨cursor.rest.length, Nat.le_refl _, by rw [cut cursor ⟨inside, rfl⟩]; rfl⟩
    | settled taken behind result split settles =>
      refine ⟨taken.length, ?_, ?_⟩
      · rw [split, List.length_append]
        exact Nat.le_add_right _ _
      · rw [settles.answers cursor behind ⟨inside, split⟩]
        cases result <;> rfl
  · intro cursor inside
    cases bytewise cursor.rest with
    | cut cut =>
      rw [cut cursor ⟨inside, rfl⟩, cut _ (Cursor.faces_ofBytes _)]
      simp only [placed, Cursor.forward, Cursor.ofBytes, Nat.zero_add]
    | settled taken behind result split settles =>
      rw [settles.answers cursor behind ⟨inside, split⟩,
        settles.answers _ behind (split ▸ Cursor.faces_ofBytes _)]
      cases result <;> simp only [answer, placed, Cursor.forward, Cursor.ofBytes, Nat.zero_add]
  · intro cursor value next behind inside accepted
    cases bytewise cursor.rest with
    | cut cut =>
      rw [cut cursor ⟨inside, rfl⟩] at accepted
      cases accepted
    | settled taken others result split settles =>
      rw [settles.answers cursor others ⟨inside, split⟩] at accepted
      cases result <;> cases accepted
      have faces : ({ cursor with data := cursor.data ++ behind } : Cursor).Faces
          (taken ++ (others ++ behind)) := by
        constructor
        · rw [List.length_append]
          exact Nat.le_add_right_of_le inside
        · rw [rest_append inside, split, List.append_assoc]
      rw [settles.answers _ _ faces]
      rfl

theorem cut_of_prefix {reader : Reader α} (bytewise : Bytewise reader) {ahead begun : Bytes}
    (cut : Cut reader ahead) (begins : begun <+: ahead) : Cut reader begun := by
  cases bytewise begun with
  | cut cut => exact cut
  | settled taken behind result split settles =>
    obtain ⟨more, rfl⟩ := begins
    have faces : (Cursor.ofBytes (begun ++ more)).Faces (taken ++ (behind ++ more)) := by
      rw [← List.append_assoc, ← split]
      exact Cursor.faces_ofBytes _
    have answers := settles.answers _ _ faces
    rw [cut _ (Cursor.faces_ofBytes _)] at answers
    cases result <;> cases answers

/-- A fault comes either of too few bytes, and then all of them have been taken, or of the bytes
    that have been taken, and then of all of them. -/
theorem examined {reader : Reader α} (bytewise : Bytewise reader) {cursor next : Cursor}
    {fault : Fault} (inside : cursor.position ≤ cursor.data.length)
    (refused : reader cursor = .error fault next) :
    ∃ taken behind, cursor.rest = taken ++ behind ∧ next = cursor.forward taken.length ∧
      (∀ begun, begun <+: taken → begun ≠ taken → Cut reader begun) ∧
      (fault = .outOfBounds ∧ behind = [] ∧ Cut reader taken ∨
        ∃ defect, fault = .malformed defect ∧ Settles reader taken (.error defect)) := by
  cases bytewise cursor.rest with
  | settled taken behind result split settles =>
    rw [settles.answers cursor behind ⟨inside, split⟩] at refused
    cases result with
    | ok value => cases refused
    | error defect =>
      cases refused
      exact ⟨taken, behind, split, rfl, settles.needed, .inr ⟨defect, rfl, settles⟩⟩
  | cut cut =>
    rw [cut cursor ⟨inside, rfl⟩] at refused
    cases refused
    exact ⟨cursor.rest, [], (List.append_nil _).symm, rfl,
      fun _ begins _ => bytewise.cut_of_prefix cut begins, .inl ⟨rfl, rfl, cut⟩⟩

end Bytewise

end Managed.Reader

namespace Managed.Integer

open Reader

theorem Compressed.bytewise_read : Bytewise Compressed.read := by
  refine Bytewise.byte.bind fun lead => ?_
  split
  · exact .pure _
  split
  · exact Bytewise.byte.bind fun low => .pure _
  split
  · exact Bytewise.byte.bind fun upper => Bytewise.byte.bind fun middle =>
      Bytewise.byte.bind fun low => .pure _
  · exact .malformed _

theorem SevenBit.bytewise_readGroups (groups : Nat) (first : Bool) :
    Bytewise (SevenBit.readGroups groups first) := by
  induction groups generalizing first with
  | zero => exact .malformed _
  | succ groups ih =>
    refine Bytewise.byte.bind fun byte => ?_
    split
    · exact .malformed _
    split
    · exact (ih false).bind fun rest => .pure _
    split
    · exact .malformed _
    · exact .pure _

theorem SevenBit.bytewise_read : Bytewise SevenBit.read :=
  (bytewise_readGroups 5 true).bind fun _ => .pure _

end Managed.Integer
