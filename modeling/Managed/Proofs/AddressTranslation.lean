import Managed.Image.Basic
import Managed.Image.Headers
import Managed.Proofs.LittleEndian

namespace Managed.Image

namespace Section

variable {sections before rest : List Section} {item : Section} {rva offset : Nat} {fault : Fault}

def Contains (item : Section) (rva : Nat) : Prop :=
  item.address ≤ rva ∧ rva < item.address + item.virtualSize

def IsBounded (item : Section) : Prop := item.address + item.virtualSize < 2 ^ 32

structure IsFirst (sections before : List Section) (item : Section) (rva : Nat) : Prop where
  listed : before ++ [item] <+: sections
  contains : item.Contains rva
  first : ∀ earlier ∈ before, ¬ earlier.Contains rva

def Passes (rva : Nat) (item : Section) : Prop := item.IsBounded ∧ ¬ item.Contains rva

theorem locate_passed (passed : ∀ earlier ∈ before, earlier.Passes rva) (rest : List Section) :
    locate (before ++ rest) rva = locate rest rva := by
  induction before with
  | nil => rfl
  | cons earlier others ih =>
    rw [List.forall_mem_cons] at passed
    obtain ⟨⟨bounded, elsewhere⟩, passed⟩ := passed
    have small : ¬ UInt32.size ≤ earlier.address + earlier.virtualSize := Nat.not_le.mpr bounded
    rw [List.cons_append, locate, if_neg small, ← ih passed]
    exact if_neg elsewhere

/-- The search goes through all of the sections or stops at one of them. -/
theorem passed_or_stopped (sections : List Section) (rva : Nat) :
    (∀ item ∈ sections, item.Passes rva) ∨
      ∃ before item after, sections = before ++ item :: after ∧
        (∀ earlier ∈ before, earlier.Passes rva) ∧ ¬ item.Passes rva := by
  induction sections with
  | nil => exact .inl nofun
  | cons item rest ih =>
    by_cases passes : item.Passes rva
    · rcases ih with passed | ⟨before, stop, after, rfl, passed, stops⟩
      · exact .inl (List.forall_mem_cons.mpr ⟨passes, passed⟩)
      · exact .inr ⟨item :: before, stop, after, rfl,
          List.forall_mem_cons.mpr ⟨passes, passed⟩, stops⟩
    · exact .inr ⟨[], item, rest, rfl, nofun, passes⟩

inductive Outcome (sections : List Section) (rva : Nat) : Except Fault Nat → Prop where
  | missed (passed : ∀ item ∈ sections, item.Passes rva) :
      Outcome sections rva (.error (.malformed (.rvaNotMapped rva)))
  | overflow {before after : List Section} {item : Section}
      (listed : sections = before ++ item :: after)
      (passed : ∀ earlier ∈ before, earlier.Passes rva) (unbounded : ¬ item.IsBounded) :
      Outcome sections rva (.error (.malformed (.sectionOverflow item.address item.virtualSize)))
  | found {before after : List Section} {item : Section}
      (listed : sections = before ++ item :: after)
      (passed : ∀ earlier ∈ before, earlier.Passes rva) (bounded : item.IsBounded)
      (contains : item.Contains rva) :
      Outcome sections rva (.ok (rva - item.address + item.rawPointer))

theorem locate_overflow (passed : ∀ earlier ∈ before, earlier.Passes rva)
    (unbounded : ¬ item.IsBounded) :
    locate (before ++ item :: rest) rva =
      .error (.malformed (.sectionOverflow item.address item.virtualSize)) := by
  rw [locate_passed passed, locate]
  exact if_pos (Nat.not_lt.mp unbounded)

theorem locate_found (passed : ∀ earlier ∈ before, earlier.Passes rva)
    (bounded : item.IsBounded) (contains : item.Contains rva) :
    locate (before ++ item :: rest) rva = .ok (rva - item.address + item.rawPointer) := by
  have small : ¬ UInt32.size ≤ item.address + item.virtualSize := Nat.not_le.mpr bounded
  rw [locate_passed passed, locate, if_neg small]
  exact if_pos contains

theorem outcome (sections : List Section) (rva : Nat) :
    Outcome sections rva (locate sections rva) := by
  rcases passed_or_stopped sections rva with passed | ⟨before, item, after, listed, passed, stops⟩
  · have missed := locate_passed passed []
    rw [List.append_nil] at missed
    rw [missed]
    exact .missed passed
  by_cases bounded : item.IsBounded
  · have contains : item.Contains rva := by
      by_contra elsewhere
      exact stops ⟨bounded, elsewhere⟩
    rw [listed, locate_found passed bounded contains, ← listed]
    exact .found listed passed bounded contains
  · rw [listed, locate_overflow passed bounded, ← listed]
    exact .overflow listed passed bounded

theorem IsFirst.locate_eq_ok (isFirst : IsFirst sections before item rva) :
    locate sections rva = .ok offset ↔
      (∀ other ∈ before ++ [item], other.IsBounded) ∧
        offset = rva - item.address + item.rawPointer := by
  obtain ⟨⟨after, rfl⟩, contains, first⟩ := isFirst
  rw [List.append_assoc, List.singleton_append]
  rcases passed_or_stopped before rva with passed | ⟨front, stop, back, rfl, passed, stops⟩
  · by_cases bounded : item.IsBounded
    · have all_bounded : ∀ other ∈ before ++ [item], other.IsBounded :=
        List.forall_mem_append.mpr ⟨fun earlier member => (passed earlier member).1,
          List.forall_mem_singleton.mpr bounded⟩
      rw [locate_found passed bounded contains, Except.ok.injEq]
      exact ⟨fun same => ⟨all_bounded, same.symm⟩, fun both => both.2.symm⟩
    · rw [locate_overflow passed bounded]
      exact iff_of_false nofun fun both => bounded (both.1 item (by simp))
  -- A section before the first with the address can stop the search by its end only.
  · have member : stop ∈ front ++ stop :: back := by simp
    have unbounded : ¬ stop.IsBounded := fun bounded => stops ⟨bounded, first stop member⟩
    rw [List.append_assoc, List.cons_append, locate_overflow passed unbounded]
    exact iff_of_false nofun fun both => unbounded (both.1 stop (List.mem_append_left _ member))

theorem locate_eq_ok :
    locate sections rva = .ok offset ↔
      ∃ before item, IsFirst sections before item rva ∧
        (∀ other ∈ before ++ [item], other.IsBounded) ∧
        offset = rva - item.address + item.rawPointer := by
  constructor
  · intro located
    have outcome := outcome sections rva
    rw [located] at outcome
    cases outcome with
    | @found before after item listed passed bounded contains =>
      have isFirst : IsFirst sections before item rva := by
        refine ⟨⟨after, ?_⟩, contains, fun earlier member => (passed earlier member).2⟩
        rw [listed, List.append_assoc, List.singleton_append]
      exact ⟨before, item, isFirst, isFirst.locate_eq_ok.mp located⟩
  · intro found
    obtain ⟨before, item, isFirst, translated⟩ := found
    exact isFirst.locate_eq_ok.mpr translated

theorem malformed_of_locate (refused : locate sections rva = .error fault) :
    ∃ defect, fault = .malformed defect := by
  have outcome := outcome sections rva
  rw [refused] at outcome
  cases outcome with
  | missed => exact ⟨_, rfl⟩
  | overflow => exact ⟨_, rfl⟩

structure Fits (item : Section) : Prop where
  address : item.address < 2 ^ 32
  virtualSize : item.virtualSize < 2 ^ 32
  rawPointer : item.rawPointer < 2 ^ 32
  rawSize : item.rawSize < 2 ^ 32

end Section

open Section

theorem Section.fits_of_read {header : Bytes} {item : Section} (read : read? header = some item) :
    item.Fits := by
  obtain ⟨virtualSize, first, read⟩ := Option.bind_eq_some_iff.mp read
  obtain ⟨address, second, read⟩ := Option.bind_eq_some_iff.mp read
  obtain ⟨rawSize, third, read⟩ := Option.bind_eq_some_iff.mp read
  obtain ⟨rawPointer, fourth, read⟩ := Option.bind_eq_some_iff.mp read
  cases read
  exact ⟨Bytes.number?_lt second, Bytes.number?_lt first, Bytes.number?_lt fourth,
    Bytes.number?_lt third⟩

theorem Section.fits_of_readAll {count : Nat} {data : Bytes} {sections : List Section}
    (read : readAll? count data = some sections) : ∀ item ∈ sections, item.Fits := by
  induction count generalizing data sections with
  | zero =>
    cases read
    exact nofun
  | succ count ih =>
    obtain ⟨header, -, read⟩ := Option.bind_eq_some_iff.mp read
    obtain ⟨item, first, read⟩ := Option.bind_eq_some_iff.mp read
    obtain ⟨rest, later, read⟩ := Option.bind_eq_some_iff.mp read
    cases read
    exact List.forall_mem_cons.mpr ⟨fits_of_read first, ih later⟩

theorem Container.fits_of_readHeaders {data headers : Bytes} {container : Container}
    (read : readHeaders? data headers = some container) :
    ∀ item ∈ container.sections, item.Fits := by
  obtain ⟨coff, -, read⟩ := Option.bind_eq_some_iff.mp read
  obtain ⟨count, -, read⟩ := Option.bind_eq_some_iff.mp read
  obtain ⟨size, -, read⟩ := Option.bind_eq_some_iff.mp read
  have listed : ∃ rest, readAll? count rest = some container.sections := by
    dsimp only at read
    -- The sections are read in the same way with an optional header and without one.
    split at read
    all_goals
      obtain ⟨optional, -, read⟩ := Option.bind_eq_some_iff.mp read
      split at read
      · cases read
      obtain ⟨sections, listed, read⟩ := Option.bind_eq_some_iff.mp read
      cases read
      exact ⟨_, listed⟩
  obtain ⟨rest, listed⟩ := listed
  exact fits_of_readAll listed

theorem Container.sections_fit {data : Bytes} {container : Container}
    (read : Container.ofBytes? data = some container) : ∀ item ∈ container.sections, item.Fits := by
  rw [ofBytes?] at read
  split at read
  · cases read
  obtain ⟨start, -, read⟩ := Option.bind_eq_some_iff.mp read
  split at read
  · cases read
  obtain ⟨signature, -, read⟩ := Option.bind_eq_some_iff.mp read
  split at read
  · cases read
  obtain ⟨headers, parsed, read⟩ := Option.bind_eq_some_iff.mp read
  split at read
  · cases read
    exact fits_of_readHeaders parsed
  · cases read

open scoped Container

/-- The sections of every image that is read have fields of 32 bits. -/
theorem sections_fit {data : Bytes} {image : Image} (read : ofBytes data = .ok image) :
    ∀ item ∈ image.sections, item.Fits := by
  rw [ofBytes] at read
  split at read
  · cases read
  split at read
  · cases read
  rename_i container parsed
  unfold ofContainer at read
  split at read
  · cases read
  split at read
  · cases read
  cases read
  exact Container.sections_fit parsed

theorem offsetOf_eq_ok (image : Image) (rva offset : Nat) :
    image.offsetOf rva = .ok offset ↔
      rva < 2 ^ 32 ∧ locate image.sections rva = .ok offset := by
  rw [offsetOf]
  split
  · rename_i large
    exact iff_of_false nofun fun both => Nat.not_le.mpr both.1 large
  · rename_i small
    exact ⟨fun located => ⟨Nat.not_le.mp small, located⟩, And.right⟩

theorem offsetOf_add {image : Image} {before : List Section} {item : Section} {rva gap : Nat}
    (near : IsFirst image.sections before item rva)
    (far : IsFirst image.sections before item (rva + gap)) (offset : Nat) :
    image.offsetOf rva = .ok offset ↔ image.offsetOf (rva + gap) = .ok (offset + gap) := by
  have least := near.contains.1
  have most := far.contains.2
  rw [offsetOf_eq_ok, offsetOf_eq_ok, near.locate_eq_ok, far.locate_eq_ok]
  constructor
  · intro translated
    obtain ⟨-, bounded, rfl⟩ := translated
    have ends : item.address + item.virtualSize < 2 ^ 32 := bounded item (by simp)
    exact ⟨by omega, bounded, by omega⟩
  · intro translated
    obtain ⟨small, bounded, value⟩ := translated
    exact ⟨by omega, bounded, by omega⟩

/-- An address of 32 bits is translated by the first section that contains it, unless that one or one
    before it goes on past the last address. Everything else is malformed. With fields of 32 bits, as
    they are read, what is added and subtracted stays within 64 bits. The translation keeps distances
    within a section. -/
theorem addresses_translated (image : Image) :
    (∀ rva offset, image.offsetOf rva = .ok offset ↔
      rva < 2 ^ 32 ∧ ∃ before item, IsFirst image.sections before item rva ∧
        (∀ other ∈ before ++ [item], other.address + other.virtualSize < 2 ^ 32) ∧
        offset = rva - item.address + item.rawPointer) ∧
    (∀ data, ofBytes data = .ok image → ∀ item ∈ image.sections, item.Fits) ∧
    ((∀ item ∈ image.sections, item.Fits) → ∀ before item rva, rva < 2 ^ 32 →
      IsFirst image.sections before item rva →
        item.address ≤ rva ∧ rva - item.address + item.rawPointer < 2 ^ 64) ∧
    (∀ rva fault, image.offsetOf rva = .error fault → ∃ defect, fault = .malformed defect) ∧
    (∀ before item rva gap, IsFirst image.sections before item rva →
      IsFirst image.sections before item (rva + gap) →
        ∀ offset, image.offsetOf rva = .ok offset ↔
          image.offsetOf (rva + gap) = .ok (offset + gap)) := by
  refine ⟨?_, fun _ => sections_fit, ?_, ?_, fun _ _ _ _ near far => offsetOf_add near far⟩
  · intro rva offset
    rw [offsetOf_eq_ok, locate_eq_ok]
    rfl
  · intro fits before item rva small isFirst
    have member : item ∈ image.sections := isFirst.listed.subset (by simp)
    have pointer := (fits item member).rawPointer
    exact ⟨isFirst.contains.1, by omega⟩
  · intro rva fault refused
    rw [offsetOf] at refused
    split at refused
    · cases refused
      exact ⟨_, rfl⟩
    · exact malformed_of_locate refused

end Managed.Image
