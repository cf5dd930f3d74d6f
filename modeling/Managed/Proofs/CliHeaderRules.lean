import Mathlib.Data.Nat.Bitwise
import Managed.Metadata.CliHeader
import Managed.Proofs.Reading

namespace Managed

def Bytes.field (data : Bytes) (offset width : Nat) : Nat :=
  littleEndian ((data.drop offset).take width)

theorem Bytes.field_take {offset width length : Nat} (within : offset + width ≤ length)
    (data : Bytes) : field (data.take length) offset width = field data offset width := by
  have enough : width ≤ length - offset := by omega
  rw [field, List.drop_take, List.take_take, Nat.min_eq_left enough]
  rfl

namespace Reader

variable {α β : Type} {data : Bytes} {position : Nat}

def runFrom (reader : Reader α) (data : Bytes) (position : Nat) : Except Fault α :=
  match reader ⟨data, position⟩ with
  | .ok value _ => .ok value
  | .error fault _ => .error fault

theorem runFrom_number {width : Nat} (room : position + width ≤ data.length)
    (next : Nat → Reader β) :
    runFrom (number width >>= next) data position =
      runFrom (next (data.field position width)) data (position + width) := by
  have taken := (number_eq_ok width ⟨data, position⟩ _ _).mpr ⟨room, rfl, rfl⟩
  rw [runFrom, bind_of_ok taken]
  rfl

def judged (value : α) : Option Defect → Except Fault α
  | some defect => .error (.malformed defect)
  | none => .ok value

theorem judged_eq_ok {value result : α} {found : Option Defect} :
    judged value found = .ok result ↔ found = none ∧ result = value := by
  cases found with
  | none => simp [judged, eq_comm]
  | some defect => simp [judged]

theorem judged_eq_error {value : α} {found : Option Defect} {fault : Fault} :
    judged value found = .error fault ↔ ∃ defect, found = some defect ∧ fault = .malformed defect := by
  cases found with
  | none => simp [judged]
  | some defect => simp [judged, eq_comm]

theorem runFrom_refuse {refused : Prop} [Decidable refused] {defect : Defect}
    {found : Option Defect} {next : PUnit → Reader α} {value : α}
    (rest : runFrom (next ⟨⟩) data position = judged value found) :
    runFrom (if refused then malformed defect >>= next else next ⟨⟩) data position =
      judged value (if refused then some defect else found) := by
  by_cases holds : refused
  · rw [if_pos holds, if_pos holds]
    rfl
  · rw [if_neg holds, if_neg holds, rest]

end Reader

namespace Metadata.CliHeader

open Reader

def rangeAt (data : Bytes) (offset : Nat) : DataRange :=
  ⟨data.field offset 4, data.field (offset + 4) 4⟩

def ofFields (data : Bytes) : CliHeader where
  size := data.field 0 4
  majorRuntime := data.field 4 2
  minorRuntime := data.field 6 2
  metadata := rangeAt data 8
  flags := data.field 16 4
  entryPoint := data.field 20 4
  resources := rangeAt data 24
  strongName := rangeAt data 32

def defect? (data : Bytes) : Option Defect :=
  if data.field 0 4 ≠ byteSize then some (.cliHeaderSize (data.field 0 4))
  else if data.field 4 2 = 0 ∨ 10 < data.field 4 2 then some (.runtimeVersion (data.field 4 2))
  else if (rangeAt data 8).rva = 0 then some .metadataRvaZero
  else if (rangeAt data 8).size = 0 then some .metadataSizeZero
  else if data.field 16 4 ||| knownFlags ≠ knownFlags then some (.cliFlags (data.field 16 4))
  else if !(rangeAt data 24).isConsistent then some .resources
  else if !(rangeAt data 32).isConsistent then some .strongName
  else if data.field 40 8 ≠ 0 then some .codeManagerTable
  else if !(rangeAt data 48).isConsistent then some .vtableFixups
  else none

theorem runFrom_readRange {β : Type} {data : Bytes} {position : Nat}
    (room : position + 8 ≤ data.length) (next : DataRange → Reader β) :
    runFrom (readRange >>= next) data position =
      runFrom (next (rangeAt data position)) data (position + 8) := by
  rw [readRange, bind_assoc, runFrom_number (by omega), bind_assoc, runFrom_number (by omega),
    pure_bind]
  rfl

/-- The fields are checked as they are read, with the same answer as if they were all there first. -/
theorem run?_read {data : Bytes} (long : 72 ≤ data.length) :
    run? read data = judged (ofFields data) (defect? data) := by
  change runFrom read data 0 = _
  -- Each line takes the next fields of the header and the checks that stand behind them.
  refine (runFrom_number (by omega) _).trans (runFrom_refuse ?_)
  refine (runFrom_number (by omega) _).trans ((runFrom_number (by omega) _).trans (runFrom_refuse ?_))
  refine (runFrom_readRange (by omega) _).trans (runFrom_refuse (runFrom_refuse ?_))
  refine (runFrom_number (by omega) _).trans (runFrom_refuse ?_)
  refine (runFrom_number (by omega) _).trans ?_
  refine (runFrom_readRange (by omega) _).trans (runFrom_refuse ?_)
  refine (runFrom_readRange (by omega) _).trans (runFrom_refuse ?_)
  refine (runFrom_number (by omega) _).trans (runFrom_refuse ?_)
  refine (runFrom_readRange (by omega) _).trans (runFrom_refuse ?_)
  rfl

theorem ofBytes_eq (data : Bytes) :
    ofBytes data = if data.length < 72 then .error .outOfBounds
      else judged (ofFields data) (defect? data) := by
  rw [ofBytes]
  by_cases short : data.length < 72
  · rw [if_pos short]
    exact if_pos short
  · rw [if_neg short, ← run?_read (Nat.not_lt.mp short)]
    exact if_neg short

structure IsLegal (data : Bytes) : Prop where
  size : data.field 0 4 = 72
  runtime : 1 ≤ data.field 4 2 ∧ data.field 4 2 ≤ 10
  metadata_rva : data.field 8 4 ≠ 0
  metadata_size : data.field 12 4 ≠ 0
  flags : ∀ bit, (data.field 16 4).testBit bit = true → Nat.testBit 0x1001F bit = true
  resources : data.field 24 4 = 0 ↔ data.field 28 4 = 0
  strongName : data.field 32 4 = 0 ↔ data.field 36 4 = 0
  codeManager : data.field 40 8 = 0
  fixups : data.field 48 4 = 0 ↔ data.field 52 4 = 0

theorem isConsistent_iff (range : DataRange) :
    range.isConsistent = true ↔ (range.rva = 0 ↔ range.size = 0) := by
  rw [DataRange.isConsistent, beq_iff_eq, Bool.eq_iff_iff, beq_iff_eq, beq_iff_eq]

theorem or_knownFlags (flags : Nat) :
    flags ||| knownFlags = knownFlags ↔
      ∀ bit, flags.testBit bit = true → Nat.testBit 0x1001F bit = true := by
  constructor
  · intro same bit set
    have united := congrArg (·.testBit bit) same
    rw [Nat.testBit_or, set, Bool.true_or] at united
    exact united.symm
  · intro known
    refine Nat.eq_of_testBit_eq fun bit => ?_
    rw [Nat.testBit_or]
    cases set : flags.testBit bit with
    | false => rfl
    | true => exact (known bit set).symm

theorem next_eq_none {refused : Prop} [Decidable refused] {defect : Defect}
    {found : Option Defect} :
    (if refused then some defect else found) = none ↔ ¬ refused ∧ found = none := by
  split
  · rename_i holds
    exact iff_of_false nofun fun both => both.1 holds
  · rename_i holds
    exact ⟨fun none_found => ⟨holds, none_found⟩, And.right⟩

theorem defect?_eq_none (data : Bytes) : defect? data = none ↔ IsLegal data := by
  simp only [defect?, next_eq_none, Decidable.not_not, Bool.not_eq_true', Bool.not_eq_false,
    isConsistent_iff, or_knownFlags]
  constructor
  · intro rules
    obtain ⟨size, runtime, metadata_rva, metadata_size, flags, resources, strongName,
      codeManager, fixups, -⟩ := rules
    exact ⟨size, by omega, metadata_rva, metadata_size, flags, resources, strongName,
      codeManager, fixups⟩
  · intro legal
    have runtime := legal.runtime
    exact ⟨legal.size, by omega, legal.metadata_rva, legal.metadata_size, legal.flags,
      legal.resources, legal.strongName, legal.codeManager, legal.fixups, trivial⟩

theorem rangeAt_take {offset : Nat} (within : offset + 8 ≤ 72) (data : Bytes) :
    rangeAt (data.take 72) offset = rangeAt data offset := by
  rw [rangeAt, rangeAt, Bytes.field_take (by omega), Bytes.field_take (by omega)]

theorem ofBytes_take (data : Bytes) : ofBytes (data.take 72) = ofBytes data := by
  by_cases short : data.length < 72
  · rw [List.take_of_length_le (Nat.le_of_lt short)]
  · have same_fields : ofFields (data.take 72) = ofFields data := by
      simp (disch := decide) only [ofFields, Bytes.field_take, rangeAt_take]
    have same_defect : defect? (data.take 72) = defect? data := by
      simp (disch := decide) only [defect?, Bytes.field_take, rangeAt_take]
    have long : ¬ (data.take 72).length < 72 := by
      rw [List.length_take]
      omega
    rw [ofBytes_eq, ofBytes_eq, if_neg long, if_neg short, same_fields, same_defect]

/-- A header is accepted where its fields are legal, and is what they say. Data that is too short for
    one is out of bounds, everything else that is refused is malformed, and what comes behind a
    header does not matter. -/
theorem legal_headers_accepted (data : Bytes) :
    (∀ header, ofBytes data = .ok header ↔
      72 ≤ data.length ∧ IsLegal data ∧ header = ofFields data) ∧
    (ofBytes data = .error .outOfBounds ↔ data.length < 72) ∧
    (∀ fault, ofBytes data = .error fault → 72 ≤ data.length →
      ∃ defect, fault = .malformed defect) ∧
    ofBytes (data.take 72) = ofBytes data := by
  refine ⟨?_, ?_, ?_, ofBytes_take data⟩
  · intro header
    rw [ofBytes_eq, ← defect?_eq_none]
    split
    · rename_i short
      exact iff_of_false nofun fun accepted => Nat.not_le.mpr short accepted.1
    · rename_i long
      rw [judged_eq_ok]
      exact ⟨fun accepted => ⟨Nat.not_lt.mp long, accepted⟩, And.right⟩
  · rw [ofBytes_eq]
    split
    · rename_i short
      exact iff_of_true rfl short
    · rename_i long
      refine iff_of_false ?_ long
      intro refused
      obtain ⟨defect, -, impossible⟩ := judged_eq_error.mp refused
      cases impossible
  · intro fault refused long
    rw [ofBytes_eq, if_neg (Nat.not_lt.mpr long)] at refused
    obtain ⟨defect, -, same⟩ := judged_eq_error.mp refused
    exact ⟨defect, same⟩

example :
    let front := Bytes.ofNat 4 72 ++ Bytes.ofNat 2 2 ++ Bytes.ofNat 2 5 ++ Bytes.ofNat 4 0x2048 ++
      Bytes.ofNat 4 0x1A0 ++ Bytes.ofNat 4 9 ++ Bytes.ofNat 4 0x6000001
    ofBytes (front ++ List.replicate 48 0) = .ok {
      size := 72, majorRuntime := 2, minorRuntime := 5, metadata := ⟨0x2048, 0x1A0⟩, flags := 9,
      entryPoint := 0x6000001, resources := ⟨0, 0⟩, strongName := ⟨0, 0⟩ } := by decide

end Metadata.CliHeader

end Managed
