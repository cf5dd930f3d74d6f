import Managed.Identity.Reader
import Managed.Metadata.CliHeader
import Managed.Metadata.Root
import Managed.Proofs.WatchedAccess

namespace Managed.Watched

open Metadata WatchedReader

def readRange : WatchedReader DataRange := do
  let rva ← number 4
  let size ← number 4
  return ⟨rva, size⟩

def readCliHeader : WatchedReader CliHeader := do
  let size ← number 4
  if size ≠ CliHeader.byteSize then throw (.malformed (.cliHeaderSize size))
  let majorRuntime ← number 2
  let minorRuntime ← number 2
  if majorRuntime = 0 ∨ 10 < majorRuntime then throw (.malformed (.runtimeVersion majorRuntime))
  let metadata ← readRange
  if metadata.rva = 0 then throw (.malformed .metadataRvaZero)
  if metadata.size = 0 then throw (.malformed .metadataSizeZero)
  let flags ← number 4
  if flags ||| CliHeader.knownFlags ≠ CliHeader.knownFlags then throw (.malformed (.cliFlags flags))
  let entryPoint ← number 4
  let resources ← readRange
  if !resources.isConsistent then throw (.malformed .resources)
  let strongName ← readRange
  if !strongName.isConsistent then throw (.malformed .strongName)
  let codeManager ← number 8
  if codeManager ≠ 0 then throw (.malformed .codeManagerTable)
  let fixups ← readRange
  if !fixups.isConsistent then throw (.malformed .vtableFixups)
  return { size, majorRuntime, minorRuntime, metadata, flags, entryPoint, resources, strongName }

theorem ofReader_readRange : ofReader CliHeader.readRange = readRange := by
  simp only [CliHeader.readRange, readRange, ofReader_bind, ofReader_number, ofReader_pure]

theorem ofReader_readCliHeader : ofReader CliHeader.read = readCliHeader := by
  simp only [CliHeader.read, readCliHeader, ofReader_bind, ofReader_ite, ofReader_number,
    ofReader_readRange, ofReader_malformed, ofReader_pure]

def cliHeader (data : Bytes) : Watched CliHeader :=
  if data.length < CliHeader.byteSize then throw .outOfBounds else run readCliHeader data

theorem cliHeader_eq (data : Bytes) : cliHeader data = answered (CliHeader.ofBytes data) := by
  rw [cliHeader, CliHeader.ofBytes, ← ofReader_readCliHeader, run_ofReader]
  split <;> rfl

def streamHeader (data : Bytes) : Watched StreamHeader :=
  if data.length < 9 then throw .outOfBounds
  else do
    let area ← range data 8 (min data.length (8 + StreamHeader.nameLimit))
    match area.findIdx? (· = 0) with
    | none => throw (.malformed .streamNameNotTerminated)
    | some length =>
      let text := Text.Utf8.decodeLossy (← range area 0 length)
      match StreamName.ofText? text with
      | none => throw (.malformed (.streamName text))
      | some name =>
        let offset ← run (number 4) data
        let size ← run (number 4) (← after data 4)
        return { offset, size, name }

theorem run_number {width : Nat} {data : Bytes} (room : width ≤ data.length) :
    run (number width) data = pure (Bytes.littleEndian (data.take width)) := by
  have taken : Reader.run? (Reader.number width) data =
      .ok (Bytes.littleEndian (data.take width)) := by
    rw [Reader.run?_eq_ok, Reader.number_eq, if_pos]
    · exact ⟨_, rfl⟩
    · simpa [Cursor.ofBytes] using room
  rw [← ofReader_number, run_ofReader, taken]
  rfl

theorem findIdx?_zero (area : Bytes) :
    area.findIdx? (· = 0) =
      if area.contains 0 then some (area.takeWhile (· ≠ 0)).length else none := by
  induction area with
  | nil => rfl
  | cons byte rest ih =>
    rw [List.findIdx?_cons, ih]
    by_cases zero : byte = 0
    · simp [zero]
    · have unequal : (0 == byte) = false := beq_eq_false_iff_ne.mpr (Ne.symm zero)
      rw [List.contains_cons, unequal, List.takeWhile_cons]
      simp [zero]

theorem length_takeWhile (area : Bytes) :
    (area.takeWhile (· ≠ 0)).length = area.findIdx (· = 0) := by
  induction area with
  | nil => rfl
  | cons byte rest ih =>
    rw [List.takeWhile_cons, List.findIdx_cons]
    by_cases zero : byte = 0
    · simp [zero]
    · simpa [zero] using ih

theorem range_takeWhile (area : Bytes) (test : UInt8 → Bool) :
    range area 0 (area.takeWhile test).length = pure (area.takeWhile test) := by
  have first := List.takeWhile_prefix test (l := area)
  rw [range_eq (Nat.zero_le _) first.length_le, List.drop_zero, Nat.sub_zero,
    ← List.prefix_iff_eq_take.mp first]

theorem streamHeader_eq (data : Bytes) :
    streamHeader data = answered (StreamHeader.ofBytes data) := by
  rw [streamHeader, StreamHeader.ofBytes]
  by_cases short : data.length < 9
  · rw [if_pos short, if_pos short]
    rfl
  rw [if_neg short, if_neg short]
  have area : range data 8 (min data.length (8 + StreamHeader.nameLimit)) =
      pure ((data.drop 8).take StreamHeader.nameLimit) := by
    have ordered : 8 ≤ min data.length (8 + StreamHeader.nameLimit) := by omega
    rw [range_eq ordered (Nat.min_le_left _ _)]
    congr 1
    rw [List.take_eq_take_iff, List.length_drop]
    omega
  rw [area, pure_bind, findIdx?_zero]
  dsimp only
  generalize (data.drop 8).take StreamHeader.nameLimit = area
  cases area.contains 0 with
  | false => rfl
  | true =>
    simp only [Bool.not_true, Bool.false_eq_true, if_false, if_true]
    rw [range_takeWhile, pure_bind]
    cases StreamName.ofText? (Text.Utf8.decodeLossy (area.takeWhile (· ≠ 0))) with
    | none => rfl
    | some name =>
      have size : run (number 4) (data.drop 4) =
          pure (Bytes.littleEndian ((data.drop 4).take 4)) :=
        run_number (by rw [List.length_drop]; omega)
      dsimp only
      rw [run_number (by omega), pure_bind, after_eq (by omega), pure_bind, size, pure_bind]
      rfl

def readHeaders : (count : Nat) → (known : List StreamHeader) →
    WatchedReader (List StreamHeader)
  | 0, _ => return []
  | count + 1, known => do
    let cursor ← get
    let header ← streamHeader (← after cursor.data cursor.position)
    match Root.headerDefect? cursor.data.length known header with
    | some defect => throw (.malformed defect)
    | none =>
      skip header.length
      let rest ← readHeaders count (known ++ [header])
      return header :: rest

def readRoot : WatchedReader Root := do
  let found ← number 4
  if found ≠ Root.signature then throw (.malformed (.rootSignature found))
  let major ← number 2
  let minor ← number 2
  let _reserved ← number 4
  let length ← number 4
  if Root.versionLimit < length then throw (.malformed (.versionTooLong length))
  let area ← bytes length
  let version := Text.Utf8.decodeLossy (← range area 0 (area.findIdx (· = 0)))
  let flags ← number 2
  let count ← number 2
  if count = 0 then throw (.malformed .noStreams)
  let headers ← readHeaders count []
  return { major, minor, version, flags, headers }

theorem follows_readHeaders (count : Nat) (known : List StreamHeader) :
    Follows (readHeaders count known) (Root.readHeaders count known) := by
  induction count generalizing known with
  | zero => exact .pure []
  | succ count ih =>
    refine .of_steps fun cursor inside => ?_
    change ∃ watched_step reader_step, Follows watched_step reader_step ∧
      StateT.run (readHeaders (count + 1) known) cursor = watched_step cursor ∧
      Root.readHeaders (count + 1) known cursor = reader_step cursor
    simp only [readHeaders, StateT.run_bind, StateT.run_get, StateT.run_monadLift, monadLift_self,
      pure_bind, bind_assoc, after_eq inside, streamHeader_eq, Root.readHeaders, Reader.get_bind]
    cases StreamHeader.ofBytes (cursor.data.drop cursor.position) with
    | error fault => exact ⟨_, _, .fail fault, rfl, rfl⟩
    | ok header =>
      rw [answered_ok, pure_bind]
      dsimp only
      refine ⟨_, _, ?_, rfl, rfl⟩
      cases Root.headerDefect? cursor.data.length known header with
      | some defect => exact .fail _
      | none => exact .bind (.skip _) fun _ => .bind (ih _) fun rest => .pure _

theorem follows_readRoot : Follows readRoot Root.read := by
  refine .bind (.number 4) fun found => ?_
  dsimp only
  split
  · exact .refuse _ _ _
  refine .bind (.number 2) fun major => .bind (.number 2) fun minor => .bind (.number 4) fun _ =>
    .bind (.number 4) fun length => ?_
  split
  · exact .refuse _ _ _
  refine .bind (.bytes length) fun area => ?_
  have version : range area 0 (area.findIdx (· = 0)) = pure (area.takeWhile (· ≠ 0)) := by
    rw [← length_takeWhile, range_takeWhile]
  rw [version, liftM_pure, pure_bind]
  refine .bind (.number 2) fun flags => .bind (.number 2) fun count => ?_
  split
  · exact .refuse _ _ _
  exact .bind (follows_readHeaders count []) fun headers => .pure _

theorem root_eq (data : Bytes) : run readRoot data = answered (Root.ofBytes data) :=
  follows_readRoot.run data

end Managed.Watched
