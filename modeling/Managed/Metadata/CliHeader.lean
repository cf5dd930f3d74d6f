import Managed.Cursor

namespace Managed.Metadata

structure DataRange where
  rva : Nat
  size : Nat
deriving DecidableEq, Repr

def DataRange.isConsistent (range : DataRange) : Bool :=
  (range.rva == 0) == (range.size == 0)

structure CliHeader where
  size : Nat
  majorRuntime : Nat
  minorRuntime : Nat
  metadata : DataRange
  flags : Nat
  entryPoint : Nat
  resources : DataRange
  strongName : DataRange
deriving DecidableEq, Repr

namespace CliHeader

def byteSize : Nat := 72

def knownFlags : Nat := 0x1001F

def readRange : Reader DataRange := do
  let rva ← Reader.number 4
  let size ← Reader.number 4
  return ⟨rva, size⟩

def read : Reader CliHeader := do
  let size ← Reader.number 4
  if size ≠ byteSize then Reader.malformed (.cliHeaderSize size)
  let majorRuntime ← Reader.number 2
  let minorRuntime ← Reader.number 2
  if majorRuntime = 0 ∨ 10 < majorRuntime then Reader.malformed (.runtimeVersion majorRuntime)
  let metadata ← readRange
  if metadata.rva = 0 then Reader.malformed .metadataRvaZero
  if metadata.size = 0 then Reader.malformed .metadataSizeZero
  let flags ← Reader.number 4
  if flags ||| knownFlags ≠ knownFlags then Reader.malformed (.cliFlags flags)
  let entryPoint ← Reader.number 4
  let resources ← readRange
  if !resources.isConsistent then Reader.malformed .resources
  let strongName ← readRange
  if !strongName.isConsistent then Reader.malformed .strongName
  let codeManager ← Reader.number 8
  if codeManager ≠ 0 then Reader.malformed .codeManagerTable
  let fixups ← readRange
  if !fixups.isConsistent then Reader.malformed .vtableFixups
  return { size, majorRuntime, minorRuntime, metadata, flags, entryPoint, resources, strongName }

/-- Data too short for a whole header is refused before any of it is looked at. -/
def ofBytes (data : Bytes) : Except Fault CliHeader :=
  if data.length < byteSize then .error .outOfBounds else Reader.run? read data

def isStrongNameSigned (header : CliHeader) : Bool := header.flags.testBit 3

end CliHeader

end Managed.Metadata
