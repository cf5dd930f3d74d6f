import Managed.Image.Container
import Managed.Text.Utf8

namespace Managed.Image

namespace OptionalHeader

structure Form where
  baseOffset : Nat
  baseWidth : Nat
  countOffset : Nat
deriving DecidableEq, Repr

def fileAlignmentOffset : Nat := 36

def form? (magic : Nat) : Option Form :=
  if magic = 0x10B then some ⟨28, 4, 92⟩
  else if magic = 0x20B then some ⟨24, 8, 108⟩
  else none

def directoryLimit : Nat := 16

def cliDirectory : Nat := 14

/-- The directory with the given number; one whose fields are both zero is absent. -/
def directory? (directories : Bytes) (number : Nat) : Option Metadata.DataRange := do
  let rva ← directories.number? (8 * number) 4
  let size ← directories.number? (8 * number + 4) 4
  if rva = 0 ∧ size = 0 then none else some ⟨rva, size⟩

def read? (data : Bytes) : Option OptionalHeader := do
  let magic ← data.number? 0 2
  let form ← form? magic
  let imageBase ← data.number? form.baseOffset form.baseWidth
  let fileAlignment ← data.number? fileAlignmentOffset 4
  let count ← data.number? form.countOffset 4
  if directoryLimit < count then none
  else
    let directories ← data.slice? (form.countOffset + 4) (8 * count)
    return { imageBase, fileAlignment, cli := directory? directories cliDirectory }

end OptionalHeader

namespace Section

def headerSize : Nat := 40

def read? (header : Bytes) : Option Section := do
  let virtualSize ← header.number? 8 4
  let address ← header.number? 12 4
  let rawSize ← header.number? 16 4
  let rawPointer ← header.number? 20 4
  return { address, virtualSize, rawPointer, rawSize }

def readAll? : (count : Nat) → (data : Bytes) → Option (List Section)
  | 0, _ => some []
  | count + 1, data => do
    let header ← data.slice? 0 headerSize
    let first ← read? header
    let rest ← readAll? count (data.drop headerSize)
    return first :: rest

def alignUp (number alignment : Nat) : Nat :=
  (number + alignment - 1) / alignment * alignment

def pageSize : Nat := 0x1000

def sectorSize : Nat := 0x200

/-- How many bytes of the file a loader maps for a section. -/
def readSize (item : Section) (fileAlignment : Nat) : Nat :=
  let aligned := alignUp (item.rawPointer + item.rawSize) fileAlignment -
    item.rawPointer / sectorSize * sectorSize
  let raw := min aligned (alignUp item.rawSize pageSize)
  if item.virtualSize = 0 then raw else min raw (alignUp item.virtualSize pageSize)

end Section

namespace Container

def isPowerOfTwo (number : Nat) : Bool :=
  number ≠ 0 && number &&& (number - 1) = 0

def fileOffset? (sections : List Section) (fileAlignment rva : Nat) : Option Nat :=
  if isPowerOfTwo fileAlignment then
    (sections.find? fun item =>
      item.address ≤ rva && rva < item.address + item.readSize fileAlignment).map
        fun item => item.rawPointer + (rva - item.address)
  else none

def hasMetadataRoot (data : Bytes) (offset size : Nat) : Bool :=
  (data.slice? offset 4).isSome && offset + size ≤ data.length &&
    match data.number? (offset + 12) 4 with
    | none => false
    | some length =>
      match data.slice? (offset + 16) length with
      | none => false
      | some version =>
        (Text.Utf8.decode? version).isSome && (data.slice? (offset + 16 + length) 4).isSome

def hasCliHeader (data : Bytes) (sections : List Section) (fileAlignment : Nat)
    (directory : Metadata.DataRange) : Bool :=
  match fileOffset? sections fileAlignment directory.rva with
  | none => false
  | some offset =>
    match data.slice? offset Metadata.CliHeader.byteSize with
    | none => false
    | some header =>
      match header.number? 8 4, header.number? 12 4 with
      | some rva, some size =>
        match fileOffset? sections fileAlignment rva with
        | some start => hasMetadataRoot data start size
        | none => false
      | _, _ => false

def dosHeaderSize : Nat := 0x40

def coffHeaderSize : Nat := 20

def readHeaders? (data headers : Bytes) : Option Container := do
  let coff ← headers.slice? 0 coffHeaderSize
  let count ← coff.number? 2 2
  let optionalSize ← coff.number? 16 2
  let rest := headers.drop coffHeaderSize
  let optional ← if optionalSize = 0 then some none else (OptionalHeader.read? rest).map some
  if data.length / Section.headerSize < count then none
  else
    let sections ← Section.readAll? count (rest.drop optionalSize)
    return { optional, sections }

def isSound (data : Bytes) (container : Container) : Bool :=
  match container.optional with
  | none => true
  | some header =>
    match header.cli with
    | none => true
    | some directory => hasCliHeader data container.sections header.fileAlignment directory

/-- Reads the headers. No directory is looked at but that of the CLI header, which must lead to that
    header and to the metadata. -/
def ofBytes? (data : Bytes) : Option Container :=
  if data.take 2 ≠ [0x4D, 0x5A] ∨ data.length < dosHeaderSize then none
  else do
    let start ← data.number? 0x3C 4
    if start < dosHeaderSize then none
    else
      let signature ← data.slice? start 4
      if signature ≠ [0x50, 0x45, 0, 0] then none
      else
        let container ← readHeaders? data (data.drop (start + 4))
        if container.isSound data then some container else none

scoped instance : Parser := ⟨ofBytes?⟩

end Container

end Managed.Image
