import Managed.Identity.Reader
import Managed.Image.Basic
import Managed.Metadata.Root

namespace Managed

open Metadata

structure Contents where
  image : Image
  identity : Identity
  runtimeVersion : String
  metadataOffset : Nat
  metadataSize : Nat
  layout : Layout
deriving DecidableEq, Repr

namespace Contents

def requireSome {α : Type} (defect : Defect) : Option α → Except Fault α
  | some value => .ok value
  | none => .error (.malformed defect)

def blobHeap? : Option Bytes → Except Fault (Option BlobHeap)
  | none => .ok none
  | some bytes => (BlobHeap.ofBytes bytes).map some

def readTables (root : Root) (metadata : Bytes) : Except Fault (Layout × Identity) := do
  let stream ← requireSome .noTableStream (root.tablesStream? metadata)
  let tables ← TablesStream.ofBytes stream
  let texts ← requireSome .noStringsHeap (root.stream? metadata .strings)
  let strings ← StringsHeap.ofBytes texts
  let blobs ← blobHeap? (root.stream? metadata .blob)
  let identity ← Identity.read tables strings blobs
  return (tables.layout, identity)

def ofImage (image : Image) : Except Fault Contents := do
  if image.cli.size < CliHeader.byteSize then
    throw (.malformed (.cliDirectoryTooSmall image.cli.size))
  let headerOffset ← image.offsetOf image.cli.rva
  let header ← CliHeader.ofBytes (← image.slice headerOffset CliHeader.byteSize)
  let metadataOffset ← image.offsetOf header.metadata.rva
  let metadata ← image.slice metadataOffset header.metadata.size
  let root ← Root.ofBytes metadata
  let (layout, identity) ← readTables root metadata
  return {
    image
    identity
    runtimeVersion := root.version
    metadataOffset
    metadataSize := header.metadata.size
    layout }

def ofBytes [Image.Parser] (data : Bytes) : Except Fault Contents := do
  ofImage (← Image.ofBytes data)

end Contents

end Managed
