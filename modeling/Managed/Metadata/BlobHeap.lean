import Managed.Integer.Compressed

namespace Managed.Metadata

/-- Blobs that follow their compressed length each, named by the offset of the length. The first
    byte is an empty blob. -/
structure BlobHeap where
  data : Bytes
deriving DecidableEq, Repr

namespace BlobHeap

def ofBytes (data : Bytes) : Except Fault BlobHeap :=
  if data.head? = some 0 then .ok ⟨data⟩ else .error (.malformed .emptyBlobHeap)

def readBlob : Reader Bytes := do
  let length ← Integer.Compressed.read
  Reader.bytes length

def get (heap : BlobHeap) (index : Nat) : Except Fault Bytes :=
  if heap.data.length ≤ index then .error .outOfBounds
  else Reader.run? readBlob (heap.data.drop index)

def entry (blob : Bytes) : Bytes :=
  Integer.Compressed.encode blob.length ++ blob

end BlobHeap

end Managed.Metadata
