import Managed.Fault
import Managed.Text.Utf8

namespace Managed.Metadata

/-- Texts that end in a zero byte each, named by the offset at which they begin. The first of them
    is empty. -/
structure StringsHeap where
  data : Bytes
deriving DecidableEq, Repr

namespace StringsHeap

def ofBytes (data : Bytes) : Except Fault StringsHeap :=
  if data.head? = some 0 then .ok ⟨data⟩ else .error (.malformed .emptyStringsHeap)

def terminated? (bytes : Bytes) : Option Bytes :=
  if bytes.contains 0 then some (bytes.takeWhile (· ≠ 0)) else none

def get (heap : StringsHeap) (index : Nat) : Except Fault String :=
  if heap.data.length ≤ index then .error .outOfBounds
  else
    match (terminated? (heap.data.drop index)).bind Text.Utf8.decode? with
    | some text => .ok text
    | none => .error (.malformed (.heapString index))

def entry (text : String) : Bytes :=
  Text.Utf8.encode text ++ [0]

end StringsHeap

end Managed.Metadata
