import Managed.Fault
import Managed.Text.Utf8

namespace Managed.Metadata

inductive StreamName where
  | strings
  | userStrings
  | blob
  | guid
  | tables
  | uncompressedTables
  | pdb
  | jtd
deriving DecidableEq, Repr

namespace StreamName

def all : List StreamName :=
  [strings, userStrings, blob, guid, tables, uncompressedTables, pdb, jtd]

def text : StreamName → String
  | strings => "#Strings"
  | userStrings => "#US"
  | blob => "#Blob"
  | guid => "#GUID"
  | tables => "#~"
  | uncompressedTables => "#-"
  | pdb => "#Pdb"
  | jtd => "#JTD"

def ofText? (text : String) : Option StreamName :=
  all.find? fun name => name.text = text

theorem ofText?_text (name : StreamName) : ofText? name.text = some name := by
  cases name <;> rfl

end StreamName

structure StreamHeader where
  offset : Nat
  size : Nat
  name : StreamName
deriving DecidableEq, Repr

namespace StreamHeader

def nameLimit : Nat := 32

def ofBytes (data : Bytes) : Except Fault StreamHeader :=
  if data.length < 9 then .error .outOfBounds
  else
    let area := (data.drop 8).take nameLimit
    if !area.contains 0 then .error (.malformed .streamNameNotTerminated)
    else
      let text := Text.Utf8.decodeLossy (area.takeWhile (· ≠ 0))
      match StreamName.ofText? text with
      | none => .error (.malformed (.streamName text))
      | some name => .ok {
          offset := Bytes.littleEndian (data.take 4)
          size := Bytes.littleEndian ((data.drop 4).take 4)
          name }

/-- The size of the header itself, whose name is padded to a multiple of four. -/
def length (header : StreamHeader) : Nat :=
  8 + (Text.Utf8.encode header.name.text).length / 4 * 4 + 4

def encode (header : StreamHeader) : Bytes :=
  let name := Text.Utf8.encode header.name.text
  Bytes.ofNat 4 header.offset ++ Bytes.ofNat 4 header.size ++ name ++
    List.replicate (4 - name.length % 4) 0

end StreamHeader

end Managed.Metadata
