import Managed.Cursor
import Managed.Metadata.StreamHeader

namespace Managed.Metadata

structure Root where
  major : Nat
  minor : Nat
  version : String
  flags : Nat
  headers : List StreamHeader
deriving DecidableEq, Repr

namespace Root

def signature : Nat := 0x424A5342

def versionLimit : Nat := 255

def versionText (area : Bytes) : String :=
  Text.Utf8.decodeLossy (area.takeWhile (· ≠ 0))

def headerDefect? (length : Nat) (known : List StreamHeader) (header : StreamHeader) :
    Option Defect :=
  if UInt32.size ≤ header.offset + header.size ∨ length < header.offset + header.size then
    some (.streamRange header.name.text header.offset header.size)
  else if known.any (·.name = header.name) then some (.duplicateStream header.name.text)
  else none

def readHeaders : (count : Nat) → (known : List StreamHeader) → Reader (List StreamHeader)
  | 0, _ => return []
  | count + 1, known => do
    let cursor ← get
    match StreamHeader.ofBytes (cursor.data.drop cursor.position) with
    | .error fault => throw fault
    | .ok header =>
      match headerDefect? cursor.data.length known header with
      | some defect => Reader.malformed defect
      | none =>
        Reader.skip header.length
        let rest ← readHeaders count (known ++ [header])
        return header :: rest

def read : Reader Root := do
  let found ← Reader.number 4
  if found ≠ signature then Reader.malformed (.rootSignature found)
  let major ← Reader.number 2
  let minor ← Reader.number 2
  let _reserved ← Reader.number 4
  let length ← Reader.number 4
  if versionLimit < length then Reader.malformed (.versionTooLong length)
  let area ← Reader.bytes length
  let flags ← Reader.number 2
  let count ← Reader.number 2
  if count = 0 then Reader.malformed .noStreams
  let headers ← readHeaders count []
  return { major, minor, version := versionText area, flags, headers }

/-- The data must span the whole metadata. -/
def ofBytes (data : Bytes) : Except Fault Root := Reader.run? read data

def header? (root : Root) (name : StreamName) : Option StreamHeader :=
  root.headers.find? (·.name = name)

def stream? (root : Root) (metadata : Bytes) (name : StreamName) : Option Bytes :=
  match root.header? name with
  | some header => metadata.slice? header.offset header.size
  | none => none

def streamNamed? (root : Root) (metadata : Bytes) (text : String) : Option Bytes :=
  (StreamName.ofText? text).bind (root.stream? metadata)

/-- The compressed table stream is preferred to the uncompressed one. -/
def tablesStream? (root : Root) (metadata : Bytes) : Option Bytes :=
  match root.stream? metadata .tables with
  | some bytes => some bytes
  | none => root.stream? metadata .uncompressedTables

def encode (root : Root) (area : Bytes) (reserved : Nat) : Bytes :=
  Bytes.ofNat 4 signature ++ Bytes.ofNat 2 root.major ++ Bytes.ofNat 2 root.minor ++
    Bytes.ofNat 4 reserved ++ Bytes.ofNat 4 area.length ++ area ++ Bytes.ofNat 2 root.flags ++
    Bytes.ofNat 2 root.headers.length ++ root.headers.flatMap StreamHeader.encode

end Root

end Managed.Metadata
