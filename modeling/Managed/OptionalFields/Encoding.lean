import Managed.Integer.SevenBit
import Managed.OptionalFields.Basic

namespace Managed

def lastFieldMark : Nat := 0x80

namespace FieldSet

/-- Every field is its tag byte and its value; the last tag byte carries the mark. -/
def encodeEntries : List (FieldTag × UInt32) → Bytes
  | [] => []
  | [(tag, value)] => UInt8.ofNat (lastFieldMark + tag.index) :: Integer.SevenBit.encode value
  | (tag, value) :: next :: rest =>
    UInt8.ofNat tag.index :: Integer.SevenBit.encode value ++ encodeEntries (next :: rest)

def encode (fields : FieldSet) : Bytes := encodeEntries fields.entries

def encodedLength (fields : FieldSet) : Nat :=
  fields.entries.foldr (fun entry length => 1 + Integer.SevenBit.size entry.2 + length) 0

def follows (previous : Option FieldTag) (tag : FieldTag) : Prop :=
  match previous with
  | none => True
  | some earlier => earlier.index < tag.index

instance (previous : Option FieldTag) (tag : FieldTag) : Decidable (follows previous tag) := by
  unfold follows
  cases previous <;> infer_instance

def room : Option FieldTag → Nat
  | none => 6
  | some tag => 5 - tag.index

theorem room_lt {previous : Option FieldTag} {tag : FieldTag} (rising : follows previous tag) :
    room (some tag) < room previous := by
  have bound := tag.index_le
  cases previous with
  | none => simp only [room]; omega
  | some earlier => simp only [follows] at rising; simp only [room]; omega

/-- Reads fields with rising tags up to the end of the data, where the last one must be marked. -/
def readEntries (previous : Option FieldTag) : Reader (List (FieldTag × UInt32)) := do
  if ← Reader.atEnd then
    if previous.isSome then Reader.malformed .fieldsNotTerminated else return []
  else
    let mark ← Reader.byte
    match FieldTag.ofIndex? (mark % lastFieldMark) with
    | none => Reader.malformed (.unknownFieldTag (mark % lastFieldMark))
    | some tag =>
      if _rising : follows previous tag then
        let value ← Integer.SevenBit.read
        if mark < lastFieldMark then
          let rest ← readEntries (some tag)
          return (tag, value) :: rest
        else if ← Reader.atEnd then
          return [(tag, value)]
        else
          Reader.malformed (.trailingFieldData (← Reader.remaining))
      else
        Reader.malformed (.fieldOutOfOrder tag)
termination_by room previous
decreasing_by exact room_lt (by assumption)

def decode (data : Bytes) : Except Fault FieldSet :=
  (Reader.run? (readEntries none) data).map ofEntries

end FieldSet

structure FrozenFields where
  data : Bytes
deriving DecidableEq, Repr

def FieldSet.freeze (fields : FieldSet) : FrozenFields := ⟨fields.encode⟩

end Managed
