import Managed.Bytes
import Managed.Fault

namespace Managed

structure Cursor where
  data : Bytes
  position : Nat
deriving DecidableEq, Repr

namespace Cursor

def ofBytes (data : Bytes) : Cursor := ⟨data, 0⟩

def remaining (cursor : Cursor) : Nat := cursor.data.length - cursor.position

def hasMore (cursor : Cursor) : Bool := cursor.position < cursor.data.length

end Cursor

/-- A read moves a cursor; after a fault the cursor stays where the read gave up. -/
abbrev Reader := EStateM Fault Cursor

namespace Reader

def run? {α : Type} (reader : Reader α) (data : Bytes) : Except Fault α :=
  match reader (Cursor.ofBytes data) with
  | .ok value _ => .ok value
  | .error fault _ => .error fault

def malformed {α : Type} (defect : Defect) : Reader α := throw (.malformed defect)

def bytes (length : Nat) : Reader Bytes := fun cursor =>
  match cursor.data.slice? cursor.position length with
  | some taken => .ok taken { cursor with position := cursor.position + length }
  | none => .error .outOfBounds cursor

def skip (length : Nat) : Reader Unit := do
  let _ ← bytes length

def seek (position : Nat) : Reader Unit := fun cursor =>
  if position ≤ cursor.data.length then .ok () { cursor with position := position }
  else .error .outOfBounds cursor

def number (width : Nat) : Reader Nat := do
  return Bytes.littleEndian (← bytes width)

def byte : Reader Nat := number 1

def remaining : Reader Nat := return (← get).remaining

def atEnd : Reader Bool := return !(← get).hasMore

end Reader

end Managed
