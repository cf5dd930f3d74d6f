import Managed.Metadata.Table
import Managed.Text.Hex

namespace Managed.Metadata

/-- A table number in the top byte and a row number below it. -/
structure Token where
  value : UInt32
deriving DecidableEq, Repr

namespace Token

def rowRange : Nat := 0x1000000

/-- Of the row number only the low 24 bits count. -/
def ofRow (table : Table) (row : Nat) : Token :=
  ⟨UInt32.ofNat (table.number * rowRange + row % rowRange)⟩

def table (token : Token) : Nat := token.value.toNat / rowRange

def row (token : Token) : Nat := token.value.toNat % rowRange

def isNull (token : Token) : Bool := token.value = 0

def display (token : Token) : String :=
  "0x" ++ String.ofList (Text.Hex.padded 8 token.value.toNat)

def debug (token : Token) : String :=
  let table := String.ofList (Text.Hex.padded 2 token.table)
  s!"Token({token.display}, table: 0x{table}, row: {token.row})"

end Token

end Managed.Metadata
