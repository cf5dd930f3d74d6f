namespace Managed.Text.Decimal

def digit (value : Nat) : Char :=
  Char.ofNat (48 + value)

def digitValue? (char : Char) : Option Nat :=
  if '0' ≤ char ∧ char ≤ '9' then some (char.toNat - 48) else none

def render (number : Nat) : List Char :=
  if number < 10 then [digit number] else render (number / 10) ++ [digit (number % 10)]

/-- The number that digits denote after those that gave `number`. A number only grows with further
    digits, so the first that reaches the limit ends the reading. -/
def readDigits (limit : Nat) : (number : Nat) → (digits : List Char) → Option Nat
  | number, [] => some number
  | number, char :: rest =>
    match digitValue? char with
    | some value =>
      if number * 10 + value < limit then readDigits limit (number * 10 + value) rest else none
    | none => none

def read? (limit : Nat) (text : List Char) : Option Nat :=
  let digits := match text with
    | '+' :: rest => rest
    | _ => text
  if digits.isEmpty then none else readDigits limit 0 digits

end Managed.Text.Decimal
