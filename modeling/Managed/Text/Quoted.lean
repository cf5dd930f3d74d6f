import Managed.Text.Visible

namespace Managed.Text.Quoted

/-- A character between two quotes of the given kind: the quote and the backslash follow a
    backslash, the common controls have letters, and what does not show is given by its number. -/
def escape (quote char : Char) : List Char :=
  if char = quote || char = '\\' then ['\\', char]
  else if char = '\x00' then ['\\', '0']
  else if char = '\t' then ['\\', 't']
  else if char = '\n' then ['\\', 'n']
  else if char = '\r' then ['\\', 'r']
  else if isVisible char then [char]
  else ['\\', 'u', '\x7b'] ++ Nat.toDigits 16 char.toNat ++ ['\x7d']

def text (content : String) : String :=
  String.ofList ('"' :: content.toList.flatMap (escape '"') ++ ['"'])

def char (content : Char) : String :=
  String.ofList ('\'' :: escape '\'' content ++ ['\''])

end Managed.Text.Quoted
