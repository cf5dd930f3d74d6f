namespace Managed.Text

def splitOnce (separator : Char) (text : List Char) : Option (List Char × List Char) :=
  if text.contains separator then
    some (text.takeWhile (· ≠ separator), (text.dropWhile (· ≠ separator)).tail)
  else none

def stripSuffix? (ending text : List Char) : Option (List Char) :=
  if ending.isSuffixOf text then some (text.take (text.length - ending.length)) else none

def sameAscii (left right : List Char) : Bool :=
  left.map Char.toLower = right.map Char.toLower

end Managed.Text
