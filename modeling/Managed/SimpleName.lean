import Managed.Text.Folding

namespace Managed

/-- The name of a module without version, culture or token; it is shown as given, but the case of
    its letters does not tell it from another. The key, which two names must share to be the same,
    is kept beside the text since a name is compared with many others. -/
structure SimpleName where
  text : String
  key : String
  key_eq : key = String.ofList (Text.Folding.fold Text.UpperCase.upper text.toList)

namespace SimpleName

def ofText (text : String) : SimpleName :=
  ⟨text, String.ofList (Text.Folding.fold Text.UpperCase.upper text.toList), rfl⟩

def isSame (left right : SimpleName) : Bool :=
  left.key = right.key

def agree (left right : String) : Bool :=
  Text.Folding.same Text.UpperCase.upper left.toList right.toList

end SimpleName

end Managed
