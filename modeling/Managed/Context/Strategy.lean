import Managed.Text.Quoted
import Managed.Text.Record

namespace Managed

inductive TypeCategory where
  | reference
  | value
  | interface
  | delegate
  | enumeration
deriving DecidableEq, Repr

def TypeCategory.ofName? : String → Option TypeCategory
  | "Class" => some reference
  | "ValueType" => some value
  | "Interface" => some interface
  | "Delegate" => some delegate
  | "Enum" => some enumeration
  | _ => none

structure StrategySet where
  fieldLayout : String := "metadata-field-layout"
  virtualMethods : String := "metadata-virtual-methods"
  methodEnumeration : String := "metadata-method-enumeration"
  delegateEnumeration : String := "delegate-method-enumeration"
deriving DecidableEq, Repr

namespace StrategySet

def fieldLayoutFor (strategies : StrategySet) (_ : TypeCategory) : String :=
  strategies.fieldLayout

def virtualMethodsFor (strategies : StrategySet) (_ : TypeCategory) : String :=
  strategies.virtualMethods

/-- Delegates have methods that the runtime provides, and so an enumeration of their own. -/
def methodEnumerationFor (strategies : StrategySet) : TypeCategory → String
  | .delegate => strategies.delegateEnumeration
  | _ => strategies.methodEnumeration

def debug (strategies : StrategySet) : String :=
  Text.Record.whole "StrategySet" [
    ("field_layout", Text.Quoted.text strategies.fieldLayout),
    ("virtual_methods", Text.Quoted.text strategies.virtualMethods),
    ("method_enumeration", Text.Quoted.text strategies.methodEnumeration),
    ("delegate_enumeration", Text.Quoted.text strategies.delegateEnumeration)]

end StrategySet

end Managed
