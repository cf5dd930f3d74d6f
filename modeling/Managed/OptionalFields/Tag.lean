namespace Managed

inductive FieldTag where
  | rareFlags
  | castableIsInstanceSlot
  | dispatchMap
  | valueTypePadding
  | castableImplementationSlot
  | nullableValueOffset
deriving DecidableEq, Repr

namespace FieldTag

def all : List FieldTag :=
  [rareFlags, castableIsInstanceSlot, dispatchMap, valueTypePadding, castableImplementationSlot,
    nullableValueOffset]

def index : FieldTag → Nat
  | rareFlags => 0
  | castableIsInstanceSlot => 1
  | dispatchMap => 2
  | valueTypePadding => 3
  | castableImplementationSlot => 4
  | nullableValueOffset => 5

def ofIndex? (index : Nat) : Option FieldTag :=
  all[index]?

def name : FieldTag → String
  | rareFlags => "RareFlags"
  | castableIsInstanceSlot => "ICastableIsInstSlot"
  | dispatchMap => "DispatchMap"
  | valueTypePadding => "ValueTypeFieldPadding"
  | castableImplementationSlot => "ICastableGetImplTypeSlot"
  | nullableValueOffset => "NullableValueOffset"

theorem index_le (tag : FieldTag) : tag.index ≤ 5 := by
  cases tag <;> decide

theorem ofIndex?_index (tag : FieldTag) : ofIndex? tag.index = some tag := by
  cases tag <;> rfl

end FieldTag

end Managed
