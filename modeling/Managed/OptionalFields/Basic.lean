import Managed.OptionalFields.Tag

namespace Managed

structure FieldSet where
  rareFlags : Option UInt32 := none
  castableIsInstanceSlot : Option UInt32 := none
  dispatchMap : Option UInt32 := none
  valueTypePadding : Option UInt32 := none
  castableImplementationSlot : Option UInt32 := none
  nullableValueOffset : Option UInt32 := none
deriving DecidableEq, Repr

namespace FieldSet

def empty : FieldSet := {}

def get? (fields : FieldSet) : FieldTag → Option UInt32
  | .rareFlags => fields.rareFlags
  | .castableIsInstanceSlot => fields.castableIsInstanceSlot
  | .dispatchMap => fields.dispatchMap
  | .valueTypePadding => fields.valueTypePadding
  | .castableImplementationSlot => fields.castableImplementationSlot
  | .nullableValueOffset => fields.nullableValueOffset

def put (fields : FieldSet) (tag : FieldTag) (value : Option UInt32) : FieldSet :=
  match tag with
  | .rareFlags => { fields with rareFlags := value }
  | .castableIsInstanceSlot => { fields with castableIsInstanceSlot := value }
  | .dispatchMap => { fields with dispatchMap := value }
  | .valueTypePadding => { fields with valueTypePadding := value }
  | .castableImplementationSlot => { fields with castableImplementationSlot := value }
  | .nullableValueOffset => { fields with nullableValueOffset := value }

def set (fields : FieldSet) (tag : FieldTag) (value : UInt32) : FieldSet :=
  fields.put tag (some value)

def clear (fields : FieldSet) (tag : FieldTag) : FieldSet :=
  fields.put tag none

def valueOr (fields : FieldSet) (tag : FieldTag) (fallback : UInt32) : UInt32 :=
  (fields.get? tag).getD fallback

def isUsed (fields : FieldSet) : Bool :=
  FieldTag.all.any fun tag => (fields.get? tag).isSome

def entries (fields : FieldSet) : List (FieldTag × UInt32) :=
  FieldTag.all.filterMap fun tag => (fields.get? tag).map fun value => (tag, value)

def ofEntries (entries : List (FieldTag × UInt32)) : FieldSet :=
  entries.foldl (fun fields entry => fields.set entry.1 entry.2) empty

/-- The six values joined by underscores, with `x` for an absent one. -/
def display (fields : FieldSet) : String :=
  "_".intercalate (FieldTag.all.map fun tag =>
    match fields.get? tag with
    | some value => toString value.toNat
    | none => "x")

theorem get?_put (fields : FieldSet) (tag other : FieldTag) (value : Option UInt32) :
    (fields.put tag value).get? other = if other = tag then value else fields.get? other := by
  cases tag <;> cases other <;> rfl

theorem ext_get? {left right : FieldSet} (same : ∀ tag, left.get? tag = right.get? tag) :
    left = right := by
  cases left
  cases right
  have rare := same .rareFlags
  have instance_slot := same .castableIsInstanceSlot
  have dispatch := same .dispatchMap
  have padding := same .valueTypePadding
  have implementation := same .castableImplementationSlot
  have offset := same .nullableValueOffset
  simp_all [get?]

end FieldSet

end Managed
