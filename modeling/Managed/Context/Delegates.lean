import Managed.Cache
import Managed.Handle
import Managed.Text.Record

namespace Managed

structure InvokeShape where
  parameterCount : UInt16
  hasReturn : Bool
deriving DecidableEq, Repr

structure DelegateInfo where
  type : TypeHandle
  shape : Option InvokeShape := none
deriving DecidableEq, Repr

/-- The number of an object; two objects are the same when their numbers are. -/
abbrev DelegateRef := Nat

/-- The objects ever made, by their numbers, and the one published for every type. -/
structure Delegates where
  objects : List DelegateInfo := []
  published : Cache TypeHandle DelegateRef := {}
deriving Repr

namespace Delegates

def publishedPart : Part Delegates (Cache TypeHandle DelegateRef) where
  get delegates := delegates.published
  set delegates published := { delegates with published }

def create (type : TypeHandle) (delegates : Delegates) : DelegateRef × Delegates :=
  (delegates.objects.length, { delegates with objects := delegates.objects ++ [{ type }] })

def obtain (type : TypeHandle) : Routine Delegates DelegateRef :=
  Cache.getOrCreate publishedPart type (Routine.atomic (create type))

def get (delegates : Delegates) (type : TypeHandle) : DelegateRef × Delegates :=
  (obtain type).run delegates

def tryGet (delegates : Delegates) (type : TypeHandle) : Option DelegateRef × Delegates :=
  (publishedPart.atomic (Cache.tryGet type)).run delegates

def size (delegates : Delegates) : Nat := delegates.published.size

def info? (delegates : Delegates) (ref : DelegateRef) : Option DelegateInfo :=
  delegates.objects[ref]?

def shape? (delegates : Delegates) (ref : DelegateRef) : Option InvokeShape :=
  (delegates.info? ref).bind (·.shape)

structure Reading where
  shape : InvokeShape
  asked : Option TypeHandle
deriving DecidableEq, Repr

def invokeShape (delegates : Delegates) (ref : DelegateRef) (read : TypeHandle → InvokeShape) :
    Option Reading × Delegates :=
  match delegates.info? ref with
  | none => (none, delegates)
  | some info =>
    match info.shape with
    | some shape => (some ⟨shape, none⟩, delegates)
    | none =>
      let shape := read info.type
      let settled := { info with shape := some shape }
      (some ⟨shape, some info.type⟩,
        { delegates with objects := delegates.objects.set ref settled })

def debug (delegates : Delegates) : String :=
  Text.Record.whole "DerivedInfoCache" [("entries", toString delegates.size)]

end Delegates

end Managed
