import Managed.Routine

namespace Managed

/-- Values that stay published under their keys for ever, in the order of publication, and two
    counters of lookups. -/
structure Cache (κ ν : Type) where
  entries : List (κ × ν) := []
  hits : UInt64 := 0
  misses : UInt64 := 0
deriving Repr

structure CacheStats where
  hits : UInt64
  misses : UInt64
  entries : Nat
deriving DecidableEq, Repr

namespace Cache

variable {κ ν ε σ : Type} [DecidableEq κ]

def find? (cache : Cache κ ν) (key : κ) : Option ν := cache.entries.lookup key

def size (cache : Cache κ ν) : Nat := cache.entries.length

def isEmpty (cache : Cache κ ν) : Bool := cache.entries.isEmpty

def values (cache : Cache κ ν) : List ν := cache.entries.map (·.2)

def stats (cache : Cache κ ν) : CacheStats := ⟨cache.hits, cache.misses, cache.size⟩

def tryGet (key : κ) (cache : Cache κ ν) : Option ν × Cache κ ν :=
  match cache.find? key with
  | some value => (some value, { cache with hits := cache.hits + 1 })
  | none => (none, cache)

def recordMiss (cache : Cache κ ν) : Unit × Cache κ ν :=
  ((), { cache with misses := cache.misses + 1 })

def publish (key : κ) (value : ν) (cache : Cache κ ν) : ν × Cache κ ν :=
  match cache.find? key with
  | some visible => (visible, cache)
  | none => (value, { cache with entries := cache.entries ++ [(key, value)] })

/-- A lookup, a run of the constructor if nothing is found, and a publication. A failing
    constructor publishes nothing, so that a later call runs one again. -/
def getOrTryCreate (cache : Part σ (Cache κ ν)) (key : κ) (create : Routine σ (Except ε ν)) :
    Routine σ (Except ε ν) := do
  match ← cache.atomic (tryGet key) with
  | some value => return .ok value
  | none =>
    cache.atomic recordMiss
    match ← create with
    | .error error => return .error error
    | .ok value => return .ok (← cache.atomic (publish key value))

def getOrCreate (cache : Part σ (Cache κ ν)) (key : κ) (create : Routine σ ν) : Routine σ ν := do
  match ← cache.atomic (tryGet key) with
  | some value => return value
  | none =>
    cache.atomic recordMiss
    let value ← create
    cache.atomic (publish key value)

def getOrInsert (cache : Part σ (Cache κ ν)) (key : κ) (value : ν) : Routine σ ν :=
  cache.atomic (publish key value)

end Cache

end Managed
