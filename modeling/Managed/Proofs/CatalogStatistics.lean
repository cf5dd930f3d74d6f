import Mathlib.Data.List.Nodup
import Managed.Image.Headers
import Managed.Proofs.CandidateLists
import Managed.Proofs.LookupRaces
import Managed.Proofs.LookupTallies
import Managed.Proofs.PermanentLists
import Managed.Proofs.RegisteredNames

namespace Managed

/-- What the counters of a cache come to after so many lookups, of which so many missed without a
    new entry, as far as a counter can hold it. -/
def CacheStats.Accounts (stats : CacheStats) (lookups unpublished : Nat) : Prop :=
  ∃ hits misses : Nat, stats.hits = .ofNat hits ∧ stats.misses = .ofNat misses ∧
    hits + misses = lookups ∧ misses = stats.entries + unpublished

theorem CacheStats.Accounts.toNat {stats : CacheStats} {lookups unpublished : Nat}
    (accounts : stats.Accounts lookups unpublished) (few : lookups < UInt64.size) :
    stats.hits.toNat + stats.misses.toNat = lookups ∧
      stats.misses.toNat = stats.entries + unpublished := by
  obtain ⟨hits, misses, hits_eq, misses_eq, total, balance⟩ := accounts
  have hits_few : hits < UInt64.size := Nat.lt_of_le_of_lt (by omega) few
  have misses_few : misses < UInt64.size := Nat.lt_of_le_of_lt (by omega) few
  rw [hits_eq, misses_eq, UInt64.toNat_ofNat_of_lt' hits_few, UInt64.toNat_ofNat_of_lt' misses_few]
  exact ⟨total, balance⟩

namespace ModuleStore

variable {tables : PathTables} {store : ModuleStore} {placed : Path → Module → Prop}

variable [Image.Parser]

end ModuleStore

namespace Catalog

open ModuleStore

variable [Image.Parser] {tables : PathTables} {store : ModuleStore} {call : Call}

end Catalog

namespace Context

open ModuleStore Catalog

def Operation.IsSequential (operation : Operation) : Prop :=
  ∀ schedule, operation = .preload schedule → schedule = []

theorem Operation.IsSequential.call {operation : Operation} (sequential : operation.IsSequential)
    (files : FileSystem) : (operation.call files).IsSequential := by
  cases operation with
  | ask query => cases query <;> exact True.intro
  | byId id => exact True.intro
  | openModule path expected => exact True.intro
  | preload schedule => exact sequential schedule rfl
  | elsewhere => exact True.intro

structure Settles (tables : PathTables) (call : NameCall) : Prop where
  answered : CandidatesAnswer tables call.name call.answer
  first : call.overtaken = false

section

variable [Image.Parser] {context : Context} {moments : List Moment}

end

open scoped Image.Container

end Context

end Managed
