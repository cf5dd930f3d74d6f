import Mathlib.Algebra.Group.Prod
import Mathlib.Algebra.Ring.Int.Defs
import Mathlib.Algebra.Ring.Nat
import Managed.Proofs.LookupNotes
import Managed.Proofs.Publication
import Managed.Proofs.RoutineCharges

namespace Managed

namespace Cache

variable {κ ν : Type} {before middle after : Cache κ ν}

/-- The counters of a cache go up by so many lookups, and its misses by so many more than it has new
    entries, as far as a counter can hold it. -/
def Tallies (before : Cache κ ν) (tally : ℕ × ℤ) (after : Cache κ ν) : Prop :=
  ∃ hits misses : ℕ, after.hits = before.hits + .ofNat hits ∧
    after.misses = before.misses + .ofNat misses ∧
      hits + misses = tally.1 ∧ (before.size : ℤ) + misses = after.size + tally.2

theorem Tallies.refl (cache : Cache κ ν) : cache.Tallies 0 cache :=
  ⟨0, 0, (UInt64.add_zero _).symm, (UInt64.add_zero _).symm, rfl, rfl⟩

theorem tallies_hit (cache : Cache κ ν) : cache.Tallies (1, 0) cache.hit :=
  ⟨1, 0, rfl, (UInt64.add_zero _).symm, rfl, rfl⟩

theorem tallies_missed (cache : Cache κ ν) : cache.Tallies (1, 1) cache.missed :=
  ⟨0, 1, (UInt64.add_zero _).symm, rfl, rfl, rfl⟩

theorem tallies_published (cache : Cache κ ν) (key : κ) (value : ν) :
    cache.Tallies (0, -1) (cache.published key value) := by
  have size : (cache.published key value).size = cache.size + 1 := List.length_append
  refine ⟨0, 0, (UInt64.add_zero _).symm, (UInt64.add_zero _).symm, rfl, ?_⟩
  dsimp only
  omega

theorem Tallies.trans {tally tally' : ℕ × ℤ} (first : before.Tallies tally middle)
    (second : middle.Tallies tally' after) : before.Tallies (tally + tally') after := by
  obtain ⟨hits, misses, hits_eq, misses_eq, total, balance⟩ := first
  obtain ⟨hits', misses', hits_eq', misses_eq', total', balance'⟩ := second
  refine ⟨hits + hits', misses + misses', ?_, ?_, ?_, ?_⟩
  · rw [hits_eq', hits_eq, UInt64.ofNat_add, UInt64.add_assoc]
  · rw [misses_eq', misses_eq, UInt64.ofNat_add, UInt64.add_assoc]
  · rw [Prod.fst_add]
    omega
  · rw [Prod.snd_add]
    omega

end Cache

namespace Meter

variable {σ κ ν ε η M : Type} [AddCommMonoid M] {meter : Meter σ M} {part : Part σ (Cache κ ν)}
  {into : ℕ × ℤ →+ M}

def Measures (meter : Meter σ M) (part : Part σ (Cache κ ν)) (into : ℕ × ℤ →+ M) : Prop :=
  ∀ state tally cache, (part.get state).Tallies tally cache →
    meter.Adds state (into tally) (part.set state cache)

variable [DecidableEq κ]

theorem Measures.tryGet (measures : meter.Measures part into) (key : κ) :
    meter.Charges (fun found => if found.isSome then into (1, 0) else 0) 0
      (part.atomic (Cache.tryGet key)) := by
  refine .atomic fun state => ?_
  cases found : (part.get state).find? key with
  | some value =>
    rw [Cache.tryGet_present found]
    exact ⟨_, measures state _ _ (Cache.tallies_hit _), (zero_add _).symm⟩
  | none =>
    rw [Cache.tryGet_absent found]
    refine ⟨0, ?_, (zero_add 0).symm⟩
    rw [← into.map_zero]
    exact measures state _ _ (.refl _)

theorem Measures.publish (measures : meter.Measures part into) (key : κ) (value : ν) (spent : M) :
    meter.Charges (fun published => spent + into (0, if published.2 then 0 else -1)) spent
      (part.atomic (Cache.publishNoted key value)) := by
  refine .atomic fun state => ⟨_, ?_, rfl⟩
  dsimp only
  cases found : (part.get state).find? key with
  | some visible =>
    simp only [Cache.publishNoted, Cache.publish_taken found, found, Option.isSome_some, if_true]
    exact measures state _ _ (.refl _)
  | none =>
    simp only [Cache.publishNoted, Cache.publish_absent found, found, Option.isSome_none]
    exact measures state _ _ (Cache.tallies_published _ _ _)

end Meter

/-- A lookup misses without a new entry if its constructor fails, or if another value is published
    before the one that it makes. -/
def Cache.lookupTally (succeeds overtaken : Bool) : ℕ × ℤ :=
  (1, (if succeeds then 0 else 1) + if overtaken then 1 else 0)

theorem Meter.Measures.getOrTryCreateNoted {σ κ ν ε η M : Type} [AddCommMonoid M] [DecidableEq κ]
    {meter : Meter σ M} {part : Part σ (Cache κ ν)} {into : ℕ × ℤ →+ M}
    (measures : meter.Measures part into) (key : κ) {create : Routine σ (Except ε ν × List η)}
    (noted : List η → M) (none_noted : noted [] = 0)
    (created : meter.Charges (fun made => noted made.2) 0 create) :
    meter.Charges
      (fun call => into (Cache.lookupTally call.answer.isOk call.overtaken) + noted call.notes) 0
      (Cache.getOrTryCreateNoted part key create) := by
  refine (measures.tryGet key).bind fun found => ?_
  cases found with
  | some value =>
    refine .pure ?_
    dsimp only
    rw [none_noted, add_zero]
    rfl
  | none =>
    have missed : meter.Charges (fun _ => into (1, 1)) 0 (part.atomic Cache.recordMiss) :=
      .atomic fun state => ⟨_, measures state _ _ (Cache.tallies_missed _), (zero_add _).symm⟩
    refine missed.bind fun _ => ?_
    have framed := created.frame (into (1, 1))
    rw [zero_add] at framed
    refine framed.bind fun made => ?_
    obtain ⟨outcome, notes⟩ := made
    cases outcome with
    | error error => exact .pure (add_comm _ _)
    | ok value =>
      refine (measures.publish key value _).bind fun published => .pure ?_
      have total : (1, 1) + (0, if published.2 then 0 else -1) =
          Cache.lookupTally true published.2 := by
        cases published.2 <;> rfl
      dsimp only
      rw [add_assoc, ← into.map_add, total, add_comm]
      rfl

namespace ModuleStore

def meter : Meter ModuleStore ((ℕ × ℤ) × (ℕ × ℤ)) where
  Adds before more after :=
    before.paths.Tallies more.1 after.paths ∧ before.names.Tallies more.2 after.names
  zero _ := ⟨.refl _, .refl _⟩
  add _ _ _ _ _ first second := ⟨first.1.trans second.1, first.2.trans second.2⟩

variable [Image.Parser] {files : FileSystem}

end ModuleStore

end Managed
