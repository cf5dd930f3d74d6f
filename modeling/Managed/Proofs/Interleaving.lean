import Managed.Proofs.Sharing

namespace Managed

namespace Sharing

variable {σ τ α β : Type} {rules : Sharing σ τ} {posts : Nat → σ → Set τ → α → Prop}
  {routines : List (Routine σ α)} {state : σ} {held : Nat → Set τ}

/-- Routines that shared a state have ended with results and claims as their postconditions ask, each
    of them at some time. -/
structure Ended (rules : Sharing σ τ) (posts : Nat → σ → Set τ → α → Prop) (final : σ)
    (kept : Set τ) (results : List α) (own : Nat → Set τ) : Prop where
  claims : kept = ⋃ number, own number
  idle : ∀ number, results[number]? = none → own number = ∅
  results : ∀ number result, results[number]? = some result →
    ∃ earlier, rules.Later earlier final ∧ posts number earlier (own number) result

theorem Shares.tail {first : Routine σ α}
    (shares : rules.Shares posts (first :: routines) state held) :
    rules.Shares (fun number => posts (number + 1)) routines state
      fun number => held (number + 1) where
  apart := fun left right differ => shares.apart (left + 1) (right + 1) (by omega)
  idle := fun number absent => shares.idle (number + 1) absent
  ensures := fun number routine present => shares.ensures (number + 1) routine present

theorem Ended.cons {final last : σ} {own : Set τ} {owns : Nat → Set τ} {kept : Set τ} {result : α}
    {results : List α} (first : ∃ earlier, rules.Later earlier final ∧ posts 0 earlier own result)
    (rest : rules.Ended (fun number => posts (number + 1)) last kept results owns)
    (later : rules.Later final last) :
    rules.Ended posts last (own ∪ kept) (result :: results)
      (fun number => Nat.casesOn number own owns) where
  claims := by
    rw [rest.claims]
    exact Set.union_iUnion_nat_succ fun number : Nat => Nat.casesOn number own owns
  idle := fun number absent => by
    cases number with
    | zero => cases absent
    | succ number => exact rest.idle number absent
  results := fun number other present => by
    cases number with
    | zero =>
      obtain rfl := Option.some.inj present
      obtain ⟨earlier, before, holds⟩ := first
      exact ⟨earlier, before.trans later, holds⟩
    | succ number => exact rest.results number other present

theorem Shares.sequence (shares : rules.Shares posts routines state held) :
    rules.Ensures (fun final kept results => ∃ own, rules.Ended posts final kept results own)
      (Routine.sequence routines) state (⋃ number, held number) := by
  induction routines generalizing posts state held with
  | nil => exact Ensures.pure ⟨held, rfl, fun number _ => shares.idle number rfl, nofun⟩
  | cons first rest ih =>
    obtain ⟨start, before, ensures⟩ := shares.ensures 0 first rfl
    have others_apart : ∀ claim ∈ ⋃ number, held (number + 1), claim ∉ held 0 := by
      intro claim theirs
      obtain ⟨number, member⟩ := Set.mem_iUnion.mp theirs
      exact shares.apart (number + 1) 0 (by omega) claim member
    have head := ((ensures.since before).frame _ others_apart).later
    rw [Set.union_iUnion_nat_succ held] at head
    apply head.bind
    intro final kept result ended
    obtain ⟨later, own, rfl, apart, first_ended⟩ := ended
    -- The claims of the first routine are framed while the others take their steps.
    have tail := ((ih (shares.tail.later later)).frame own fun claim mine theirs =>
      apart claim theirs mine).later
    rw [Set.union_comm] at tail
    apply tail.bind
    intro last kept' results ended
    obtain ⟨onward, more, rfl, -, owns, rest_ended⟩ := ended
    rw [Set.union_comm]
    exact Ensures.pure ⟨_, Ended.cons first_ended rest_ended onward⟩

/-- Routines that share a state may take their steps in any order. -/
theorem Shares.interleave (shares : rules.Shares posts routines state held) (schedule : List Nat) :
    rules.Ensures (fun final kept results => ∃ own, rules.Ended posts final kept results own)
      (Routine.interleave schedule routines) state (⋃ number, held number) := by
  induction schedule generalizing routines state held with
  | nil => exact shares.sequence
  | cons number rest ih =>
    rw [Routine.interleave]
    split
    · rename_i act next present
      intro found reached
      obtain ⟨kept, allowed, -, onward⟩ := shares.step reached present
      exact ⟨_, allowed, fun within => ih (onward within)⟩
    · exact ih shares

/-- Routines that need no claims to begin may take their steps in any order. -/
theorem Ensures.interleave (ensures : ∀ number routine, routines[number]? = some routine →
      rules.Ensures (posts number) routine state ∅) (schedule : List Nat) :
    rules.Ensures (fun final kept results => ∃ own, rules.Ended posts final kept results own)
      (Routine.interleave schedule routines) state ∅ := by
  have shares := (Shares.start ensures).interleave schedule
  rwa [Set.iUnion_empty] at shares

end Sharing

end Managed
