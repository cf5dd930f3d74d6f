import Managed.Proofs.CatalogSharing
import Managed.Proofs.ContextHistories

namespace Managed

variable {α β : Type} {store : ModuleStore}

namespace Routine

theorem loads_bind (routine : Routine ModuleStore α) (continuation : α → Routine ModuleStore β) :
    (routine >>= continuation).loads store =
      routine.loads store + (continuation (routine.run store).1).loads (routine.run store).2 := by
  change (routine.bind continuation).loads store = _
  induction routine generalizing store with
  | done result => exact (Nat.zero_add _).symm
  | step act next ih =>
    have rest : ((next store).bind continuation).loads (act store) = _ := ih store
    rw [Routine.bind, loads, loads, rest, ← Nat.add_assoc]
    rfl

theorem loads_map (routine : Routine ModuleStore α) (f : α → β) :
    (routine.map f).loads store = routine.loads store :=
  loads_bind routine fun result => .done (f result)

end Routine

namespace Sharing

structure DrawsIds {τ : Type} (rules : Sharing ModuleStore τ) : Prop where
  started : ∀ store, rules.Lawful store → store.nextId ≠ 0
  nextId : ∀ before after, rules.Moves before after →
    after.nextId = before.nextId ∨ after.nextId = before.nextId + 1
  within : ∀ store : ModuleStore, store.nextId ≠ 0 → rules.Within store

/-- A routine that begins with enough ids left takes all its steps by the rules. With nobody else
    around, what each of its own steps keeps of its claims holds in the end. -/
theorem DrawsIds.run_keeping {τ : Type} {rules : Sharing ModuleStore τ} (draws : rules.DrawsIds)
    {post : ModuleStore → Set τ → α → Prop} {fact : ModuleStore → Set τ → Prop}
    {routine : Routine ModuleStore α} {held : Set τ}
    (keeps : ∀ before held after kept, rules.Allows before held after kept → fact before held →
      fact after kept)
    (ensures : rules.Ensures post routine store held) (lawful : rules.Lawful store)
    (holds : ∀ claim ∈ held, rules.Holds claim store) (begins : fact store held)
    (few : store.nextId.toNat + routine.loads store < UInt32.size) :
    rules.Lawful (routine.run store).2 ∧
      (routine.run store).2.nextId.toNat = store.nextId.toNat + routine.loads store ∧
      ∃ kept, fact (routine.run store).2 kept ∧
        post (routine.run store).2 kept (routine.run store).1 := by
  induction routine generalizing store held with
  | done result => exact ⟨lawful, rfl, held, begins, ensures⟩
  | step act next ih =>
    obtain ⟨kept, allowed, rest⟩ := ensures store ⟨Later.refl _, lawful, holds⟩
    have spent : (act store).nextId ≠ 0 ∧
        (act store).nextId.toNat + (next store).loads (act store) =
          store.nextId.toNat + (Routine.step act next).loads store := by
      rw [Routine.loads] at few ⊢
      by_cases same : (act store).nextId = store.nextId
      · rw [if_pos same, same, Nat.zero_add]
        exact ⟨draws.started store lawful, rfl⟩
      · rw [if_neg same] at few ⊢
        have drawn := (draws.nextId _ _ allowed.moves).resolve_left same
        have value : (store.nextId + 1).toNat = store.nextId.toNat + 1 :=
          ModuleStore.toNat_succ (by omega)
        rw [drawn, value]
        exact ⟨ModuleStore.ne_zero_of_toNat value, by omega⟩
    obtain ⟨started, total⟩ := spent
    have within := draws.within _ started
    have final := ih store (rest within) (allowed.lawful within) (allowed.holds within)
      (keeps _ _ _ _ allowed begins) (total ▸ few)
    rw [total] at final
    exact final

theorem DrawsIds.run {τ : Type} {rules : Sharing ModuleStore τ} (draws : rules.DrawsIds)
    {post : ModuleStore → Set τ → α → Prop} {routine : Routine ModuleStore α} {held : Set τ}
    (ensures : rules.Ensures post routine store held) (lawful : rules.Lawful store)
    (holds : ∀ claim ∈ held, rules.Holds claim store)
    (few : store.nextId.toNat + routine.loads store < UInt32.size) :
    rules.Lawful (routine.run store).2 ∧
      (routine.run store).2.nextId.toNat = store.nextId.toNat + routine.loads store ∧
      ∃ kept, post (routine.run store).2 kept (routine.run store).1 := by
  obtain ⟨lawful_final, nextId, kept, -, holds_final⟩ := draws.run_keeping
    (fun _ _ _ _ _ (unasked : True) => unasked) ensures lawful holds True.intro few
  exact ⟨lawful_final, nextId, kept, holds_final⟩

end Sharing

namespace ModuleStore

theorem rules_draw {placed : Path → Module → Prop} : (rulesBy placed).DrawsIds where
  started := fun _ lawful => lawful.started
  nextId := fun _ _ moves => moves.nextId
  within := fun _ started => started

end ModuleStore

end Managed
