import Managed.Catalog.Store
import Managed.Proofs.Interleaving

namespace Managed

inductive Error.IsFailure : Error → Prop where
  | load (path : Path) (source : Fault) : IsFailure (.load path source)
  | nameMismatch (path : Path) (expected actual : String) :
    IsFailure (.nameMismatch path expected actual)

theorem Module.isFailure_of_verifyName {loaded : Module} {name : String} {error : Error}
    (failed : loaded.verifyName name = .error error) : error.IsFailure := by
  unfold verifyName at failed
  split at failed
  · cases failed
  · cases failed
    exact .nameMismatch _ _ _

namespace ModuleStore

variable {files : FileSystem} {path : Path} {error : Error}

theorem canonicalize_eq_ok {canonical : Path} :
    canonicalize files path = .ok canonical ↔ files.canonicalize path = .ok canonical := by
  unfold canonicalize
  cases files.canonicalize path <;> simp

theorem isFailure_of_canonicalize (failed : canonicalize files path = .error error) :
    error.IsFailure := by
  unfold canonicalize at failed
  split at failed
  · cases failed
  · cases failed
    exact .load _ _

variable [Image.Parser]

theorem isFailure_of_readContents (failed : readContents files path = .error error) :
    error.IsFailure := by
  unfold readContents at failed
  split at failed
  · cases failed
    exact .load _ _
  · split at failed
    · cases failed
      exact .load _ _
    · cases failed

end ModuleStore

namespace Sharing.Ensures

open ModuleStore

variable {τ : Type} {rules : Sharing ModuleStore τ} {files : FileSystem} {state : ModuleStore}
  {held : Set τ}

variable [Image.Parser]

theorem load {path : Path} {post : ModuleStore → Set τ → Except Error Module → Prop}
    (failed : ∀ error : Error, error.IsFailure → post state held (.error error))
    (drawn : ∀ canonical contents, files.canonicalize path = .ok canonical →
      rules.Ensures (fun final kept id => post final kept (.ok { id, path := canonical, contents }))
        drawId state held) :
    rules.Ensures post (ModuleStore.load files path) state held := by
  unfold ModuleStore.load
  cases canonical_eq : canonicalize files path with
  | error error => exact Ensures.pure (failed error (isFailure_of_canonicalize canonical_eq))
  | ok canonical =>
    dsimp only
    cases contents_eq : readContents files canonical with
    | error error => exact Ensures.pure (failed error (isFailure_of_readContents contents_eq))
    | ok contents =>
      apply (drawn canonical contents (canonicalize_eq_ok.mp canonical_eq)).bind
      exact fun _ _ _ holds => Ensures.pure holds

theorem openModule {path : Path} {fact : ModuleStore → Set τ → Prop} (expected : Option String)
    (loads : rules.Ensures (fun final kept _ => fact final kept) (ModuleStore.load files path) state
      held) :
    rules.Ensures (fun final kept _ => fact final kept) (ModuleStore.openModule files path expected)
      state held := by
  unfold ModuleStore.openModule
  apply loads.bind
  intro final kept outcome holds
  cases outcome with
  | error error => exact Ensures.pure holds
  | ok loaded =>
    cases expected with
    | none => exact Ensures.pure holds
    | some name => exact Ensures.pure holds

theorem preload {listed : String → List Path}
    {post : ModuleStore → Set τ → Except Error (Option (List Module)) → Prop}
    (finds : ∀ name, rules.Ensures post (candidates files listed name) state ∅)
    (names : List String) (schedule : List Nat) :
    rules.Ensures
      (fun final kept _ => ∃ results own, rules.Ended (fun _ => post) final kept results own)
      (ModuleStore.preload files listed names schedule) state ∅ := by
  have each : ∀ (number : Nat) routine,
      (names.map (candidates files listed))[number]? = some routine →
      rules.Ensures post routine state ∅ := by
    intro number routine present
    rw [List.getElem?_map, Option.map_eq_some_iff] at present
    obtain ⟨name, -, rfl⟩ := present
    exact finds name
  apply (Ensures.interleave each schedule).bind
  exact fun _ _ results ended => Ensures.pure ⟨results, ended⟩

end Sharing.Ensures

end Managed
