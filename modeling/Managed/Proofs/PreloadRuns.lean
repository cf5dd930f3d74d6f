import Mathlib.Data.List.Nodup
import Managed.Proofs.LookupTrails

namespace Managed

namespace ModuleStore

variable {files : FileSystem} {listed : String → List Path} {store start middle final : ModuleStore}
  {name : String} {names : List String} {way : String → Trail} {kept : String → Bool}

def keeps (store : ModuleStore) (name : String) : Bool :=
  (store.names.find? (SimpleName.ofText name).key).isSome

variable [Image.Parser]

/-- What preloading makes of a store: every name whose list is not kept goes its way, whatever the
    lookups before it have loaded. -/
structure Preloaded (files : FileSystem) (listed : String → List Path) (way : String → Trail)
    (kept : String → Bool) (start : ModuleStore) (names : List String)
    (outcome : List (String × Error) × ModuleStore) : Prop where
  progress : ∃ added, Progress files start outcome.2 (names.flatMap fun name => (way name).asked)
    (names.flatMap fun name => (way name).reached.map (·.path)) added
  failures : outcome.1 = names.filterMap fun name => (way name).stop.map (name, ·)
  lists : ∃ made, outcome.2.names.entries = start.names.entries ++ made ∧
    made.map Prod.fst = (names.filter fun name => !kept name && !(listed name).isEmpty &&
      (way name).stop.isNone).map (fun name => (SimpleName.ofText name).key) ∧
    ∀ entry ∈ made, outcome.2.Knows entry.2 ∧ ∃ name ∈ names,
      (SimpleName.ofText name).key = entry.1 ∧
        entry.2.map Module.withoutId = (way name).reached.foldl adjoin []
  hits : outcome.2.names.hits = start.names.hits + .ofNat (names.countP kept)
  misses : outcome.2.names.misses =
    start.names.misses + .ofNat (names.countP fun name => !kept name && !(listed name).isEmpty)

theorem Preloaded.nil (lawful : Lawful .ok store) :
    Preloaded files listed way kept store [] ([], store) where
  progress := ⟨[], .refl lawful⟩
  failures := rfl
  lists := ⟨[], (List.append_nil _).symm, rfl, nofun⟩
  hits := (UInt64.add_zero _).symm
  misses := (UInt64.add_zero _).symm

theorem Preloaded.trans {names' : List String} {failed failed' : List (String × Error)}
    (first : Preloaded files listed way kept start names (failed, middle))
    (second : Preloaded files listed way kept middle names' (failed', final)) :
    Preloaded files listed way kept start (names ++ names') (failed ++ failed', final) := by
  obtain ⟨added, progress⟩ := first.progress
  obtain ⟨added', progress'⟩ := second.progress
  obtain ⟨made, entries, keys, lists⟩ := first.lists
  obtain ⟨made', entries', keys', lists'⟩ := second.lists
  constructor
  case progress =>
    simp only [List.flatMap_append]
    exact ⟨_, progress.trans progress'⟩
  case failures =>
    have failed_eq : failed = _ := first.failures
    have failed_eq' : failed' = _ := second.failures
    rw [List.filterMap_append, failed_eq, failed_eq']
  case lists =>
    refine ⟨made ++ made', ?_, ?_, ?_⟩
    · rw [entries', entries, List.append_assoc]
    · rw [List.map_append, keys, keys', List.filter_append, List.map_append]
    · intro entry member
      rcases List.mem_append.mp member with early | late
      · obtain ⟨knows, name, listed, due⟩ := lists entry early
        exact ⟨knows.grown progress'.idsKept, name, List.mem_append_left _ listed, due⟩
      · obtain ⟨knows, name, listed, due⟩ := lists' entry late
        exact ⟨knows, name, List.mem_append_right _ listed, due⟩
  case hits =>
    have hits : middle.names.hits = _ := first.hits
    have hits' : final.names.hits = _ := second.hits
    rw [hits', hits, List.countP_append, UInt64.ofNat_add, UInt64.add_assoc]
  case misses =>
    have misses : middle.names.misses = _ := first.misses
    have misses' : final.names.misses = _ := second.misses
    rw [misses', misses, List.countP_append, UInt64.ofNat_add, UInt64.add_assoc]

def Agrees (files : FileSystem) (listed : String → List Path) (way : String → Trail)
    (kept : String → Bool) (store : ModuleStore) (name : String) : Prop :=
  way name = lookupTrail files listed store name ∧
    kept name = store.keeps name

end ModuleStore

end Managed
