import Managed.Proofs.CandidateLists
import Managed.Proofs.NameFolding
import Managed.Resolver

namespace Managed

def Module.withoutId (loaded : Module) : Module := { loaded with id := ⟨0⟩ }

namespace ModuleStore

variable [Image.Parser]

def moduleAt (files : FileSystem) (path : Path) : Except Error Module :=
  match canonicalize files path with
  | .error error => .error error
  | .ok canonical =>
    match readContents files canonical with
    | .error error => .error error
    | .ok contents => .ok { id := ⟨0⟩, path := canonical, contents }

def adjoin (known : List Module) (found : Module) : List Module :=
  if known.any (·.path = found.path) then known else known ++ [found]

def gather (files : FileSystem) (name : String) : (paths : List Path) → (known : List Module) →
    Except Error (List Module)
  | [], known => .ok known
  | path :: rest, known =>
    match moduleAt files path with
    | .error error => .error error
    | .ok found =>
      match found.verifyName name with
      | .error error => .error error
      | .ok () => gather files name rest (adjoin known found)

def candidatesAt (files : FileSystem) (listed : String → List Path) (name : String) :
    Except Error (Option (List Module)) :=
  if (listed name).isEmpty then .ok none else (gather files name (listed name) []).map some

theorem moduleAt_canonical {files : FileSystem} (idempotent : files.IsIdempotent)
    {path canonical : Path} (at_path : files.canonicalize path = .ok canonical) :
    moduleAt files path = moduleAt files canonical := by
  rw [moduleAt, moduleAt, canonicalize_eq_ok.mpr at_path,
    canonicalize_eq_ok.mpr (idempotent path canonical at_path)]

theorem gather_cons_eq_ok {files : FileSystem} {name : String} {path : Path} {rest : List Path}
    {known list : List Module} :
    gather files name (path :: rest) known = .ok list ↔
      ∃ found, moduleAt files path = .ok found ∧ found.verifyName name = .ok () ∧
        gather files name rest (adjoin known found) = .ok list := by
  rw [gather]
  cases moduleAt files path with
  | error error => simp
  | ok found =>
    cases verified : found.verifyName name with
    | error error => simp [verified]
    | ok => simp [verified]

/-- Only the message of an error tells how the name was spelled. -/
theorem gather_congr {files : FileSystem} {left right : String}
    (same : (SimpleName.ofText left).key = (SimpleName.ofText right).key) {paths : List Path}
    {known list : List Module} (gathered : gather files left paths known = .ok list) :
    gather files right paths known = .ok list := by
  induction paths generalizing known with
  | nil => exact gathered
  | cons path rest ih =>
    obtain ⟨found, read, verified, more⟩ := gather_cons_eq_ok.mp gathered
    exact gather_cons_eq_ok.mpr ⟨found, read, (Module.verifyName_congr same).mp verified, ih more⟩

theorem candidatesAt_congr (tables : PathTables) {files : FileSystem} {left right : String}
    (same : (SimpleName.ofText left).key = (SimpleName.ofText right).key) {found : List Module}
    (present : candidatesAt files tables.paths left = .ok (some found)) :
    candidatesAt files tables.paths right = .ok (some found) := by
  rw [candidatesAt] at present ⊢
  rw [← tables.paths_congr same]
  split at present
  · cases present
  · rename_i listed
    rw [if_neg listed]
    cases gathered : gather files left (tables.paths left) [] with
    | error error =>
      rw [gathered] at present
      cases present
    | ok list =>
      rw [gathered] at present
      rw [gather_congr same gathered]
      exact present

end ModuleStore

namespace Resolver

variable (resolver : Resolver) (request : Request) (strict : Bool)

theorem pickAmong_withoutId (found : List Module) :
    (resolver.pickAmong request strict found).map (Option.map Module.withoutId) =
      resolver.pickAmong request strict (found.map Module.withoutId) := by
  have allowed : (found.map Module.withoutId).filter
        (fun candidate => request.Allows candidate.identity) =
      (found.filter fun candidate => request.Allows candidate.identity).map Module.withoutId :=
    List.filter_map
  simp only [pickAmong, allowed, List.getLast?_map, List.length_map, List.map_map]
  cases (found.filter fun candidate => request.Allows candidate.identity).getLast? with
  | none =>
    rw [missing]
    cases strict <;> rfl
  | some last =>
    dsimp only [Option.map]
    split <;> rfl

theorem pick_withoutId (found : List Module) :
    (resolver.pick request strict found).map (Option.map Module.withoutId) =
      resolver.pick request strict (found.map Module.withoutId) := by
  match found with
  | [] => exact resolver.pickAmong_withoutId request strict []
  | [only] =>
    have same : only.withoutId.identity = only.identity := rfl
    simp only [List.map, pick, same]
    split <;> rfl
  | first :: second :: rest =>
    exact resolver.pickAmong_withoutId request strict (first :: second :: rest)

/-- The choice among candidates does not depend on their ids. -/
theorem answer_withoutId (outcome : Except Error (Option (List Module))) :
    (forgive strict (resolver.answer request strict outcome)).map (Option.map Module.withoutId) =
      forgive strict (resolver.answer request strict
        (outcome.map (Option.map (List.map Module.withoutId)))) := by
  have forgive_map : ∀ answer : Except Error (Option Module),
      (forgive strict answer).map (Option.map Module.withoutId) =
        forgive strict (answer.map (Option.map Module.withoutId)) := by
    intro answer
    cases answer with
    | error error => cases strict <;> rfl
    | ok found => rfl
  rw [forgive_map]
  match outcome with
  | .error error => rfl
  | .ok none =>
    rw [answer, missing]
    cases strict <;> rfl
  | .ok (some found) => exact congrArg (forgive strict) (resolver.pick_withoutId request strict found)

end Resolver

end Managed
