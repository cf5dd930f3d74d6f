import Managed.Proofs.SharedInvariants
import Managed.Proofs.UncachedCatalog

namespace Managed

variable [Image.Parser]

/-- The file at the path of a module still has the contents of the module. -/
def Module.IsRead (disk : FileSystem) (loaded : Module) : Prop :=
  ModuleStore.readContents disk loaded.path = .ok loaded.contents

namespace ModuleStore

/-- What a store keeps is what the files have, so that nobody can tell whether it kept it. A list of
    candidates is what any spelling of its name is due. -/
structure Truthful (disk : FileSystem) (tables : PathTables) (store : ModuleStore) : Prop where
  paths : ∀ entry ∈ store.paths.entries, entry.2.IsRead disk
  ids : ∀ entry ∈ store.ids.entries, entry.2.IsRead disk
  names : ∀ entry ∈ store.names.entries, ∀ name, (SimpleName.ofText name).key = entry.1 →
    candidatesAt disk tables.paths name = .ok (some (entry.2.map Module.withoutId))

variable {disk : FileSystem} {tables : PathTables} {store : ModuleStore}

theorem truthful_start (nextId : UInt32) : Truthful disk tables { nextId } where
  paths := nofun
  ids := nofun
  names := nofun

theorem Truthful.draw (truthful : Truthful disk tables store) :
    Truthful disk tables { store with nextId := store.nextId + 1 } where
  paths := truthful.paths
  ids := truthful.ids
  names := truthful.names

theorem governs_paths :
    Sharing.Governs (Truthful disk tables) pathsPart fun entry => entry.2.IsRead disk where
  get_set := fun _ _ => rfl
  known := fun _ truthful => truthful.paths
  set := fun _ _ truthful read => { truthful with paths := read }

theorem governs_ids :
    Sharing.Governs (Truthful disk tables) idsPart fun entry => entry.2.IsRead disk where
  get_set := fun _ _ => rfl
  known := fun _ truthful => truthful.ids
  set := fun _ _ truthful read => { truthful with ids := read }

theorem governs_names :
    Sharing.Governs (Truthful disk tables) namesPart fun entry => ∀ name,
      (SimpleName.ofText name).key = entry.1 →
        candidatesAt disk tables.paths name = .ok (some (entry.2.map Module.withoutId)) where
  get_set := fun _ _ => rfl
  known := fun _ truthful => truthful.names
  set := fun _ _ truthful due => { truthful with names := due }

theorem Truthful.publish_name (truthful : Truthful disk tables store) {name : String}
    {found : List Module}
    (due : candidatesAt disk tables.paths name = .ok (some (found.map Module.withoutId))) :
    Truthful disk tables
      (namesPart.set store (store.names.published (SimpleName.ofText name).key found)) :=
  governs_names.published truthful fun _ same => candidatesAt_congr tables same.symm due

inductive PathAnswer (disk : FileSystem) (path : Path) : Except Error Module → Prop where
  | found (loaded : Module) (read : loaded.IsRead disk) : PathAnswer disk path (.ok loaded)
  | failed (error : Error) (failed : moduleAt disk path = .error error) :
    PathAnswer disk path (.error error)

theorem PathAnswer.withoutId {path : Path} {outcome : Except Error Module}
    (answered : PathAnswer disk path outcome)
    (at_path : ∀ loaded, outcome = .ok loaded → disk.canonicalize path = .ok loaded.path) :
    outcome.map Module.withoutId = moduleAt disk path := by
  cases answered with
  | found loaded read =>
    rw [moduleAt, canonicalize_eq_ok.mpr (at_path loaded rfl)]
    dsimp only
    rw [read]
    rfl
  | failed error failed => exact failed.symm

def truth (disk : FileSystem) (tables : PathTables) : Sharing ModuleStore Empty :=
  Sharing.always (Truthful disk tables)

variable {state : ModuleStore} {held : Set Empty}

theorem truth_ensures_draw :
    (truth disk tables).Ensures (fun _ _ _ => True) drawId state held :=
  Sharing.Ensures.atomic fun _ reached =>
    ⟨held, Sharing.always_allows held (Truthful.draw reached.lawful), fun _ => True.intro⟩

theorem truth_ensures_load (path : Path) :
    (truth disk tables).Ensures (fun _ _ outcome => PathAnswer disk path outcome)
      (load disk path) state held := by
  unfold load
  cases canonical_eq : canonicalize disk path with
  | error error =>
    refine Sharing.Ensures.pure (.failed error ?_)
    rw [moduleAt, canonical_eq]
  | ok canonical =>
    cases read : readContents disk canonical with
    | error error =>
      dsimp only
      rw [read]
      refine Sharing.Ensures.pure (.failed error ?_)
      rw [moduleAt, canonical_eq]
      dsimp only
      rw [read]
    | ok contents =>
      dsimp only
      rw [read]
      apply truth_ensures_draw.bind
      exact fun _ _ _ _ => Sharing.Ensures.pure (.found _ read)

theorem truth_ensures_fromPath (idempotent : disk.IsIdempotent) (path : Path) :
    (truth disk tables).Ensures (fun _ _ outcome => PathAnswer disk path outcome)
      (fromPath disk path) state held := by
  unfold fromPath
  cases canonical_eq : canonicalize disk path with
  | error error =>
    refine Sharing.Ensures.pure (.failed error ?_)
    rw [moduleAt, canonical_eq]
  | ok canonical =>
    have same_file := moduleAt_canonical idempotent (canonicalize_eq_ok.mp canonical_eq)
    refine (governs_paths.counts.getOrTryCreate canonical
      (fun _ _ outcome => PathAnswer disk canonical outcome)
      (fun _ _ outcome => PathAnswer disk path outcome) ?_
      (fun _ _ _ _ _ => truth_ensures_load canonical) ?_ ?_).bind ?_
    · exact fun found value reached looked =>
        .found value (Truthful.paths reached.lawful _ (Cache.mem_of_find? looked))
    · intro found kept error failed
      cases failed with
      | failed error failed => exact .failed error (same_file.trans failed)
    · intro found kept value made
      cases made with
      | found value read =>
        exact (governs_paths.ensures_publish read).weaken fun _ _ _ visible => .found _ visible
    · intro found kept outcome answered
      cases answered with
      | failed error failed => exact Sharing.Ensures.pure (.failed error failed)
      | found loaded read =>
        apply (governs_ids.ensures_publish read).bind
        exact fun _ _ _ visible => Sharing.Ensures.pure (.found _ visible)

end ModuleStore

end Managed
