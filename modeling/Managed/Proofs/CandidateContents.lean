import Managed.Proofs.PermanentLists
import Managed.Proofs.RegisteredNames

namespace Managed

namespace ModuleStore

variable [Image.Parser] {files : FileSystem} {store before after : ModuleStore} {name : String}
  {path canonical : Path} {paths : List Path} {contents : Contents} {error : Error}

inductive Leads (files : FileSystem) (store : ModuleStore) (path : Path) :
    (canonical : Path) → (contents : Contents) → Prop where
  | loaded {known : Module} (placed : files.canonicalize path = .ok known.path)
      (visible : store.paths.find? known.path = some known) :
    Leads files store path known.path known.contents
  | read {canonical : Path} {data : Bytes} {contents : Contents}
      (placed : files.canonicalize path = .ok canonical)
      (unknown : store.paths.find? canonical = none) (read : files.read canonical = .ok data)
      (valid : Contents.ofBytes data = .ok contents) :
    Leads files store path canonical contents

def Suits (files : FileSystem) (store : ModuleStore) (name : String) (path : Path) : Prop :=
  ∃ canonical contents, Leads files store path canonical contents ∧
    (SimpleName.ofText contents.identity.name).key = (SimpleName.ofText name).key

inductive Stops (files : FileSystem) (store : ModuleStore) (name : String) (path : Path) :
    Error → Prop where
  | unplaced {error : FileError} (unplaced : files.canonicalize path = .error error) :
    Stops files store name path (.load path (.file error))
  | unread {canonical : Path} {error : FileError}
      (placed : files.canonicalize path = .ok canonical)
      (unknown : store.paths.find? canonical = none)
      (unread : files.read canonical = .error error) :
    Stops files store name path (.load canonical (.file error))
  | invalid {canonical : Path} {data : Bytes} {fault : Fault}
      (placed : files.canonicalize path = .ok canonical)
      (unknown : store.paths.find? canonical = none) (read : files.read canonical = .ok data)
      (invalid : Contents.ofBytes data = .error fault) :
    Stops files store name path (.load canonical fault)
  | misnamed {canonical : Path} {contents : Contents}
      (leads : Leads files store path canonical contents)
      (other : (SimpleName.ofText contents.identity.name).key ≠ (SimpleName.ofText name).key) :
    Stops files store name path (.nameMismatch canonical name contents.identity.name)

theorem readContents_eq_ok : readContents files canonical = .ok contents ↔
    ∃ data, files.read canonical = .ok data ∧ Contents.ofBytes data = .ok contents := by
  rw [readContents]
  cases files.read canonical with
  | error failure => simp
  | ok data => cases valid : Contents.ofBytes data <;> simp [valid]

theorem seenAt_loaded {known : Module} (placed : files.canonicalize path = .ok known.path)
    (visible : store.paths.find? known.path = some known) :
    seenAt files store path = .ok known.withoutId := by
  rw [seenAt, canonicalize_eq_ok.mpr placed]
  dsimp only
  rw [visible]

theorem seenAt_unknown (placed : files.canonicalize path = .ok canonical)
    (unknown : store.paths.find? canonical = none) :
    seenAt files store path =
      (readContents files canonical).map fun contents => ⟨⟨0⟩, canonical, contents⟩ := by
  rw [seenAt, canonicalize_eq_ok.mpr placed]
  dsimp only
  rw [unknown, moduleAt, canonicalize_eq_ok.mpr placed]
  dsimp only
  cases readContents files canonical <;> rfl

theorem Leads.seenAt (leads : Leads files store path canonical contents) :
    ModuleStore.seenAt files store path = .ok ⟨⟨0⟩, canonical, contents⟩ := by
  cases leads with
  | loaded placed visible => exact seenAt_loaded placed visible
  | read placed unknown read valid =>
    rw [seenAt_unknown placed unknown, readContents_eq_ok.mpr ⟨_, read, valid⟩]
    rfl

/-- Whether a path suits a name is always decided, since a module is kept under its own path. -/
theorem suits_or_stops (lawful : Lawful .ok store) (name : String) (path : Path) :
    Suits files store name path ∨ ∃ error, Stops files store name path error := by
  have decided : ∀ {canonical contents}, Leads files store path canonical contents →
      Suits files store name path ∨ ∃ error, Stops files store name path error := by
    intro canonical contents leads
    by_cases same : (SimpleName.ofText contents.identity.name).key = (SimpleName.ofText name).key
    · exact .inl ⟨canonical, contents, leads, same⟩
    · exact .inr ⟨_, .misnamed leads same⟩
  cases placed : files.canonicalize path with
  | error failure => exact .inr ⟨_, .unplaced placed⟩
  | ok canonical =>
    cases found : store.paths.find? canonical with
    | some known =>
      obtain rfl : known.path = canonical := lawful.at_path _ (Cache.mem_of_find? found)
      exact decided (.loaded placed found)
    | none =>
      cases read : files.read canonical with
      | error failure => exact .inr ⟨_, .unread placed found read⟩
      | ok data =>
        cases valid : Contents.ofBytes data with
        | error fault => exact .inr ⟨_, .invalid placed found read valid⟩
        | ok contents => exact decided (.read placed found read valid)

theorem Leads.placed (leads : Leads files store path canonical contents) :
    files.canonicalize path = .ok canonical := by
  cases leads <;> assumption

theorem Suits.trail_cons (suits : Suits files store name path) (rest : List Path) :
    ∃ found : Module, files.canonicalize path = .ok found.path ∧
      trail files store name (path :: rest) =
        let onward := trail files store name rest
        ⟨askedAt files path ++ onward.asked, found :: onward.reached, onward.stop⟩ := by
  obtain ⟨canonical, contents, leads, same⟩ := suits
  have verified : Module.verifyName ⟨⟨0⟩, canonical, contents⟩ name = .ok () :=
    Module.verifyName_eq_ok.mpr same
  refine ⟨⟨⟨0⟩, canonical, contents⟩, leads.placed, ?_⟩
  rw [trail, leads.seenAt]
  dsimp only
  rw [verified]

theorem Suits.stop_cons (suits : Suits files store name path) (rest : List Path) :
    (trail files store name (path :: rest)).stop = (trail files store name rest).stop := by
  obtain ⟨found, -, trail_eq⟩ := suits.trail_cons rest
  rw [trail_eq]

theorem Stops.stop_cons (stops : Stops files store name path error) (rest : List Path) :
    (trail files store name (path :: rest)).stop = some error := by
  have unseen (seen : seenAt files store path = .error error) :
      (trail files store name (path :: rest)).stop = some error := by
    rw [trail, seen]
  cases stops with
  | unplaced unplaced =>
    apply unseen
    rw [seenAt, canonicalize, unplaced]
  | unread placed unknown unread =>
    apply unseen
    rw [seenAt_unknown placed unknown, readContents, unread]
    rfl
  | invalid placed unknown read invalid =>
    apply unseen
    rw [seenAt_unknown placed unknown, readContents, read]
    dsimp only
    rw [invalid]
    rfl
  | @misnamed canonical contents leads other =>
    have verified : Module.verifyName ⟨⟨0⟩, canonical, contents⟩ name = .error _ :=
      Module.verifyName_eq_error.mpr ⟨other, rfl⟩
    rw [trail, leads.seenAt]
    dsimp only
    rw [verified]
    rfl

def StopsFirst (files : FileSystem) (store : ModuleStore) (name : String) (paths : List Path)
    (error : Error) : Prop :=
  ∃ passed stopped rest, paths = passed ++ stopped :: rest ∧
    (∀ path ∈ passed, Suits files store name path) ∧ Stops files store name stopped error

theorem stop_eq_none (lawful : Lawful .ok store) : (trail files store name paths).stop = none ↔
    ∀ path ∈ paths, Suits files store name path := by
  induction paths with
  | nil => exact ⟨fun _ => nofun, fun _ => rfl⟩
  | cons path rest ih =>
    rw [List.forall_mem_cons, ← ih]
    rcases @suits_or_stops _ files store lawful name path with suits | ⟨error, stops⟩
    · rw [suits.stop_cons]
      exact ⟨fun onward => ⟨suits, onward⟩, And.right⟩
    · rw [stops.stop_cons]
      refine ⟨nofun, fun ⟨suits, onward⟩ => ?_⟩
      rw [← suits.stop_cons, stops.stop_cons] at onward
      exact onward

theorem stop_eq_some (lawful : Lawful .ok store) :
    (trail files store name paths).stop = some error ↔
      StopsFirst files store name paths error := by
  constructor
  · intro stop
    induction paths with
    | nil => cases stop
    | cons path rest ih =>
      rcases @suits_or_stops _ files store lawful name path with suits | ⟨other, stops⟩
      · rw [suits.stop_cons] at stop
        obtain ⟨passed, stopped, behind, rfl, all_suit, stops⟩ := ih stop
        exact ⟨path :: passed, stopped, behind, rfl,
          List.forall_mem_cons.mpr ⟨suits, all_suit⟩, stops⟩
      · rw [stops.stop_cons] at stop
        obtain rfl := Option.some.inj stop
        exact ⟨[], path, rest, rfl, nofun, stops⟩
  · rintro ⟨passed, stopped, rest, rfl, all_suit, stops⟩
    induction passed with
    | nil => exact stops.stop_cons rest
    | cons path passed ih =>
      obtain ⟨suits, all_suit⟩ := List.forall_mem_cons.mp all_suit
      rw [List.cons_append, suits.stop_cons]
      exact ih all_suit

theorem reached_places (all_suit : ∀ path ∈ paths, Suits files store name path) :
    paths.map files.canonicalize =
      ((trail files store name paths).reached.map (·.path)).map .ok := by
  induction paths with
  | nil => rfl
  | cons path rest ih =>
    obtain ⟨suits, all_suit⟩ := List.forall_mem_cons.mp all_suit
    obtain ⟨found, placed, trail_eq⟩ := suits.trail_cons rest
    rw [trail_eq, List.map_cons, List.map_cons, List.map_cons, placed, ih all_suit]

/-- A list has the modules at the given paths, in order, each canonical path where it occurs first.
    What was loaded before is that very module. -/
structure Gathers (files : FileSystem) (before after : ModuleStore) (paths : List Path)
    (list : List Module) : Prop where
  nonempty : list ≠ []
  places : ∃ canonicals : List Path, paths.map files.canonicalize = canonicals.map .ok ∧
    list.map (·.path) = canonicals.eraseDups
  leads : ∀ loaded ∈ list, Leads files before loaded.path loaded.path loaded.contents
  kept : ∀ loaded ∈ list, ∀ known, before.paths.find? loaded.path = some known → loaded = known
  visible : ∀ loaded ∈ list, after.paths.find? loaded.path = some loaded

theorem Gathers.unique {list list' : List Module} (one : Gathers files before after paths list)
    (other : Gathers files before after paths list') : list = list' := by
  have looked : ∀ {list}, Gathers files before after paths list →
      list.map some = (list.map (·.path)).map after.paths.find? := by
    intro list gathers
    rw [List.map_map]
    exact List.map_congr_left fun loaded member => (gathers.visible loaded member).symm
  obtain ⟨canonicals, placed, same⟩ := one.places
  obtain ⟨canonicals', placed', same'⟩ := other.places
  obtain rfl : canonicals = canonicals' :=
    (List.map_inj_right fun _ _ => Except.ok.inj).mp (placed.symm.trans placed')
  refine (List.map_inj_right fun _ _ => Option.some.inj).mp ?_
  rw [looked one, looked other, same, same']

variable {listed : String → List Path} {list added : List Module} {asked reached : List Path}

theorem Progress.kept (progress : Progress files before after asked reached added)
    {loaded known : Module} (visible : after.paths.find? path = some loaded)
    (found : before.paths.find? path = some known) : loaded = known := by
  have still := Cache.find?_grows progress.grown found
  rw [visible] at still
  exact Option.some.inj still

theorem Progress.leads (progress : Progress files before after asked reached added)
    {loaded : Module} (settled : files.canonicalize loaded.path = .ok loaded.path)
    (visible : after.paths.find? loaded.path = some loaded) :
    Leads files before loaded.path loaded.path loaded.contents := by
  cases found : before.paths.find? loaded.path with
  | some known =>
    obtain rfl := progress.kept visible found
    exact .loaded settled found
  | none =>
    obtain ⟨data, read, valid⟩ :=
      readContents_eq_ok.mp (progress.read loaded (progress.added_of_find? found visible).1)
    exact .read settled found read valid

theorem Progress.gathers (progress : Progress files before after asked reached added)
    (idempotent : files.IsIdempotent) (something : paths ≠ [])
    (all_suit : ∀ path ∈ paths, Suits files before name path)
    (answer : list.map Module.withoutId =
      (trail files before name paths).reached.foldl adjoin [])
    (knows : after.Knows list) : Gathers files before after paths list := by
  have placed := reached_places all_suit
  have places : list.map (·.path) =
      ((trail files before name paths).reached.map (·.path)).eraseDups := by
    have same_paths : (list.map Module.withoutId).map (·.path) = list.map (·.path) := by
      rw [List.map_map]
      rfl
    rw [← same_paths, answer, path_foldl_adjoin]
  have mem_places : ∀ path, path ∈ list.map (·.path) ↔ .ok path ∈ paths.map files.canonicalize := by
    intro path
    simp [places, placed]
  have visible : ∀ loaded ∈ list, after.paths.find? loaded.path = some loaded :=
    fun loaded member => progress.lawful.find_path (progress.lawful.id_path _ (knows loaded member))
  refine ⟨?_, ⟨_, placed, places⟩, ?_, fun loaded member known => ?_, visible⟩
  · obtain ⟨path, member⟩ := List.exists_mem_of_ne_nil paths something
    obtain ⟨canonical, contents, leads, -⟩ := all_suit path member
    have place : canonical ∈ list.map (·.path) :=
      (mem_places canonical).mpr (List.mem_map.mpr ⟨path, member, leads.placed⟩)
    rintro rfl
    cases place
  · intro loaded member
    obtain ⟨path, -, at_path⟩ :=
      List.mem_map.mp ((mem_places loaded.path).mp (List.mem_map_of_mem member))
    exact progress.leads (idempotent path _ at_path) (visible loaded member)
  · exact progress.kept (visible loaded member)

theorem Found.answers {outcome : Except Error (Option (List Module))}
    (found : Found files listed before name (outcome, after)) (lawful : Lawful .ok before)
    (idempotent : files.IsIdempotent)
    (unknown : before.names.find? (SimpleName.ofText name).key = none) :
    (outcome = .ok none ↔ listed name = []) ∧
    (∀ list, outcome = .ok (some list) ↔
      listed name ≠ [] ∧ (∀ path ∈ listed name, Suits files before name path) ∧
        Gathers files before after (listed name) list) ∧
    ∀ error, outcome = .error error ↔ StopsFirst files before name (listed name) error := by
  have suits_iff := @stop_eq_none _ files before name (listed name) lawful
  have stops_iff := fun error => @stop_eq_some _ files before name (listed name) error lawful
  cases found with
  | published present =>
    rw [present] at unknown
    cases unknown
  | unlisted absent nothing =>
    refine ⟨iff_of_true rfl nothing, fun list => iff_of_false nofun fun kept => kept.1 nothing,
      fun error => iff_of_false nofun ?_⟩
    rw [← stops_iff, nothing]
    exact nofun
  | @failed failure _ _ absent something stop names progress =>
    refine ⟨iff_of_false nofun something, fun list => iff_of_false nofun ?_, fun error => ?_⟩
    · rintro ⟨-, all_suit, -⟩
      rw [suits_iff.mpr all_suit] at stop
      cases stop
    · rw [← stops_iff, stop, Option.some_inj, Except.error.injEq]
  | made absent something stop names progress answer knows =>
    have all_suit := suits_iff.mp stop
    have gathers := progress.gathers idempotent something all_suit answer knows
    refine ⟨iff_of_false nofun something, fun list => ⟨?_, ?_⟩, fun error => iff_of_false nofun ?_⟩
    · intro same
      cases same
      exact ⟨something, all_suit, gathers⟩
    · rintro ⟨-, -, other⟩
      rw [gathers.unique other]
    · rw [← stops_iff, stop]
      exact nofun

end ModuleStore

namespace Catalog

open ModuleStore

/-- What the lookup of a name comes to whose candidates are not known yet: nothing if no path is
    listed, the modules at the listed paths if all of them suit, and otherwise the error of the first
    path that does not. -/
theorem candidates_contents [Image.Parser] (tables : PathTables) (loaded : Nat) (store : ModuleStore)
    (reached : Reached tables loaded store) (files : FileSystem) (idempotent : files.IsIdempotent)
    (name : String) (unknown : store.names.find? (SimpleName.ofText name).key = none)
    (few : loaded + (ModuleStore.candidates files tables.paths name).loads store < UInt32.size - 1) :
    let answered := candidates ⟨tables, store⟩ files name
    let paths := tables.paths name
    (answered.1 = .ok none ↔ paths = []) ∧
    (∀ list, answered.1 = .ok (some list) ↔
      paths ≠ [] ∧ (∀ path ∈ paths, Suits files store name path) ∧
        Gathers files store answered.2.store paths list) ∧
    (∀ error, answered.1 = .error error ↔ StopsFirst files store name paths error) ∧
    ∀ inputs references, tables = ⟨.ofRegistrations inputs, .ofRegistrations references⟩ →
      paths = PathTable.registered inputs name ++ PathTable.registered references name := by
  intro answered paths
  obtain ⟨lawful, nextId⟩ := reached.lawful (by omega)
  have room : store.nextId.toNat + (ModuleStore.candidates files tables.paths name).loads store <
      UInt32.size := by omega
  obtain ⟨found, -⟩ := found_candidates idempotent lawful room
  have found : Found files tables.paths store name (answered.1, answered.2.store) := found
  obtain ⟨none_iff, some_iff, error_iff⟩ := found.answers lawful idempotent unknown
  refine ⟨none_iff, some_iff, error_iff, ?_⟩
  rintro inputs references rfl
  exact congrArg₂ _ (PathTable.paths_ofRegistrations inputs name)
    (PathTable.paths_ofRegistrations references name)

/-- One of the two files that the name is registered for is there under two paths. -/
def partTables : PathTables where
  inputs := .ofRegistrations [("Part", "/link"), ("Other", "/other"), ("PART", "/Part.netmodule")]
  references := .ofRegistrations [("part", "/copy")]

open scoped Image.Container

/-- The file with two paths has been loaded before. -/
theorem parts_gathered :
    let store := ((pool partTables [.fromPath smallFiles "/link"]).run [0, 0, 0, 0, 0]).state
    let answered := candidates ⟨partTables, store⟩ smallFiles "pART"
    answered.1.map (Option.map (List.map fun part => (part.id, part.path))) =
        .ok (some [(⟨1⟩, "/Part.netmodule"), (⟨2⟩, "/copy")]) ∧
      ∀ list, answered.1 = .ok (some list) →
        Gathers smallFiles store answered.2.store ["/link", "/Part.netmodule", "/copy"] list := by
  intro store answered
  refine ⟨by decide +kernel, fun list same => ?_⟩
  have reached : Reached partTables 1 store := by
    refine ⟨[.fromPath smallFiles "/link"], [0, 0, 0, 0, 0], ?_, by decide +kernel, rfl⟩
    intro call member
    obtain rfl := List.mem_singleton.mp member
    exact smallFiles_idempotent
  have contents := candidates_contents partTables 1 store reached smallFiles smallFiles_idempotent
    "pART" (by decide +kernel) (by decide +kernel)
  have gathers := ((contents.2.1 list).mp same).2.2
  rw [contents.2.2.2 _ _ rfl] at gathers
  exact gathers

end Catalog

end Managed
