import Managed.Image.Headers
import Managed.Proofs.ContextCourses
import Managed.Proofs.LookupTrails

namespace Managed

namespace ModuleStore

variable {files : FileSystem} {store before after : ModuleStore} {name : String}
  {paths asked reached : List Path} {added : List Module}

theorem path_adjoin {known : List Module} {seen : List Path}
    (same : known.map (·.path) = seen.eraseDups) (found : Module) :
    (adjoin known found).map (·.path) = (seen ++ [found.path]).eraseDups := by
  have taken : (known.any fun other => decide (other.path = found.path)) =
      seen.contains found.path := by
    rw [Bool.eq_iff_iff, List.contains_iff_mem, ← List.mem_eraseDups, ← same]
    simp
  rw [adjoin, taken, List.eraseDups_append, List.cons_removeAll, ← same]
  cases seen.contains found.path <;> simp [List.eraseDups_cons]

/-- Each path is kept where it occurs first. -/
theorem path_foldl_adjoin (modules : List Module) :
    (modules.foldl adjoin []).map (·.path) = (modules.map (·.path)).eraseDups := by
  suffices onward : ∀ (known : List Module) (seen : List Path),
      known.map (·.path) = seen.eraseDups →
      (modules.foldl adjoin known).map (·.path) = (seen ++ modules.map (·.path)).eraseDups from
    onward [] [] rfl
  induction modules with
  | nil =>
    intro known seen same
    rw [List.foldl_nil, same, List.map_nil, List.append_nil]
  | cons found rest ih =>
    intro known seen same
    rw [List.foldl_cons, ih _ _ (path_adjoin same found), List.append_assoc]
    rfl

variable [Image.Parser]

def Passes (files : FileSystem) (store : ModuleStore) (name : String) (path : Path) : Prop :=
  ∃ found, seenAt files store path = .ok found ∧ found.verifyName name = .ok ()

def Refuses (files : FileSystem) (store : ModuleStore) (name : String) (path : Path)
    (error : Error) : Prop :=
  seenAt files store path = .error error ∨
    ∃ found, seenAt files store path = .ok found ∧ found.verifyName name = .error error

def placesOf (files : FileSystem) (store : ModuleStore) (paths : List Path) : List Path :=
  paths.filterMap fun path => (seenAt files store path).toOption.map (·.path)

theorem trail_of_refused {error : Error}
    (stop : (trail files store name paths).stop = some error) :
    ∃ passed stopped rest, paths = passed ++ stopped :: rest ∧
      (∀ path ∈ passed, Passes files store name path) ∧ Refuses files store name stopped error ∧
      (trail files store name paths).reached.map (·.path) =
        placesOf files store (passed ++ [stopped]) := by
  induction paths with
  | nil => cases stop
  | cons path rest ih =>
    rw [trail] at stop ⊢
    cases seen : seenAt files store path with
    | error other =>
      rw [seen] at stop
      obtain rfl : other = error := Option.some.inj stop
      refine ⟨[], path, rest, rfl, List.forall_mem_nil _, .inl seen, ?_⟩
      simp [placesOf, seen, Except.toOption]
    | ok found =>
      rw [seen] at stop
      dsimp only at stop ⊢
      cases verified : found.verifyName name with
      | error other =>
        rw [verified] at stop
        obtain rfl : other = error := Option.some.inj stop
        refine ⟨[], path, rest, rfl, List.forall_mem_nil _, .inr ⟨found, seen, verified⟩, ?_⟩
        simp [placesOf, seen, Except.toOption]
      | ok =>
        rw [verified] at stop
        obtain ⟨passed, stopped, behind, rfl, passes, refuses, reached⟩ := ih stop
        refine ⟨path :: passed, stopped, behind, rfl, ?_, refuses, ?_⟩
        · exact List.forall_mem_cons.mpr ⟨⟨found, seen, verified⟩, passes⟩
        · simp only [List.map_cons, reached]
          simp [placesOf, seen, Except.toOption]

theorem mem_trail (whole : (trail files store name paths).stop = none) {path : Path}
    (member : path ∈ paths) :
    ∃ found ∈ (trail files store name paths).reached, seenAt files store path = .ok found := by
  induction paths with
  | nil => cases member
  | cons first rest ih =>
    rw [trail] at whole ⊢
    cases seen : seenAt files store first with
    | error error =>
      rw [seen] at whole
      cases whole
    | ok found =>
      rw [seen] at whole
      dsimp only at whole ⊢
      cases verified : found.verifyName name with
      | error error =>
        rw [verified] at whole
        cases whole
      | ok =>
        rw [verified] at whole
        rcases List.mem_cons.mp member with rfl | later
        · exact ⟨found, List.mem_cons_self, seen⟩
        · obtain ⟨other, reached, other_seen⟩ := ih whole later
          exact ⟨other, List.mem_cons_of_mem _ reached, other_seen⟩

theorem canonicalize_of_seenAt (lawful : Lawful .ok store) {path : Path} {found : Module}
    (seen : seenAt files store path = .ok found) : files.canonicalize path = .ok found.path := by
  rw [seenAt] at seen
  cases placed : canonicalize files path with
  | error error =>
    rw [placed] at seen
    cases seen
  | ok canonical =>
    rw [placed] at seen
    dsimp only at seen
    split at seen
    · rename_i loaded present
      obtain rfl := Except.ok.inj seen
      obtain rfl : loaded.path = canonical := lawful.at_path _ (Cache.mem_of_find? present)
      exact canonicalize_eq_ok.mp placed
    · rw [moduleAt, placed] at seen
      dsimp only at seen
      split at seen
      · cases seen
      · cases seen
        exact canonicalize_eq_ok.mp placed

/-- The modules that a lookup adds, by path and by id: those at the given places that were not loaded
    before, each of them once. -/
structure Adds (files : FileSystem) (before after : ModuleStore) (places : List Path)
    (added : List Module) : Prop where
  paths : after.paths.entries = before.paths.entries ++ added.map fun loaded => (loaded.path, loaded)
  idsKept : before.ids.entries <+: after.ids.entries
  ids : ∀ loaded : Module, (loaded.id, loaded) ∈ after.ids.entries ↔
    (loaded.id, loaded) ∈ before.ids.entries ∨ loaded ∈ added
  distinct : (added.map (·.path)).Nodup
  read : ∀ loaded ∈ added, loaded.IsRead files
  exactly : ∀ path, path ∈ added.map (·.path) ↔ before.paths.find? path = none ∧ path ∈ places

theorem Progress.adds (progress : Progress files before after asked reached added)
    (listed : before.Listed) : Adds files before after reached added where
  paths := progress.paths
  idsKept := progress.idsKept
  ids := by
    intro loaded
    rw [progress.ids]
    constructor
    · rintro (old | ⟨visible, place⟩)
      · exact .inl old
      · rw [progress.paths, List.mem_append] at visible
        rcases visible with before | new
        · exact .inl (listed loaded (List.mem_map_of_mem before))
        · obtain ⟨other, member, same⟩ := List.mem_map.mp new
          obtain rfl : other = loaded := congrArg Prod.snd same
          exact .inr member
    · rintro (old | new)
      · exact .inl old
      · refine .inr ⟨?_, ((progress.new _).mp (List.mem_map_of_mem new)).2⟩
        rw [progress.paths]
        exact List.mem_append_right _ (List.mem_map_of_mem new)
  distinct := progress.distinct
  read := progress.read
  exactly := progress.new

structure Fails (files : FileSystem) (paths : List Path) (name : String)
    (before after : ModuleStore) (error : Error) : Prop where
  names : after.names.entries = before.names.entries
  stops : ∃ passed stopped rest added, paths = passed ++ stopped :: rest ∧
    (∀ path ∈ passed, Passes files before name path) ∧ Refuses files before name stopped error ∧
    Adds files before after (placesOf files before (passed ++ [stopped])) added

def Succeeds (files : FileSystem) (paths : List Path) (before : ModuleStore) (list : List Module) :
    Prop :=
  ∀ path ∈ paths, ∃ loaded ∈ list, files.canonicalize path = .ok loaded.path ∧
    ∀ known : Module, (known.path, known) ∈ before.paths.entries → known.path = loaded.path →
      known = loaded

variable {listed : String → List Path} {outcome : Except Error (Option (List Module)) × ModuleStore}
  {list : List Module}

theorem Found.present (found : Found files listed store name outcome)
    (answered : outcome.1 = .ok (some list)) :
    outcome.2.names.find? (SimpleName.ofText name).key = some list := by
  cases found with
  | published present =>
    cases answered
    exact present
  | unlisted absent nothing => cases answered
  | failed absent something stop names progress => cases answered
  | made absent something stop names progress answer knows =>
    cases answered
    dsimp only
    rw [names]
    exact Cache.find?_published absent

theorem Found.fails (found : Found files listed store name outcome) (rests : store.Listed)
    {error : Error} (failed : outcome.1 = .error error) :
    Fails files (listed name) name store outcome.2 error := by
  cases found with
  | published present => cases failed
  | unlisted absent nothing => cases failed
  | made absent something stop names progress answer knows => cases failed
  | failed absent something stop names progress =>
    cases failed
    obtain ⟨passed, stopped, rest, paths_eq, passes, refuses, reached⟩ := trail_of_refused stop
    rw [reached] at progress
    refine ⟨?_, passed, stopped, rest, _, paths_eq, passes, refuses, progress.adds rests⟩
    dsimp only
    rw [names]
    rfl

theorem Found.succeeds (found : Found files listed store name outcome) (lawful : Lawful .ok store)
    (absent : store.names.find? (SimpleName.ofText name).key = none)
    (answered : outcome.1 = .ok (some list)) : Succeeds files (listed name) store list := by
  cases found with
  | published present =>
    rw [present] at absent
    cases absent
  | unlisted absent nothing => cases answered
  | failed absent something stop names progress => cases answered
  | made absent something stop names progress answer knows =>
    cases answered
    intro path member
    obtain ⟨seen_module, reached, seen⟩ := mem_trail stop member
    have place : seen_module.path ∈ (list.map Module.withoutId).map (·.path) := by
      rw [answer, path_foldl_adjoin, List.mem_eraseDups]
      exact List.mem_map_of_mem reached
    rw [List.map_map] at place
    obtain ⟨loaded, listed, same⟩ := List.mem_map.mp place
    have at_path : loaded.path = seen_module.path := same
    refine ⟨loaded, listed, ?_, ?_⟩
    · rw [at_path]
      exact canonicalize_of_seenAt lawful seen
    · intro known visible same
      exact progress.lawful.eq_of_path (progress.grown.subset visible)
        (progress.lawful.id_path _ (knows loaded listed)) same

end ModuleStore

namespace Context

open ModuleStore

theorem candidates_eq [Image.Parser] (context : Context) (files : FileSystem) (name : String) :
    context.candidates files name =
      let outcome := (ModuleStore.candidates files context.catalog.tables.paths name).run
        context.catalog.store
      (outcome.1, context.withStore outcome.2) := rfl

theorem found_of_roomy [Image.Parser] {context : Context} {files : FileSystem} {name : String}
    {more : Nat}
    (roomy : context.Roomy (Canonical .ok)
      (context.courseLoads [⟨files, .ask (.candidates name)⟩] + more))
    (idempotent : files.IsIdempotent) :
    Found files context.catalog.tables.paths context.catalog.store name
      ((context.candidates files name).1, (context.candidates files name).2.catalog.store) := by
  have loads : context.courseLoads [⟨files, .ask (.candidates name)⟩] =
      (ModuleStore.candidates files context.catalog.tables.paths name).loads
        context.catalog.store := by
    rw [courseLoads, courseLoads, Nat.add_zero]
    exact Routine.loads_map _ _
  have room := roomy.room
  rw [loads] at room
  exact (found_candidates idempotent roomy.rests.lawful (by omega)).1

/-- A list of candidates stays what it is once it has been given, for every spelling of its name and
    whatever becomes of the files. A lookup that fails leaves no trace but the modules it came to,
    and one that begins anew comes to the same modules. -/
theorem lists_permanent [Image.Parser] (context : Context) (others : Nat)
    (earlier later : List Moment) (files files' : FileSystem) (name name' : String)
    (same : (SimpleName.ofText name').key = (SimpleName.ofText name).key)
    (idempotent : ∀ moment ∈ earlier ++ ⟨files, .ask (.candidates name)⟩ ::
      (later ++ [⟨files', .ask (.candidates name')⟩]), moment.files.IsIdempotent)
    (few : others + (context.anew others).courseLoads (earlier ++
      ⟨files, .ask (.candidates name)⟩ :: (later ++ [⟨files', .ask (.candidates name')⟩])) <
        UInt32.size - 1) :
    let before := (context.anew others).course earlier
    let called := before.candidates files name
    let after := called.2.course later
    let again := after.candidates files' name'
    let paths := context.catalog.tables.paths name
    (∀ list, called.1 = .ok (some list) → again = (.ok (some list), after.withStore
      { after.catalog.store with names := after.catalog.store.names.hit })) ∧
    (∀ error, called.1 = .error error →
      Fails files paths name before.catalog.store called.2.catalog.store error) ∧
    (called.2.catalog.store.paths.entries <+: after.catalog.store.paths.entries ∧
      called.2.catalog.store.ids.entries <+: after.catalog.store.ids.entries ∧
      called.2.catalog.store.names.entries <+: after.catalog.store.names.entries) ∧
    (after.catalog.store.names.find? (SimpleName.ofText name).key = none →
      (∀ error, again.1 = .error error →
        Fails files' paths name' after.catalog.store again.2.catalog.store error) ∧
      ∀ list, again.1 = .ok (some list) →
        Succeeds files' paths after.catalog.store list) := by
  intro before called after again paths
  let first : Moment := ⟨files, .ask (.candidates name)⟩
  let second : Moment := ⟨files', .ask (.candidates name')⟩
  obtain ⟨idempotent_earlier, idempotent_rest⟩ := List.forall_mem_append.mp idempotent
  obtain ⟨idempotent_first, idempotent_rest⟩ := List.forall_mem_cons.mp idempotent_rest
  obtain ⟨idempotent_later, idempotent_second⟩ := List.forall_mem_append.mp idempotent_rest
  have loads : (context.anew others).courseLoads (earlier ++ first :: (later ++ [second])) =
      (context.anew others).courseLoads earlier + (before.courseLoads [first] +
        (called.2.courseLoads later + after.courseLoads [second])) := by
    rw [courseLoads_append, ← List.singleton_append, courseLoads_append, courseLoads_append]
    rfl
  rw [loads] at few
  obtain ⟨roomy_before, -⟩ := (roomy_anew few).course fun moment member =>
    fits_ok (idempotent_earlier moment member)
  have roomy_before : before.Roomy (Canonical .ok) (before.courseLoads [first] +
      (called.2.courseLoads later + (after.courseLoads [second] + 0))) := roomy_before
  have found := found_of_roomy roomy_before idempotent_first
  obtain ⟨roomy_called, -⟩ := roomy_before.course
    (List.forall_mem_singleton.mpr (fits_ok idempotent_first))
  have roomy_called : called.2.Roomy (Canonical .ok) (called.2.courseLoads later +
      (after.courseLoads [second] + 0)) := roomy_called
  obtain ⟨roomy_after, onward⟩ := roomy_called.course fun moment member =>
    fits_ok (idempotent_later moment member)
  have found_again := found_of_roomy roomy_after
    (idempotent_second second (List.mem_singleton.mpr rfl))
  have tables_before : before.catalog.tables = context.catalog.tables := tables_course
  have tables_after : after.catalog.tables = context.catalog.tables :=
    tables_course.trans tables_before
  rw [tables_before] at found
  rw [tables_after] at found_again
  have same_paths : context.catalog.tables.paths name' = paths :=
    context.catalog.tables.paths_congr same
  have grown := entries_later onward
  refine ⟨?_, fun error => found.fails roomy_before.rests.listed, grown, ?_⟩
  · intro list answered
    have present := Cache.find?_grows grown.2.2 (found.present answered)
    rw [← same] at present
    have answer := @run_candidates_published files' after.catalog.store name' _
      after.catalog.tables.paths list present
    have again_eq : again = _ := candidates_eq after files' name'
    rw [again_eq, answer]
  · intro absent
    rw [← same] at absent
    rw [← same_paths]
    exact ⟨fun error => found_again.fails roomy_after.rests.listed,
      fun list => found_again.succeeds roomy_after.rests.lawful absent⟩

open scoped Image.Container

def damagedFiles : FileSystem := { Catalog.smallFiles with read := fun _ => .error .notFound }

theorem damagedFiles_idempotent : damagedFiles.IsIdempotent := Catalog.smallFiles_idempotent

/-- A lookup fails because of the files and another because of the name, which loads the module. -/
def damagedCourse : List Moment :=
  [⟨damagedFiles, .ask (.candidates "Part")⟩, ⟨Catalog.smallFiles, .ask (.candidates "Other")⟩]

theorem kept_module_given :
    let before := (partContext.anew 0).course damagedCourse
    let called := before.candidates damagedFiles "PART"
    let after := called.2.course [⟨Catalog.smallFiles, .preload [0, 1, 0, 1]⟩]
    called.1 =
      (Module.ofBytes ⟨1⟩ "/Part.netmodule" Catalog.smallImage).map (fun part => some [part]) ∧
      ∀ list, called.1 = .ok (some list) →
        (after.candidates damagedFiles "pART").1 = .ok (some list) := by
  refine ⟨by decide +kernel, fun list answered => ?_⟩
  have permanent :=
    lists_permanent partContext 0 damagedCourse [⟨Catalog.smallFiles, .preload [0, 1, 0, 1]⟩]
    damagedFiles damagedFiles "PART" "pART" (by decide) ?_ (by decide +kernel)
  · exact congrArg Prod.fst (permanent.1 list answered)
  · simp [damagedCourse, damagedFiles_idempotent, Catalog.smallFiles_idempotent]

end Context

end Managed
