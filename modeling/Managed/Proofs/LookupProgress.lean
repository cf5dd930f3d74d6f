import Managed.Proofs.CatalogCallRules
import Managed.Proofs.CountedRuns
import Managed.Proofs.TruthfulStore

namespace Managed

namespace ModuleStore

variable {files : FileSystem} {store : ModuleStore} {path canonical : Path}

variable [Image.Parser]

def seenAt (files : FileSystem) (store : ModuleStore) (path : Path) : Except Error Module :=
  match canonicalize files path with
  | .error error => .error error
  | .ok canonical =>
    match store.paths.find? canonical with
    | some loaded => .ok loaded.withoutId
    | none => moduleAt files path

def askedAt (files : FileSystem) (path : Path) : List Path :=
  (canonicalize files path).toOption.toList

theorem run_fromPath_unplaced {error : Error} (unplaced : canonicalize files path = .error error) :
    (fromPath files path).run store = (.error error, store) := by
  rw [fromPath, unplaced]
  rfl

theorem run_fromPath_unread (placed : canonicalize files path = .ok canonical)
    (settled : canonicalize files canonical = .ok canonical)
    (absent : store.paths.find? canonical = none) {error : Error}
    (unread : readContents files canonical = .error error) :
    (fromPath files path).run store = (.error error, { store with paths := store.paths.missed }) := by
  have looked := Cache.tryGet_absent absent
  simp only [fromPath, placed, Cache.getOrTryCreate, Part.atomic, bind, pure, Routine.run_bind,
    Routine.run_atomic, Routine.run_done, pathsPart, looked, load, settled, unread,
    Cache.recordMiss_eq]

theorem run_fromPath_made (placed : canonicalize files path = .ok canonical)
    (settled : canonicalize files canonical = .ok canonical)
    (absent : store.paths.find? canonical = none) {contents : Contents}
    (read : readContents files canonical = .ok contents)
    (new : store.ids.find? ⟨store.nextId⟩ = none) :
    let made : Module := { id := ⟨store.nextId⟩, path := canonical, contents }
    (fromPath files path).run store = (.ok made,
      { store with
        nextId := store.nextId + 1
        paths := store.paths.missed.published canonical made
        ids := store.ids.published made.id made }) := by
  have looked := Cache.tryGet_absent absent
  have still_absent : store.paths.missed.find? canonical = none := absent
  have published (made : Module) :
      Cache.publish canonical made store.paths.missed =
        (made, store.paths.missed.published canonical made) := Cache.publish_absent still_absent
  have listed (made : Module) :
      Cache.publish ⟨store.nextId⟩ made store.ids =
        (made, store.ids.published ⟨store.nextId⟩ made) := Cache.publish_absent new
  simp only [fromPath, placed, Cache.getOrTryCreate, Cache.getOrInsert, Part.atomic, bind, pure,
    Routine.run_bind, Routine.run_atomic, Routine.run_done, pathsPart, idsPart, looked, load,
    settled, read, Cache.recordMiss_eq, drawId, published, listed]

theorem run_fromPath_met {loaded : Module} (placed : canonicalize files path = .ok loaded.path)
    (visible : store.paths.find? loaded.path = some loaded)
    (known : (Cache.publish loaded.id loaded store.ids).1 = loaded) :
    (fromPath files path).run store = (.ok loaded,
      { store with
        paths := store.paths.hit
        ids := (Cache.publish loaded.id loaded store.ids).2 }) := by
  have looked := Cache.tryGet_present visible
  simp only [fromPath, placed, Cache.getOrTryCreate, Cache.getOrInsert, Part.atomic, bind, pure,
    Routine.run_bind, Routine.run_atomic, Routine.run_done, pathsPart, idsPart, looked, known]

/-- What lookups of paths make of a store: they ask for canonical paths and reach modules at some
    of them, of which those that were not loaded before are added. -/
structure Progress (files : FileSystem) (start final : ModuleStore) (asked reached : List Path)
    (added : List Module) : Prop where
  lawful : Lawful .ok final
  nextId : final.nextId.toNat = start.nextId.toNat + added.length
  paths : final.paths.entries = start.paths.entries ++ added.map fun loaded => (loaded.path, loaded)
  read : ∀ loaded ∈ added, loaded.IsRead files
  new : ∀ path, path ∈ added.map (·.path) ↔ start.paths.find? path = none ∧ path ∈ reached
  idsKept : start.ids.entries <+: final.ids.entries
  ids : ∀ loaded : Module, (loaded.id, loaded) ∈ final.ids.entries ↔
    (loaded.id, loaded) ∈ start.ids.entries ∨
      (loaded.path, loaded) ∈ final.paths.entries ∧ loaded.path ∈ reached
  idsCounters : final.ids.hits = start.ids.hits ∧ final.ids.misses = start.ids.misses
  counters : ∃ hits misses : Nat, final.paths.hits = start.paths.hits + .ofNat hits ∧
    final.paths.misses = start.paths.misses + .ofNat misses ∧
      hits + misses = asked.length ∧ misses + reached.length = added.length + asked.length

theorem Progress.refl (lawful : Lawful .ok store) : Progress files store store [] [] [] where
  lawful := lawful
  nextId := rfl
  paths := (List.append_nil _).symm
  read := nofun
  new := by simp
  idsKept := List.prefix_rfl
  ids := by simp
  idsCounters := ⟨rfl, rfl⟩
  counters := ⟨0, 0, by simp, by simp, rfl, rfl⟩

variable {start middle final : ModuleStore} {asked reached asked' reached' : List Path}
  {added added' : List Module}

theorem Progress.grown (progress : Progress files start final asked reached added) :
    start.paths.entries <+: final.paths.entries := by
  rw [progress.paths]
  exact List.prefix_append _ _

theorem Progress.distinct (progress : Progress files start final asked reached added) :
    (added.map (·.path)).Nodup := by
  have distinct := progress.lawful.paths_distinct
  rw [Cache.Distinct, progress.paths, List.map_append, List.map_map] at distinct
  exact (List.nodup_append.mp distinct).2.1

theorem Progress.present (progress : Progress files start final asked reached added)
    (member : path ∈ reached) : ∃ loaded, final.paths.find? path = some loaded := by
  cases found : start.paths.find? path with
  | some loaded => exact ⟨loaded, Cache.find?_grows progress.grown found⟩
  | none =>
    obtain ⟨loaded, listed, rfl⟩ := List.mem_map.mp ((progress.new path).mpr ⟨found, member⟩)
    refine ⟨loaded, progress.lawful.find_path ?_⟩
    rw [progress.paths]
    exact List.mem_append_right _ (List.mem_map_of_mem listed)

theorem Progress.added_of_find? (progress : Progress files start final asked reached added)
    {loaded : Module} (absent : start.paths.find? path = none)
    (found : final.paths.find? path = some loaded) : loaded ∈ added ∧ loaded.path = path := by
  have member := Cache.mem_of_find? found
  rw [progress.paths, List.mem_append] at member
  rcases member with old | new
  · exact absurd old (Cache.notMem_of_absent absent loaded)
  · obtain ⟨other, listed, same⟩ := List.mem_map.mp new
    obtain ⟨rfl, rfl⟩ := Prod.mk.inj same
    exact ⟨listed, rfl⟩

theorem Progress.seenAt_eq (progress : Progress files start final asked reached added) :
    seenAt files final = seenAt files start := by
  funext path
  unfold seenAt
  cases placed : canonicalize files path with
  | error error => rfl
  | ok canonical =>
    dsimp only
    cases before : start.paths.find? canonical with
    | some loaded => rw [Cache.find?_grows progress.grown before]
    | none =>
      cases after : final.paths.find? canonical with
      | none => rfl
      | some loaded =>
        obtain ⟨listed, rfl⟩ := progress.added_of_find? before after
        have contents : readContents files loaded.path = .ok loaded.contents :=
          progress.read loaded listed
        rw [moduleAt, placed]
        dsimp only
        rw [contents]
        rfl

theorem Progress.trans (first : Progress files start middle asked reached added)
    (second : Progress files middle final asked' reached' added') :
    Progress files start final (asked ++ asked') (reached ++ reached') (added ++ added') where
  lawful := second.lawful
  nextId := by
    rw [second.nextId, first.nextId, List.length_append, Nat.add_assoc]
  paths := by
    rw [second.paths, first.paths, List.map_append, List.append_assoc]
  read := by
    intro loaded member
    rcases List.mem_append.mp member with early | late
    · exact first.read loaded early
    · exact second.read loaded late
  new := by
    intro path
    rw [List.map_append, List.mem_append, List.mem_append, first.new, second.new]
    constructor
    · rintro (⟨absent, early⟩ | ⟨absent, late⟩)
      · exact ⟨absent, .inl early⟩
      · refine ⟨?_, .inr late⟩
        cases found : start.paths.find? path with
        | none => rfl
        | some loaded =>
          rw [Cache.find?_grows first.grown found] at absent
          cases absent
    · rintro ⟨absent, early | late⟩
      · exact .inl ⟨absent, early⟩
      · cases found : middle.paths.find? path with
        | none => exact .inr ⟨rfl, late⟩
        | some loaded =>
          obtain ⟨listed, rfl⟩ := first.added_of_find? absent found
          exact .inl ((first.new _).mp (List.mem_map_of_mem listed))
  idsKept := first.idsKept.trans second.idsKept
  ids := by
    intro loaded
    rw [second.ids, first.ids, List.mem_append]
    constructor
    · rintro ((old | ⟨visible, early⟩) | ⟨visible, late⟩)
      · exact .inl old
      · exact .inr ⟨second.grown.subset visible, .inl early⟩
      · exact .inr ⟨visible, .inr late⟩
    · rintro (old | ⟨visible, early | late⟩)
      · exact .inl (.inl old)
      · -- The module at a path that was reached first was visible then.
        obtain ⟨other, found⟩ := first.present early
        have same := Cache.find?_grows second.grown found
        rw [second.lawful.find_path visible] at same
        obtain rfl := Option.some.inj same
        exact .inl (.inr ⟨Cache.mem_of_find? found, early⟩)
      · exact .inr ⟨visible, late⟩
  idsCounters := ⟨second.idsCounters.1.trans first.idsCounters.1,
    second.idsCounters.2.trans first.idsCounters.2⟩
  counters := by
    obtain ⟨hits, misses, hits_eq, misses_eq, total, balance⟩ := first.counters
    obtain ⟨hits', misses', hits_eq', misses_eq', total', balance'⟩ := second.counters
    refine ⟨hits + hits', misses + misses', ?_, ?_, ?_, ?_⟩
    · rw [hits_eq', hits_eq, UInt64.ofNat_add, UInt64.add_assoc]
    · rw [misses_eq', misses_eq, UInt64.ofNat_add, UInt64.add_assoc]
    · rw [List.length_append]
      omega
    · simp only [List.length_append]
      omega

theorem progress_unread
    (lawful : Lawful .ok { store with paths := store.paths.missed }) :
    Progress files store { store with paths := store.paths.missed } [canonical] [] [] where
  lawful := lawful
  nextId := rfl
  paths := (List.append_nil _).symm
  read := nofun
  new := by simp
  idsKept := List.prefix_rfl
  ids := by simp
  idsCounters := ⟨rfl, rfl⟩
  counters := ⟨0, 1, (UInt64.add_zero _).symm, rfl, rfl, rfl⟩

theorem progress_met {loaded : Module} {ids : Cache ModuleId Module}
    (lawful : Lawful .ok { store with paths := store.paths.hit, ids })
    (visible : (loaded.path, loaded) ∈ store.paths.entries)
    (kept : store.ids.entries <+: ids.entries)
    (listed : ∀ entry, entry ∈ ids.entries ↔ entry ∈ store.ids.entries ∨ entry = (loaded.id, loaded))
    (counters : ids.hits = store.ids.hits ∧ ids.misses = store.ids.misses) :
    Progress files store { store with paths := store.paths.hit, ids } [loaded.path] [loaded.path]
      [] where
  lawful := lawful
  nextId := rfl
  paths := (List.append_nil _).symm
  read := nofun
  new := by
    intro path
    simp only [List.map_nil, List.not_mem_nil, List.mem_singleton, false_iff, not_and]
    rintro absent rfl
    exact Cache.notMem_of_absent absent loaded visible
  idsKept := kept
  ids := by
    intro other
    rw [listed, List.mem_singleton]
    constructor
    · rintro (old | same)
      · exact .inl old
      · obtain rfl : other = loaded := congrArg Prod.snd same
        exact .inr ⟨visible, rfl⟩
    · rintro (old | ⟨seen, same⟩)
      · exact .inl old
      · obtain rfl := lawful.eq_of_path seen visible same
        exact .inr rfl
  idsCounters := counters
  counters := ⟨1, 0, rfl, (UInt64.add_zero _).symm, rfl, rfl⟩

theorem progress_made {made : Module} (absent : store.paths.find? made.path = none)
    (id : made.id = ⟨store.nextId⟩) (read : made.IsRead files)
    (lawful : Lawful .ok { store with
      nextId := store.nextId + 1
      paths := store.paths.missed.published made.path made
      ids := store.ids.published made.id made }) :
    Progress files store { store with
      nextId := store.nextId + 1
      paths := store.paths.missed.published made.path made
      ids := store.ids.published made.id made } [made.path] [made.path] [made] where
  lawful := lawful
  nextId := toNat_succ_of_ne_zero lawful.started
  paths := rfl
  read := by
    intro other member
    rwa [List.mem_singleton.mp member]
  new := by
    intro path
    simp only [List.map_cons, List.map_nil, List.mem_singleton]
    constructor
    · rintro rfl
      exact ⟨absent, rfl⟩
    · exact And.right
  idsKept := Cache.published_grows _ _ _
  ids := by
    intro other
    have visible := Cache.mem_published.mpr
      (.inr rfl : (made.path, made) ∈ store.paths.missed.entries ∨ _ = (made.path, made))
    rw [Cache.mem_published, List.mem_singleton]
    constructor
    · rintro (old | same)
      · exact .inl old
      · obtain rfl : other = made := congrArg Prod.snd same
        exact .inr ⟨visible, rfl⟩
    · rintro (old | ⟨seen, same⟩)
      · exact .inl old
      · obtain rfl := lawful.eq_of_path seen visible same
        exact .inr rfl
  idsCounters := ⟨rfl, rfl⟩
  counters := ⟨0, 1, (UInt64.add_zero _).symm, rfl, rfl, rfl⟩

inductive Served (files : FileSystem) (store : ModuleStore) (path : Path) :
    Except Error Module × ModuleStore → Prop where
  | refused {error : Error} {final : ModuleStore} (names : final.names = store.names)
      (seen : seenAt files store path = .error error)
      (progress : Progress files store final (askedAt files path) [] []) :
    Served files store path (.error error, final)
  | given {loaded : Module} {final : ModuleStore} {added : List Module}
      (names : final.names = store.names) (seen : seenAt files store path = .ok loaded.withoutId)
      (progress : Progress files store final (askedAt files path) [loaded.path] added)
      (visible : (loaded.path, loaded) ∈ final.paths.entries)
      (known : (loaded.id, loaded) ∈ final.ids.entries) :
    Served files store path (.ok loaded, final)

theorem served_fromPath (idempotent : files.IsIdempotent) (lawful : Lawful .ok store)
    (few : store.nextId.toNat + (fromPath files path).loads store < UInt32.size) :
    Served files store path ((fromPath files path).run store) ∧
      ((fromPath files path).run store).2.nextId.toNat =
        store.nextId.toNat + (fromPath files path).loads store := by
  obtain ⟨lawful_final, nextId_final, -⟩ :=
    rules_draw.run (ensures_fromPath (fits_ok idempotent) path store) lawful nofun few
  refine ⟨?_, nextId_final⟩
  cases placed : canonicalize files path with
  | error error =>
    rw [run_fromPath_unplaced placed]
    refine .refused rfl ?_ ?_
    · rw [seenAt, placed]
    · rw [askedAt, placed]
      exact .refl lawful
  | ok canonical =>
    have asks : askedAt files path = [canonical] := by
      rw [askedAt, placed]
      rfl
    have settled := canonicalize_eq_ok.mpr (idempotent _ _ (canonicalize_eq_ok.mp placed))
    cases found : store.paths.find? canonical with
    | some loaded =>
      have member := Cache.mem_of_find? found
      obtain rfl : loaded.path = canonical := lawful.at_path _ member
      obtain ⟨known, kept, listed⟩ := lawful.publish_met member
      rw [run_fromPath_met placed found known] at lawful_final ⊢
      have seen : seenAt files store path = .ok loaded.withoutId := by
        rw [seenAt, placed]
        dsimp only
        rw [found]
      refine @Served.given _ files store path loaded _ [] rfl seen ?_ member
        ((listed _).mpr (.inr rfl))
      rw [asks]
      exact progress_met lawful_final member kept listed (Cache.publish_counters _ _ _)
    | none =>
      have seen : seenAt files store path = moduleAt files path := by
        rw [seenAt, placed]
        dsimp only
        rw [found]
      rw [moduleAt, placed] at seen
      dsimp only at seen
      cases read : readContents files canonical with
      | error error =>
        rw [read] at seen
        rw [run_fromPath_unread placed settled found read] at lawful_final ⊢
        refine .refused rfl seen ?_
        rw [asks]
        exact progress_unread lawful_final
      | ok contents =>
        rw [read] at seen
        rw [run_fromPath_made placed settled found read lawful.new_id] at lawful_final ⊢
        let made : Module := { id := ⟨store.nextId⟩, path := canonical, contents }
        refine @Served.given _ files store path made _ [made] rfl seen ?_
          (Cache.mem_published.mpr (.inr rfl)) (Cache.mem_published.mpr (.inr rfl))
        rw [asks]
        exact @progress_made files store _ made found rfl read lawful_final

end ModuleStore

end Managed
