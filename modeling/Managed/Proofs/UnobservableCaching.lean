import Managed.Proofs.OneModulePerPath
import Managed.Proofs.CountedRuns
import Managed.Proofs.FaithfulCalls

namespace Managed

namespace ModuleStore

variable [Image.Parser] {disk : FileSystem} {tables : PathTables}

theorem faithful_draws : (faithful disk tables).DrawsIds where
  started := fun _ lawful => lawful.1.started
  nextId := fun _ _ moves => moves.nextId
  within := fun _ started => started

end ModuleStore

namespace Context

open ModuleStore Catalog

variable {disk : FileSystem} {context : Context}

theorem reads_call (operation : Operation) : (operation.call disk).Reads disk := by
  cases operation with
  | ask query => cases query <;> exact rfl
  | byId id => exact True.intro
  | openModule path expected => exact rfl
  | preload schedule => exact rfl
  | elsewhere => exact True.intro

section

variable [Image.Parser]

def Sound (disk : FileSystem) (context : Context) : Prop :=
  (faithful disk context.catalog.tables).Lawful context.catalog.store

theorem follows_pool {τ : Type} {rules : Sharing ModuleStore τ}
    (lawful : rules.Lawful context.catalog.store) (operations : List Operation)
    (ensures : ∀ operation : Operation, rules.Ensures (fun _ _ _ => True)
      (operation.routine disk context.catalog.tables) context.catalog.store ∅) :
    rules.Follows (fun _ _ _ _ => True) (context.pool disk operations) fun _ => ∅ := by
  refine Sharing.Follows.start lawful fun number routine present => ?_
  rw [pool, List.getElem?_map, Option.map_eq_some_iff] at present
  obtain ⟨operation, -, rfl⟩ := present
  exact ensures operation

/-- Operations side by side go by the rules for what is kept as long as they go by those for ids,
    which tell how many ids are left. -/
theorem sound_run (idempotent : disk.IsIdempotent) (sound : context.Sound disk)
    (operations : List Operation) (schedule : List Nat)
    (few : (context.pool disk operations).state.nextId.toNat +
      (draws (context.pool disk operations) schedule).length < UInt32.size) :
    (faithful disk context.catalog.tables).Lawful
        ((context.pool disk operations).run schedule).state ∧
      ((context.pool disk operations).run schedule).state.nextId.toNat =
        (context.pool disk operations).state.nextId.toNat +
          (draws (context.pool disk operations) schedule).length := by
  have follows : (rules disk.canonicalize).Follows (fun _ _ _ _ => True)
      (context.pool disk operations) fun _ => ∅ := by
    refine follows_pool sound.1 operations fun operation => ?_
    exact (ensures_routine idempotent _ (reads_call operation).canonicalizes _).weaken
      fun _ _ _ _ => True.intro
  have within : ∀ earlier, earlier <+: schedule →
      ((context.pool disk operations).run earlier).state.nextId ≠ 0 := by
    rintro earlier ⟨later, rfl⟩
    rw [draws_append, List.length_append] at few
    obtain ⟨-, held, reached, -⟩ := follows_run follows earlier (by omega)
    exact reached.lawful.started
  have faithfully : (faithful disk context.catalog.tables).Follows (fun _ _ _ _ => True)
      (context.pool disk operations) fun _ => ∅ :=
    follows_pool sound operations fun operation =>
      faithful_ensures_routine idempotent (reads_call operation) _
  obtain ⟨-, held, reached⟩ := faithfully.run schedule within
  exact ⟨reached.lawful, nextId_run follows schedule few⟩

theorem Sound.stage (idempotent : disk.IsIdempotent) (sound : context.Sound disk) (stage : Stage)
    (few : context.catalog.store.nextId.toNat + context.stageLoads disk stage < UInt32.size) :
    (context.stage disk stage).Sound disk ∧
      (context.stage disk stage).catalog.store.nextId.toNat =
        context.catalog.store.nextId.toNat + context.stageLoads disk stage := by
  cases stage with
  | alone operation =>
    have ensures := @faithful_ensures_routine disk context.catalog.tables _ idempotent
      (operation.call disk) (reads_call operation) context.catalog.store
    obtain ⟨lawful, value, -⟩ := faithful_draws.run ensures sound nofun few
    rw [Context.stage, perform_eq]
    exact ⟨lawful, value⟩
  | together operations schedule => exact sound_run idempotent sound operations schedule few

theorem Sound.after (idempotent : disk.IsIdempotent) (sound : context.Sound disk)
    (stages : List Stage)
    (few : context.catalog.store.nextId.toNat + context.loads disk stages < UInt32.size) :
    (context.after disk stages).Sound disk ∧
      (context.after disk stages).catalog.store.nextId.toNat =
        context.catalog.store.nextId.toNat + context.loads disk stages := by
  induction stages generalizing context with
  | nil => exact ⟨sound, rfl⟩
  | cons first rest ih =>
    rw [loads, ← Nat.add_assoc] at few ⊢
    obtain ⟨sound_first, value⟩ := sound.stage idempotent first (by omega)
    rw [← value] at few ⊢
    exact ih sound_first few

/-- The answers of a context that keeps what the files have are those that are read from the
    files. -/
theorem Sound.reply (idempotent : disk.IsIdempotent) (sound : context.Sound disk) (query : Query)
    (few : context.catalog.store.nextId.toNat + context.stageLoads disk (.alone (.ask query)) <
      UInt32.size) :
    query.reply disk context = query.uncached disk context := by
  have listed : ∀ name, context.catalog.store.nextId.toNat + (ModuleStore.candidates disk
      context.catalog.tables.paths name).loads context.catalog.store < UInt32.size →
      (context.candidates disk name).1.map (Option.map (List.map Module.withoutId)) =
        candidatesAt disk context.catalog.tables.paths name := by
    intro name few_names
    obtain ⟨-, -, kept, same⟩ :=
      faithful_draws.run (faithful_ensures_candidates idempotent name _) sound nofun few_names
    exact same.symm
  rw [stageLoads, Operation.routine, Operation.call] at few
  cases query with
  | candidates name =>
    rw [Query.call, Call.routine, Routine.loads_map] at few
    exact congrArg Reply.candidates (listed name few)
  | resolve request strict =>
    rw [Query.call, Call.routine, Routine.loads_map] at few
    refine congrArg Reply.resolve ?_
    rw [← listed request.name few]
    exact Resolver.answer_withoutId _ request strict _
  | fromPath path =>
    rw [Query.call, Call.routine, Routine.loads_map] at few
    obtain ⟨-, -, kept, -, same⟩ :=
      faithful_draws.run (faithful_ensures_fromPath idempotent path _) sound nofun few
    exact congrArg Reply.fromPath same

theorem sound_anew {others : Nat} (few : others < UInt32.size - 1) :
    (context.anew others).Sound disk ∧
      (context.anew others).catalog.store.nextId.toNat = others + 1 := by
  have value : (UInt32.ofNat (others + 1)).toNat = others + 1 :=
    UInt32.toNat_ofNat_of_lt' (by omega)
  have lawful : Lawful disk.canonicalize { nextId := UInt32.ofNat (others + 1) } :=
    { lawful_start with started := ne_zero_of_toNat value, drawn := nofun }
  exact ⟨⟨lawful, truthful_start _⟩, value⟩

end

/-- Whatever has been asked of a context before, it answers as one does that is built anew, and as
    the files have it. -/
theorem caching_unobservable [Image.Parser] (idempotent : disk.IsIdempotent) (context : Context)
    (earlier : List Stage) (query : Query) (others : Nat)
    (few : (context.anew 0).loads disk (earlier ++ [.alone (.ask query)]) < UInt32.size - 1)
    (few_others : others + (context.anew others).loads disk [.alone (.ask query)] <
      UInt32.size - 1) :
    query.reply disk ((context.anew 0).after disk earlier) =
        query.reply disk (context.anew others) ∧
      query.reply disk (context.anew others) = query.uncached disk context := by
  rw [loads_append] at few
  simp only [loads, Nat.add_zero] at few few_others
  obtain ⟨sound, first⟩ := @sound_anew disk context _ 0 (by omega)
  obtain ⟨sound_others, first_others⟩ := @sound_anew disk context _ others (by omega)
  obtain ⟨sound_after, value⟩ := sound.after idempotent earlier (by omega)
  have used := sound_after.reply idempotent query (by omega)
  have unused := sound_others.reply idempotent query (by omega)
  rw [uncached_after, uncached_anew] at used
  rw [uncached_anew] at unused
  exact ⟨used.trans unused.symm, unused⟩

open scoped Image.Container

/-- A request that fails loads the module, and a lookup keeps it under one spelling of its name
    while another is on its way. -/
def partStages : List Stage :=
  [.alone (.ask (.resolve { name := "Other" } true)),
    .together [.ask (.candidates "part"), .ask (.candidates "PART")] [0, 1, 0, 1, 0, 0, 0, 0, 0, 0],
    .alone (.preload [1, 0, 1])]

theorem respelled_name_answered :
    ((Query.candidates "pART").reply smallFiles ((partContext.anew 0).after smallFiles partStages) =
        (Query.candidates "pART").reply smallFiles (partContext.anew 4) ∧
      (Query.candidates "pART").reply smallFiles (partContext.anew 4) =
        (Query.candidates "pART").uncached smallFiles partContext) ∧
    (Query.candidates "pART").uncached smallFiles partContext =
      .candidates ((Module.ofBytes ⟨0⟩ "/Part.netmodule" smallImage).map fun part => some [part]) := by
  refine ⟨?_, by decide +kernel⟩
  apply caching_unobservable smallFiles_idempotent
  · decide +kernel
  · decide +kernel

end Context

end Managed
