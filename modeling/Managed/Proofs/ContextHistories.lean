import Managed.Context.Builder
import Managed.Proofs.CatalogCalls
import Managed.Proofs.UncachedCatalog

namespace Managed

/-- The number of ids that a routine draws with nobody else around, one for each module loaded. -/
def Routine.loads {α : Type} : Routine ModuleStore α → ModuleStore → Nat
  | .done _, _ => 0
  | .step act next, store =>
    (if (act store).nextId = store.nextId then 0 else 1) + (next store).loads (act store)

namespace Context

inductive Query where
  | candidates (name : String)
  | resolve (request : Request) (strict : Bool)
  | fromPath (path : Path)

inductive Reply where
  | candidates (outcome : Except Error (Option (List Module)))
  | resolve (outcome : Except Error (Option Module))
  | fromPath (outcome : Except Error Module)
deriving DecidableEq

inductive Operation where
  | ask (query : Query)
  | byId (id : ModuleId)
  | openModule (path : Path) (expected : Option String)
  | preload (schedule : List Nat)
  /-- A module is loaded in the same process for somebody who does not use the context. -/
  | elsewhere

inductive Stage where
  | alone (operation : Operation)
  | together (operations : List Operation) (schedule : List Nat)

def withStore (context : Context) (store : ModuleStore) : Context :=
  { context with catalog := { context.catalog with store } }

/-- The context as it is built in a process that has loaded some modules for others. -/
def anew (context : Context) (others : Nat) : Context :=
  context.withStore { nextId := UInt32.ofNat (others + 1) }

namespace Query

variable [Image.Parser]

def reply (disk : FileSystem) (context : Context) : Query → Reply
  | candidates name => .candidates
    ((context.candidates disk name).1.map (Option.map (List.map Module.withoutId)))
  | resolve request strict => .resolve
    ((context.resolve disk request strict).1.map (Option.map Module.withoutId))
  | fromPath path => .fromPath ((context.fromPath disk path).1.map Module.withoutId)

def uncached (disk : FileSystem) (context : Context) : Query → Reply
  | candidates name => .candidates (ModuleStore.candidatesAt disk context.catalog.tables.paths name)
  | resolve request strict => .resolve (Resolver.forgive strict
    (context.resolver.answer request strict
      (ModuleStore.candidatesAt disk context.catalog.tables.paths request.name)))
  | fromPath path => .fromPath (ModuleStore.moduleAt disk path)

def call (disk : FileSystem) : Query → Catalog.Call
  | candidates name => .candidates disk name
  | resolve request _ => .candidates disk request.name
  | fromPath path => .fromPath disk path

end Query

namespace Operation

def call (disk : FileSystem) : Operation → Catalog.Call
  | ask query => query.call disk
  | byId id => .byId id
  | openModule path expected => .openModule disk path expected
  | preload schedule => .preload disk schedule
  | elsewhere => .elsewhere

variable [Image.Parser]

def routine (disk : FileSystem) (tables : PathTables) (operation : Operation) :
    Routine ModuleStore Catalog.Answer :=
  (operation.call disk).routine tables

end Operation

variable [Image.Parser]

def perform (disk : FileSystem) (context : Context) : Operation → Context
  | .ask (.candidates name) => (context.candidates disk name).2
  | .ask (.resolve request strict) => (context.resolve disk request strict).2
  | .ask (.fromPath path) => (context.fromPath disk path).2
  | .byId id => (context.byId id).2
  | .openModule path expected => (context.openModule disk path expected).2
  | .preload schedule => (context.preload disk schedule).2
  | .elsewhere => context.withStore (ModuleStore.drawId.run context.catalog.store).2

def pool (disk : FileSystem) (context : Context) (operations : List Operation) :
    Pool ModuleStore Catalog.Answer :=
  ⟨context.catalog.store, operations.map (Operation.routine disk context.catalog.tables)⟩

def stage (disk : FileSystem) (context : Context) : Stage → Context
  | .alone operation => context.perform disk operation
  | .together operations schedule =>
    context.withStore ((context.pool disk operations).run schedule).state

def after (disk : FileSystem) (context : Context) (stages : List Stage) : Context :=
  stages.foldl (stage disk) context

def stageLoads (disk : FileSystem) (context : Context) : Stage → Nat
  | .alone operation =>
    (operation.routine disk context.catalog.tables).loads context.catalog.store
  | .together operations schedule =>
    (Catalog.draws (context.pool disk operations) schedule).length

def loads (disk : FileSystem) : (context : Context) → (stages : List Stage) → Nat
  | _, [] => 0
  | context, first :: rest =>
    context.stageLoads disk first + loads disk (context.stage disk first) rest

variable {disk : FileSystem} {context : Context}

theorem perform_eq (operation : Operation) :
    context.perform disk operation =
      context.withStore ((operation.routine disk context.catalog.tables).run
        context.catalog.store).2 := by
  unfold perform Operation.routine Operation.call
  cases operation with
  | ask query =>
    cases query <;>
      simp only [Query.call, Catalog.Call.routine, Routine.run_map, candidates, resolve, fromPath,
        Resolver.resolve, withCatalog, Catalog.candidates, Catalog.fromPath, Catalog.perform,
        withStore]
  | byId id =>
    simp only [Catalog.Call.routine, Routine.run_map, byId, withCatalog, Catalog.byId,
      Catalog.perform, withStore]
  | openModule path expected =>
    simp only [Catalog.Call.routine, Routine.run_map, openModule, withCatalog, Catalog.openModule,
      Catalog.perform, withStore]
  | preload schedule =>
    simp only [Catalog.Call.routine, Routine.run_map, preload, withCatalog, Catalog.preload,
      Catalog.perform, withStore]
  | elsewhere => simp only [Catalog.Call.routine, Routine.run_map]

/-- A stage changes nothing but the store. -/
theorem stage_eq (stage : Stage) :
    ∃ store, context.stage disk stage = context.withStore store := by
  cases stage with
  | alone operation => exact ⟨_, context.perform_eq operation⟩
  | together operations schedule => exact ⟨_, rfl⟩

theorem after_eq (stages : List Stage) :
    ∃ store, context.after disk stages = context.withStore store := by
  induction stages generalizing context with
  | nil => exact ⟨context.catalog.store, rfl⟩
  | cons first rest ih =>
    obtain ⟨middle, first_eq⟩ := @stage_eq _ disk context first
    obtain ⟨last, rest_eq⟩ := @ih (context.stage disk first)
    refine ⟨last, rest_eq.trans ?_⟩
    rw [first_eq]
    rfl

theorem uncached_withStore (query : Query) (store : ModuleStore) :
    query.uncached disk (context.withStore store) = query.uncached disk context := by
  cases query <;> rfl

theorem uncached_anew (query : Query) (others : Nat) :
    query.uncached disk (context.anew others) = query.uncached disk context :=
  uncached_withStore query _

theorem uncached_after (query : Query) (stages : List Stage) :
    query.uncached disk (context.after disk stages) = query.uncached disk context := by
  obtain ⟨store, same⟩ := @after_eq _ disk context stages
  rw [same, uncached_withStore]

theorem loads_append (earlier later : List Stage) :
    context.loads disk (earlier ++ later) =
      context.loads disk earlier + (context.after disk earlier).loads disk later := by
  induction earlier generalizing context with
  | nil => simp [loads, after]
  | cons first rest ih =>
    have tail := @ih (context.stage disk first)
    simp only [List.cons_append, loads, tail, Nat.add_assoc]
    rfl

/-- The file of `Part` is listed under two spellings of that name, and under another name. -/
def partContext : Context where
  config := {}
  catalog.tables.inputs :=
    .ofRegistrations [("Part", "/link"), ("Other", "/link"), ("PART", "/Part.netmodule")]
  factory := SymbolFactory.silent

end Context

/-- A context is built with nothing loaded. -/
theorem Builder.anew_of_build {builder : Builder} {context : Context}
    (built : builder.build = .ok context) : context.anew 0 = context := by
  unfold build at built
  split at built
  · cases built
  · cases inputs_eq : table builder.inputs with
    | error error =>
      rw [inputs_eq] at built
      cases built
    | ok inputs =>
      cases references_eq : table builder.references with
      | error error =>
        rw [inputs_eq, references_eq] at built
        cases built
      | ok references =>
        rw [inputs_eq, references_eq] at built
        cases built
        rfl

end Managed
