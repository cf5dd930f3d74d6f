import Managed.Catalog.Basic
import Managed.Proofs.Sharing

namespace Managed.Catalog

inductive Call where
  | fromPath (files : FileSystem) (path : Path)
  | candidates (files : FileSystem) (name : String)
  | byId (id : ModuleId)
  | openModule (files : FileSystem) (path : Path) (expected : Option String)
  | preload (files : FileSystem) (schedule : List Nat)
  /-- A module is loaded in the same process for somebody who does not use the catalog. -/
  | elsewhere

inductive Answer where
  | fromPath (outcome : Except Error Module)
  | candidates (outcome : Except Error (Option (List Module)))
  | byId (outcome : Option Module)
  | openModule (outcome : Except Error Module)
  | preload (failures : List Error)
  | elsewhere (id : ModuleId)

def Answer.handed : Answer → List Module
  | .fromPath (.ok loaded) => [loaded]
  | .candidates (.ok (some found)) => found
  | .byId (some loaded) => [loaded]
  | _ => []

/-- The ids that are drawn in a run, one for each module that is loaded, with the numbers of the
    calls that draw them. -/
def draws : Pool ModuleStore Answer → (schedule : List Nat) → List (Nat × ModuleId)
  | _, [] => []
  | pool, number :: rest =>
    if (pool.advance number).state.nextId = pool.state.nextId then draws (pool.advance number) rest
    else (number, ⟨pool.state.nextId⟩) :: draws (pool.advance number) rest

def Shows (pool : Pool ModuleStore Answer) (loaded : Module) : Prop :=
  (∃ (number : Nat) (answer : Answer),
    pool.results[number]? = some (some answer) ∧ loaded ∈ answer.handed) ∨
    loaded ∈ pool.state.ids.values

theorem draws_append (pool : Pool ModuleStore Answer) (earlier later : List Nat) :
    draws pool (earlier ++ later) = draws pool earlier ++ draws (pool.run earlier) later := by
  induction earlier generalizing pool with
  | nil => rfl
  | cons number rest ih =>
    have tail := ih (pool.advance number)
    simp only [List.cons_append, draws, tail]
    split
    · rfl
    · rfl

section

variable [Image.Parser]

namespace Call

def routine (tables : PathTables) : Call → Routine ModuleStore Answer
  | fromPath files path => (ModuleStore.fromPath files path).map .fromPath
  | candidates files name => (ModuleStore.candidates files tables.paths name).map .candidates
  | byId id => (ModuleStore.byId id).map .byId
  | openModule files path expected => (ModuleStore.openModule files path expected).map .openModule
  | preload files schedule =>
    (ModuleStore.preload files tables.paths tables.inputs.names schedule).map .preload
  | elsewhere => ModuleStore.drawId.map .elsewhere

def Canonicalizes (canonicalize : Path → Except FileError Path) : Call → Prop
  | fromPath files _ => files.canonicalize = canonicalize
  | candidates files _ => files.canonicalize = canonicalize
  | byId _ => True
  | openModule files _ _ => files.canonicalize = canonicalize
  | preload files _ => files.canonicalize = canonicalize
  | elsewhere => True

end Call

/-- Calls side by side on a catalog that has loaded nothing yet. The calls of one caller may be any
    of them, of which each begins after the one before has ended. -/
def pool (tables : PathTables) (calls : List Call) : Pool ModuleStore Answer :=
  ⟨{}, calls.map (Call.routine tables)⟩

theorem pool_routine {tables : PathTables} {calls : List Call} {number : Nat}
    {routine : Routine ModuleStore Answer}
    (present : (pool tables calls).routines[number]? = some routine) :
    ∃ call, calls[number]? = some call ∧ routine = call.routine tables := by
  rw [pool, List.getElem?_map, Option.map_eq_some_iff] at present
  obtain ⟨call, found, same⟩ := present
  exact ⟨call, found, same.symm⟩

end

def smallImage : Bytes :=
  let zeros (count : Nat) : Bytes := List.replicate count 0
  -- The headers up to the directories, of which only the last but one is there.
  [0x4D, 0x5A] ++ zeros 58 ++ [0x40, 0, 0, 0] ++
  [0x50, 0x45, 0, 0, 0x4C, 1, 1, 0] ++ zeros 12 ++ [0xE0, 0, 0, 0] ++
  [0x0B, 1] ++ zeros 34 ++ [0, 2, 0, 0] ++ zeros 52 ++ [16, 0, 0, 0] ++ zeros 112 ++
  [0x60, 1, 0, 0, 72, 0, 0, 0] ++ zeros 8 ++
  -- The section, which begins with the file, and the header that leads to the metadata.
  zeros 8 ++ [0x10, 2, 0, 0] ++ zeros 4 ++ [0x10, 2, 0, 0] ++ zeros 20 ++
  [72, 0, 0, 0, 2, 0, 5, 0, 0xA8, 1, 0, 0, 0x68, 0, 0, 0] ++ zeros 56 ++
  -- The metadata with the headers of two streams, the tables and the names.
  [0x42, 0x53, 0x4A, 0x42, 1, 0, 1, 0, 0, 0, 0, 0, 4, 0, 0, 0, 0x76, 0x34, 0, 0, 0, 0, 2, 0] ++
  [0x38, 0, 0, 0, 0x28, 0, 0, 0, 0x23, 0x7E, 0, 0] ++
  [0x60, 0, 0, 0, 8, 0, 0, 0, 0x23, 0x53, 0x74, 0x72, 0x69, 0x6E, 0x67, 0x73, 0, 0, 0, 0] ++
  [0, 0, 0, 0, 2, 0, 0, 1, 1] ++ zeros 15 ++ [1, 0, 0, 0, 0, 0, 1, 0] ++ zeros 8 ++
  [0, 0x50, 0x61, 0x72, 0x74, 0, 0, 0]

def smallFiles : FileSystem where
  canonicalize path := .ok (if path = "/link" then "/Part.netmodule" else path)
  read _ := .ok smallImage
  isFile _ := true

theorem smallFiles_idempotent : smallFiles.IsIdempotent := by
  intro path canonical at_path
  cases at_path
  by_cases link : path = "/link"
  · simp [smallFiles, link]
  · simp [smallFiles, link]

end Managed.Catalog
