import Managed.Proofs.Interleaving
import Managed.Proofs.LookupNotes
import Managed.Proofs.Publication
import Managed.Proofs.RoutineCharges

namespace Managed

namespace Routine

variable {σ α β : Type}

def Alone (post : α → Prop) (routine : Routine σ α) : Prop := ∀ state, post (routine.run state).1

theorem Alone.pure {post : α → Prop} {result : α} (holds : post result) :
    (Pure.pure result : Routine σ α).Alone post := fun _ => holds

theorem Alone.bind {middle : α → Prop} {post : β → Prop} {routine : Routine σ α}
    {continuation : α → Routine σ β} (first : routine.Alone middle)
    (rest : ∀ result, middle result → (continuation result).Alone post) :
    (routine >>= continuation).Alone post := by
  intro state
  change post (Routine.run (Routine.bind _ _) state).1
  rw [run_bind]
  exact rest _ (first state) _

theorem Alone.sequence {post : α → Prop} {routines : List (Routine σ α)}
    (each : ∀ routine ∈ routines, routine.Alone post) :
    (Routine.sequence routines).Alone fun results => ∀ result ∈ results, post result := by
  induction routines with
  | nil => exact .pure (List.forall_mem_nil _)
  | cons first rest ih =>
    obtain ⟨first_alone, others⟩ := List.forall_mem_cons.mp each
    refine first_alone.bind fun result holds => (ih others).bind fun results onward => .pure ?_
    exact List.forall_mem_cons.mpr ⟨holds, onward⟩

end Routine

section

variable {σ τ κ ν ε η : Type} [DecidableEq κ] {part : Part σ (Cache κ ν)} {key : κ}
  {create : Routine σ (Except ε ν × List η)}

theorem Routine.Leaves.getOrTryCreateNoted {look : σ → τ} (created : create.Leaves look)
    (apart : ∀ state cache, look (part.set state cache) = look state) (key : κ) :
    (Cache.getOrTryCreateNoted part key create).Leaves look := by
  have step {α : Type} (act : Cache κ ν → α × Cache κ ν) : (part.atomic act).Leaves look :=
    .atomic fun state => apart state _
  refine (step _).bind fun found => ?_
  cases found with
  | some value => exact .pure _
  | none =>
    refine (step _).bind fun _ => created.bind fun made => ?_
    obtain ⟨outcome, notes⟩ := made
    cases outcome with
    | error error => exact .pure _
    | ok value => exact (step _).bind fun published => .pure _

end

namespace ModuleStore

variable [Image.Parser] {files : FileSystem} {store : ModuleStore}

end ModuleStore

namespace Catalog.Call

open ModuleStore

def IsSequential : Call → Prop
  | preload _ schedule => schedule = []
  | _ => True

variable [Image.Parser] {tables : PathTables} {call : Call}

end Catalog.Call

end Managed
