import Managed.Proofs.CatalogRuns
import Managed.Proofs.CountedRuns

namespace Managed

namespace ModuleStore

variable {store start final : ModuleStore} {placed : Path → Module → Prop}

def Listed (store : ModuleStore) : Prop :=
  ∀ loaded ∈ store.paths.values, (loaded.id, loaded) ∈ store.ids.entries

theorem entries_later (later : (rulesBy placed).Later start final) :
    start.paths.entries <+: final.paths.entries ∧ start.ids.entries <+: final.ids.entries ∧
      start.names.entries <+: final.names.entries :=
  later.keep (fun store => start.paths.entries <+: store.paths.entries ∧
      start.ids.entries <+: store.ids.entries ∧ start.names.entries <+: store.names.entries)
    (fun _ _ moves grown => ⟨grown.1.trans moves.paths, grown.2.1.trans moves.ids,
      grown.2.2.trans moves.names⟩) ⟨List.prefix_rfl, List.prefix_rfl, List.prefix_rfl⟩

/-- A store as it is while no lookup is on its way. -/
structure Rests (placed : Path → Module → Prop) (store : ModuleStore) : Prop where
  lawful : LawfulBy placed store
  listed : store.Listed

theorem rests_start {others : Nat} (few : others + 1 < UInt32.size) :
    Rests placed { nextId := UInt32.ofNat (others + 1) } where
  lawful := { Catalog.lawful_start with
    started := ne_zero_of_toNat (UInt32.toNat_ofNat_of_lt' few)
    drawn := nofun }
  listed := nofun

def Accounts (store final : ModuleStore) (kept : Set Claim) : Prop :=
  ∀ loaded ∈ final.paths.values, loaded ∈ store.paths.values ∨ .visible loaded ∈ kept

theorem accounts_step {before after : ModuleStore} {held kept : Set Claim}
    (allowed : (rulesBy placed).Allows before held after kept)
    (accounts : Accounts store before held) :
    Accounts store after kept := by
  intro loaded seen
  rcases allowed.tracks.shows loaded seen with old | new
  · exact (accounts loaded old).imp_right (allowed.tracks.stays loaded)
  · exact .inr new

end ModuleStore

namespace Catalog

open ModuleStore

variable [Image.Parser] {store : ModuleStore} {call : Call} {tables : PathTables}
  {placed : Path → Module → Prop}

theorem rests_call (looks : call.LooksAt (Fits placed)) (rests : store.Rests placed)
    (few : store.nextId.toNat + (call.routine tables).loads store < UInt32.size) :
    ((call.routine tables).run store).2.Rests placed ∧
      ((call.routine tables).run store).2.nextId.toNat =
        store.nextId.toNat + (call.routine tables).loads store ∧
      (rulesBy placed).Later store ((call.routine tables).run store).2 := by
  have ensures := (ensures_call tables looks store).later
  have begins : Accounts store store ∅ := fun _ old => .inl old
  obtain ⟨lawful, nextId, kept, accounts, later, posted, -⟩ := rules_draw.run_keeping
    (fun _ _ _ _ => accounts_step) ensures rests.lawful nofun begins few
  refine ⟨⟨lawful, fun loaded seen => ?_⟩, nextId, later⟩
  rcases accounts loaded seen with old | new
  · exact id_later later (rests.listed loaded old)
  · exact posted loaded new

end Catalog

namespace Context

open ModuleStore Catalog

structure Moment where
  files : FileSystem
  operation : Operation

variable {context : Context} {moments : List Moment} {placed : Path → Module → Prop}

theorem looksAt_call {stated : FileSystem → Prop} {files : FileSystem} (operation : Operation)
    (holds : stated files) : (operation.call files).LooksAt stated := by
  cases operation with
  | ask query => cases query <;> exact holds
  | byId id => exact True.intro
  | openModule path expected => exact holds
  | preload schedule => exact holds
  | elsewhere => exact True.intro

structure Roomy (placed : Path → Module → Prop) (context : Context) (more : Nat) : Prop where
  rests : context.catalog.store.Rests placed
  room : context.catalog.store.nextId.toNat + more < UInt32.size

theorem roomy_anew {others more : Nat} (few : others + more < UInt32.size - 1) :
    (context.anew others).Roomy placed more where
  rests := rests_start (by omega)
  room := by
    have first : (context.anew others).catalog.store.nextId.toNat = others + 1 :=
      UInt32.toNat_ofNat_of_lt' (by omega)
    omega

variable [Image.Parser]

def course (context : Context) (moments : List Moment) : Context :=
  moments.foldl (fun context moment => context.perform moment.files moment.operation) context

def courseLoads : (context : Context) → (moments : List Moment) → Nat
  | _, [] => 0
  | context, moment :: rest =>
    (moment.operation.routine moment.files context.catalog.tables).loads context.catalog.store +
      courseLoads (context.perform moment.files moment.operation) rest

theorem course_cons (moment : Moment) (rest : List Moment) :
    context.course (moment :: rest) =
      (context.perform moment.files moment.operation).course rest := rfl

theorem courseLoads_append (earlier later : List Moment) :
    context.courseLoads (earlier ++ later) =
      context.courseLoads earlier + (context.course earlier).courseLoads later := by
  induction earlier generalizing context with
  | nil => exact (Nat.zero_add _).symm
  | cons moment rest ih => rw [List.cons_append, courseLoads, courseLoads, ih, Nat.add_assoc,
      course_cons]

theorem tables_course : (context.course moments).catalog.tables = context.catalog.tables := by
  induction moments generalizing context with
  | nil => rfl
  | cons moment rest ih =>
    rw [course_cons, ih, perform_eq]
    rfl

theorem Roomy.course {more : Nat}
    (roomy : context.Roomy placed (context.courseLoads moments + more))
    (fits : ∀ moment ∈ moments, Fits placed moment.files) :
    (context.course moments).Roomy placed more ∧
      (rulesBy placed).Later context.catalog.store (context.course moments).catalog.store := by
  induction moments generalizing context with
  | nil =>
    have room := roomy.room
    rw [courseLoads, Nat.zero_add] at room
    exact ⟨⟨roomy.rests, room⟩, Sharing.Later.refl _⟩
  | cons moment rest ih =>
    have both := List.forall_mem_cons.mp fits
    have room := roomy.room
    rw [courseLoads, Operation.routine] at room
    obtain ⟨rests_first, nextId, later⟩ := @rests_call _ context.catalog.store
      (moment.operation.call moment.files) context.catalog.tables placed
      (looksAt_call moment.operation both.1) roomy.rests (by omega)
    have store_eq : (context.perform moment.files moment.operation).catalog.store =
        ((moment.operation.routine moment.files context.catalog.tables).run
          context.catalog.store).2 := by
      rw [perform_eq]
      rfl
    rw [← Operation.routine, ← store_eq] at rests_first nextId later
    rw [← Operation.routine] at room
    obtain ⟨roomy_last, onward⟩ := ih ⟨rests_first, by omega⟩ both.2
    exact ⟨roomy_last, later.trans onward⟩

end Context

end Managed
