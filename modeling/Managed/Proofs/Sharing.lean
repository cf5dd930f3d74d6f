import Mathlib.Data.Set.Lattice
import Mathlib.Logic.Function.Basic
import Mathlib.Logic.Relation
import Managed.Routine

namespace Managed

/-- What those who share a state rely on and owe to each other. A claim is a fact about the state
    that nobody but its holder undoes. -/
structure Sharing (σ τ : Type) where
  Lawful : σ → Prop
  Moves : σ → σ → Prop
  Holds : τ → σ → Prop
  /-- What the claims before and after a step tell of the step. -/
  Tracks : σ → Set τ → σ → Set τ → Prop
  tracks_union : ∀ before held after kept extra, Tracks before held after kept →
    Tracks before (held ∪ extra) after (kept ∪ extra)
  /-- Runs are looked at only as long as they stay in such states. -/
  Within : σ → Prop

namespace Pool

variable {σ α : Type} {pool : Pool σ α}

theorem advance_idle {number : Nat}
    (idle : ∀ act next, pool.routines[number]? ≠ some (.step act next)) :
    pool.advance number = pool := by
  unfold advance
  split
  · rename_i act next found
    exact absurd found (idle act next)
  · rfl

theorem advance_step {number : Nat} {act : σ → σ} {next : σ → Routine σ α}
    (found : pool.routines[number]? = some (.step act next)) :
    pool.advance number =
      ⟨act pool.state, pool.routines.set number (next pool.state)⟩ := by
  simp only [advance, found]

theorem advance_other {number other : Nat} (differs : other ≠ number) :
    (pool.advance number).routines[other]? = pool.routines[other]? := by
  by_cases active : ∃ act next, pool.routines[number]? = some (.step act next)
  · obtain ⟨act, next, found⟩ := active
    rw [advance_step found]
    exact List.getElem?_set_ne (Ne.symm differs)
  · rw [advance_idle fun act next found => active ⟨act, next, found⟩]

theorem run_append (pool : Pool σ α) (earlier later : List Nat) :
    pool.run (earlier ++ later) = (pool.run earlier).run later := List.foldl_append

theorem run_other {schedule : List Nat} {number : Nat} (unnamed : number ∉ schedule) :
    (pool.run schedule).routines[number]? = pool.routines[number]? := by
  induction schedule generalizing pool with
  | nil => rfl
  | cons first rest ih =>
    rw [List.mem_cons, not_or] at unnamed
    exact (ih unnamed.2).trans (advance_other unnamed.1)

theorem results_eq_some {number : Nat} {result : α} :
    pool.results[number]? = some (some result) ↔
      pool.routines[number]? = some (.done result) := by
  rw [results, List.getElem?_map, Option.map_eq_some_iff]
  constructor
  · intro finished
    obtain ⟨routine, present, ended⟩ := finished
    cases routine with
    | done value =>
      cases ended
      exact present
    | step act next => cases ended
  · exact fun present => ⟨_, present, rfl⟩

theorem results_run (schedule : List Nat) {number : Nat} {result : α}
    (ended : pool.results[number]? = some (some result)) :
    (pool.run schedule).results[number]? = some (some result) := by
  induction schedule generalizing pool with
  | nil => exact ended
  | cons first rest ih =>
    apply ih
    by_cases same : number = first
    · subst same
      rw [advance_idle fun act next found => ?_]
      · exact ended
      · rw [results_eq_some.mp ended] at found
        cases found
    · rw [results_eq_some] at ended ⊢
      exact (advance_other same).trans ended

end Pool

namespace Sharing

variable {σ τ α β : Type} (rules : Sharing σ τ)

def Later : σ → σ → Prop := Relation.ReflTransGen rules.Moves

structure Allows (before : σ) (held : Set τ) (after : σ) (kept : Set τ) : Prop where
  moves : rules.Moves before after
  tracks : rules.Tracks before held after kept
  fresh : ∀ claim ∈ kept, claim ∈ held ∨ ¬ rules.Holds claim before
  lawful : rules.Within after → rules.Lawful after
  holds : rules.Within after → ∀ claim ∈ kept, rules.Holds claim after
  spared : rules.Within after → ∀ claim ∉ held, rules.Holds claim before → rules.Holds claim after

/-- A state that somebody with the claims `held` may find when the others have taken steps. -/
structure Reaches (state : σ) (held : Set τ) (found : σ) : Prop where
  later : rules.Later state found
  lawful : rules.Lawful found
  holds : ∀ claim ∈ held, rules.Holds claim found

/-- Every step that the routine takes is allowed, whatever the others do between its steps, and its
    result is as stated when it ends. -/
def Ensures (post : σ → Set τ → α → Prop) : Routine σ α → (state : σ) → (held : Set τ) → Prop
  | .done result, state, held => post state held result
  | .step act next, state, held =>
    ∀ found, rules.Reaches state held found →
      ∃ kept, rules.Allows found held (act found) kept ∧
        (rules.Within (act found) → Ensures post (next found) (act found) kept)

variable {rules}

theorem Later.refl (state : σ) : rules.Later state state := Relation.ReflTransGen.refl

theorem Later.trans {first second third : σ} (before : rules.Later first second)
    (after : rules.Later second third) : rules.Later first third :=
  Relation.ReflTransGen.trans before after

theorem Later.move {first second : σ} (moves : rules.Moves first second) :
    rules.Later first second := Relation.ReflTransGen.single moves

theorem Later.keep {first last : σ} (later : rules.Later first last) (fact : σ → Prop)
    (step : ∀ before after, rules.Moves before after → fact before → fact after)
    (holds : fact first) : fact last := by
  induction later with
  | refl => exact holds
  | tail _ moves ih => exact step _ _ moves ih

theorem Reaches.trans {first second third : σ} {held : Set τ}
    (before : rules.Reaches first held second) (after : rules.Reaches second held third) :
    rules.Reaches first held third :=
  ⟨before.later.trans after.later, after.lawful, after.holds⟩

theorem Allows.reaches {before after : σ} {held kept : Set τ}
    (allowed : rules.Allows before held after kept) (within : rules.Within after) :
    rules.Reaches before kept after :=
  ⟨Later.move allowed.moves, allowed.lawful within, allowed.holds within⟩

theorem Allows.drop {before after : σ} {held kept fewer : Set τ}
    (allowed : rules.Allows before held after kept) (sub : fewer ⊆ kept)
    (tracks : rules.Tracks before held after fewer) : rules.Allows before held after fewer where
  moves := allowed.moves
  tracks := tracks
  fresh := fun claim member => allowed.fresh claim (sub member)
  lawful := allowed.lawful
  holds := fun within claim member => allowed.holds within claim (sub member)
  spared := allowed.spared

theorem Ensures.weaken {post weaker : σ → Set τ → α → Prop} {routine : Routine σ α} {state : σ}
    {held : Set τ} (ensures : rules.Ensures post routine state held)
    (implies : ∀ final kept result, post final kept result → weaker final kept result) :
    rules.Ensures weaker routine state held := by
  induction routine generalizing state held with
  | done result => exact implies _ _ _ ensures
  | step act next ih =>
    intro found reached
    obtain ⟨kept, allowed, rest⟩ := ensures found reached
    exact ⟨kept, allowed, fun within => ih found (rest within)⟩

theorem Ensures.bind {middle : σ → Set τ → α → Prop} {post : σ → Set τ → β → Prop}
    {routine : Routine σ α} {continuation : α → Routine σ β} {state : σ} {held : Set τ}
    (first : rules.Ensures middle routine state held)
    (second : ∀ final kept result, middle final kept result →
      rules.Ensures post (continuation result) final kept) :
    rules.Ensures post (routine >>= continuation) state held := by
  change rules.Ensures post (routine.bind continuation) state held
  induction routine generalizing state held with
  | done result => exact second _ _ _ first
  | step act next ih =>
    intro found reached
    obtain ⟨kept, allowed, rest⟩ := first found reached
    exact ⟨kept, allowed, fun within => ih found (rest within)⟩

theorem Ensures.of_map {post : σ → Set τ → β → Prop} {routine : Routine σ α} {f : α → β} {state : σ}
    {held : Set τ} (ensures : rules.Ensures post (routine.map f) state held) :
    rules.Ensures (fun final kept result => post final kept (f result)) routine state held := by
  induction routine generalizing state held with
  | done result => exact ensures
  | step act next ih =>
    intro found reached
    obtain ⟨kept, allowed, rest⟩ := ensures found reached
    exact ⟨kept, allowed, fun within => ih found (rest within)⟩

theorem Ensures.later {post : σ → Set τ → α → Prop} {routine : Routine σ α} {state : σ}
    {held : Set τ} (ensures : rules.Ensures post routine state held) :
    rules.Ensures (fun final kept result => rules.Later state final ∧ post final kept result)
      routine state held := by
  induction routine generalizing state held with
  | done result => exact ⟨Later.refl _, ensures⟩
  | step act next ih =>
    intro found reached
    obtain ⟨kept, allowed, rest⟩ := ensures found reached
    refine ⟨kept, allowed, fun within => (ih found (rest within)).weaken ?_⟩
    intro final last result ends
    obtain ⟨after, holds⟩ := ends
    exact ⟨(reached.later.trans (Later.move allowed.moves)).trans after, holds⟩

theorem Ensures.pure {post : σ → Set τ → α → Prop} {result : α} {state : σ} {held : Set τ}
    (holds : post state held result) :
    rules.Ensures post (Pure.pure result : Routine σ α) state held := holds

theorem Ensures.atomic {post : σ → Set τ → α → Prop} {act : σ → α × σ} {state : σ} {held : Set τ}
    (step : ∀ found, rules.Reaches state held found →
      ∃ kept, rules.Allows found held (act found).2 kept ∧
        (rules.Within (act found).2 → post (act found).2 kept (act found).1)) :
    rules.Ensures post (Routine.atomic act) state held := step

theorem Ensures.run {post : σ → Set τ → α → Prop} {routine : Routine σ α} {state : σ}
    {held : Set τ} (ensures : rules.Ensures post routine state held)
    (within : ∀ state, rules.Within state) (lawful : rules.Lawful state)
    (holds : ∀ claim ∈ held, rules.Holds claim state) :
    rules.Lawful (routine.run state).2 ∧
      ∃ kept, post (routine.run state).2 kept (routine.run state).1 := by
  induction routine generalizing state held with
  | done result => exact ⟨lawful, held, ensures⟩
  | step act next ih =>
    obtain ⟨kept, allowed, rest⟩ := ensures state ⟨Later.refl _, lawful, holds⟩
    exact ih state (rest (within _)) (allowed.lawful (within _)) (allowed.holds (within _))

/-- Claims that a step has no part in stay held. -/
theorem Allows.frame {before after : σ} {held kept : Set τ}
    (allowed : rules.Allows before held after kept) (extra : Set τ)
    (apart : ∀ claim ∈ extra, claim ∉ held)
    (holds : ∀ claim ∈ extra, rules.Holds claim before) :
    rules.Allows before (held ∪ extra) after (kept ∪ extra) ∧ ∀ claim ∈ extra, claim ∉ kept := by
  constructor
  · constructor
    · exact allowed.moves
    · exact rules.tracks_union _ _ _ _ extra allowed.tracks
    · intro claim member
      rcases member with own | other
      · rcases allowed.fresh claim own with before | unheld
        · exact .inl (.inl before)
        · exact .inr unheld
      · exact .inl (.inr other)
    · exact allowed.lawful
    · intro within claim member
      rcases member with own | other
      · exact allowed.holds within claim own
      · exact allowed.spared within claim (apart claim other) (holds claim other)
    · intro within claim unheld holds
      exact allowed.spared within claim (fun own => unheld (.inl own)) holds
  · -- A claim is taken up only if it did not hold before, and the extra ones hold.
    intro claim other own
    rcases allowed.fresh claim own with before | unheld
    · exact apart claim other before
    · exact unheld (holds claim other)

/-- Claims that a routine has no part in stay held while it runs. -/
theorem Ensures.frame {post : σ → Set τ → α → Prop} {routine : Routine σ α} {state : σ}
    {held : Set τ} (ensures : rules.Ensures post routine state held) (extra : Set τ)
    (apart : ∀ claim ∈ extra, claim ∉ held) :
    rules.Ensures (fun final kept result => ∃ own, kept = own ∪ extra ∧
        (∀ claim ∈ extra, claim ∉ own) ∧ post final own result)
      routine state (held ∪ extra) := by
  induction routine generalizing state held with
  | done result => exact ⟨held, rfl, apart, ensures⟩
  | step act next ih =>
    intro found reached
    have own_reached : rules.Reaches state held found :=
      ⟨reached.later, reached.lawful, fun claim member => reached.holds claim (.inl member)⟩
    obtain ⟨kept, allowed, rest⟩ := ensures found own_reached
    obtain ⟨framed, still_apart⟩ :=
      allowed.frame extra apart fun claim other => reached.holds claim (.inr other)
    exact ⟨_, framed, fun within => ih found (rest within) still_apart⟩

theorem Ensures.hold {fact : σ → α → Prop} {routine : Routine σ α} {state : σ}
    (ensures : rules.Ensures (fun final _ result => fact final result) routine state ∅)
    (held : Set τ) : rules.Ensures (fun final _ result => fact final result) routine state held := by
  have framed := ensures.frame held fun claim _ => Set.notMem_empty claim
  rw [Set.empty_union] at framed
  exact framed.weaken fun _ _ _ ⟨_, _, _, holds⟩ => holds

/-- A routine that could have begun earlier does from now on what it would have done. -/
theorem Ensures.since {post : σ → Set τ → α → Prop} {routine : Routine σ α} {start state : σ}
    {held : Set τ} (ensures : rules.Ensures post routine start held)
    (later : rules.Later start state) :
    rules.Ensures (fun final kept result =>
      ∃ earlier, rules.Later earlier final ∧ post earlier kept result) routine state held := by
  cases routine with
  | done result => exact ⟨start, later, ensures⟩
  | step act next =>
    intro found reached
    obtain ⟨kept, allowed, rest⟩ :=
      ensures found ⟨later.trans reached.later, reached.lawful, reached.holds⟩
    exact ⟨kept, allowed, fun within => (rest within).weaken fun final _ _ holds =>
      ⟨final, Later.refl _, holds⟩⟩

/-- Routines have such claims, no two of them the same, that each of them can go on from an earlier
    state as its postcondition asks. -/
structure Shares (rules : Sharing σ τ) (posts : Nat → σ → Set τ → α → Prop)
    (routines : List (Routine σ α)) (state : σ) (held : Nat → Set τ) : Prop where
  apart : ∀ left right, left ≠ right → ∀ claim ∈ held left, claim ∉ held right
  idle : ∀ number, routines[number]? = none → held number = ∅
  ensures : ∀ number routine, routines[number]? = some routine →
    ∃ start, rules.Later start state ∧ rules.Ensures (posts number) routine start (held number)

structure Follows (rules : Sharing σ τ) (posts : Nat → σ → Set τ → α → Prop) (pool : Pool σ α)
    (held : Nat → Set τ) : Prop extends rules.Shares posts pool.routines pool.state held where
  lawful : rules.Lawful pool.state
  holds : ∀ number, ∀ claim ∈ held number, rules.Holds claim pool.state

variable {posts : Nat → σ → Set τ → α → Prop} {pool : Pool σ α} {held : Nat → Set τ}

theorem Shares.start {routines : List (Routine σ α)} {state : σ}
    (ensures : ∀ number routine, routines[number]? = some routine →
      rules.Ensures (posts number) routine state ∅) :
    rules.Shares posts routines state fun _ => ∅ where
  apart := fun _ _ _ _ none => none.elim
  idle := fun _ _ => rfl
  ensures := fun number routine present => ⟨_, Later.refl _, ensures number routine present⟩

theorem Shares.later {routines : List (Routine σ α)} {state found : σ}
    (shares : rules.Shares posts routines state held) (later : rules.Later state found) :
    rules.Shares posts routines found held where
  apart := shares.apart
  idle := shares.idle
  ensures := fun number routine present => by
    obtain ⟨start, before, ensures⟩ := shares.ensures number routine present
    exact ⟨start, before.trans later, ensures⟩

/-- The claims of all are those of one and those of the others. -/
theorem iUnion_update (held : Nat → Set τ) (number : Nat) (kept : Set τ) :
    ⋃ other, Function.update held number kept other = kept ∪ ⋃ other ≠ number, held other := by
  ext claim
  simp only [Set.mem_union, Set.mem_iUnion]
  constructor
  · rintro ⟨other, member⟩
    by_cases same : other = number
    · subst same
      rw [Function.update_self] at member
      exact .inl member
    · rw [Function.update_of_ne same] at member
      exact .inr ⟨other, same, member⟩
  · rintro (own | ⟨other, differs, member⟩)
    · exact ⟨number, by rwa [Function.update_self]⟩
    · exact ⟨other, by rwa [Function.update_of_ne differs]⟩

/-- A step of one of the routines is allowed to all of them together. -/
theorem Shares.step {routines : List (Routine σ α)} {state found : σ}
    (shares : rules.Shares posts routines state held)
    (reached : rules.Reaches state (⋃ number, held number) found) {number : Nat} {act : σ → σ}
    {next : σ → Routine σ α} (present : routines[number]? = some (.step act next)) :
    ∃ kept, rules.Allows found (⋃ other, held other) (act found)
        (⋃ other, Function.update held number kept other) ∧
      rules.Tracks found (held number) (act found) kept ∧
      (rules.Within (act found) → rules.Shares posts (routines.set number (next found)) (act found)
        (Function.update held number kept)) := by
  obtain ⟨start, later, ensures⟩ := shares.ensures number _ present
  have holds : ∀ other, ∀ claim ∈ held other, rules.Holds claim found := fun other claim member =>
    reached.holds claim (Set.mem_iUnion.mpr ⟨other, member⟩)
  obtain ⟨kept, allowed, rest⟩ :=
    ensures found ⟨later.trans reached.later, reached.lawful, holds number⟩
  obtain ⟨framed, still_apart⟩ := allowed.frame (⋃ other ≠ number, held other)
    (fun claim theirs => by
      obtain ⟨other, differs, theirs⟩ := Set.mem_iUnion₂.mp theirs
      exact shares.apart other number differs claim theirs)
    (fun claim theirs => by
      obtain ⟨other, -, theirs⟩ := Set.mem_iUnion₂.mp theirs
      exact holds other claim theirs)
  have all : ⋃ other, held other = held number ∪ ⋃ other ≠ number, held other := by
    rw [← iUnion_update, Function.update_eq_self]
  have apart_other : ∀ other ≠ number, ∀ claim ∈ held other, claim ∉ kept :=
    fun other differs claim theirs =>
      still_apart claim (Set.mem_iUnion₂.mpr ⟨other, differs, theirs⟩)
  rw [← all, ← iUnion_update] at framed
  refine ⟨kept, framed, allowed.tracks, fun within => ⟨?_, ?_, ?_⟩⟩
  · intro left right differ
    by_cases first : left = number
    · subst first
      rw [Function.update_self, Function.update_of_ne differ.symm]
      exact fun claim own theirs => apart_other right differ.symm claim theirs own
    · by_cases second : right = number
      · subst second
        rw [Function.update_self, Function.update_of_ne differ]
        exact apart_other left differ
      · rw [Function.update_of_ne first, Function.update_of_ne second]
        exact shares.apart left right differ
  · intro other absent
    have differs : other ≠ number := by
      rintro rfl
      rw [List.getElem?_eq_none_iff, List.length_set, ← List.getElem?_eq_none_iff, present] at absent
      cases absent
    rw [List.getElem?_set_ne differs.symm] at absent
    rw [Function.update_of_ne differs]
    exact shares.idle other absent
  · intro other routine there
    by_cases same : other = number
    · subst same
      have inside : other < routines.length := (List.getElem?_eq_some_iff.mp present).1
      rw [List.getElem?_set_self inside, Option.some.injEq] at there
      subst there
      rw [Function.update_self]
      exact ⟨_, Later.refl _, rest within⟩
    · rw [List.getElem?_set_ne (Ne.symm same)] at there
      rw [Function.update_of_ne same]
      obtain ⟨begun, before, goes⟩ := shares.ensures other routine there
      exact ⟨begun, (before.trans reached.later).trans (Later.move allowed.moves), goes⟩

theorem Follows.reaches (follows : rules.Follows posts pool held) (number : Nat) {state : σ}
    (later : rules.Later state pool.state) : rules.Reaches state (held number) pool.state :=
  ⟨later, follows.lawful, follows.holds number⟩

theorem Follows.moves (follows : rules.Follows posts pool held) (number : Nat) :
    (pool.advance number).state = pool.state ∨
      rules.Moves pool.state (pool.advance number).state := by
  by_cases active : ∃ act next, pool.routines[number]? = some (.step act next)
  · obtain ⟨act, next, found⟩ := active
    obtain ⟨state, later, ensures⟩ := follows.ensures number _ found
    obtain ⟨kept, allowed, -⟩ := ensures pool.state (follows.reaches number later)
    right
    rw [Pool.advance_step found]
    exact allowed.moves
  · left
    rw [Pool.advance_idle fun act next found => active ⟨act, next, found⟩]

theorem Follows.later_advance (follows : rules.Follows posts pool held) (number : Nat) :
    rules.Later pool.state (pool.advance number).state := by
  rcases follows.moves number with same | moves
  · rw [same]
    exact Later.refl _
  · exact Later.move moves

theorem Follows.advance (follows : rules.Follows posts pool held) (number : Nat)
    (within : rules.Within (pool.advance number).state) :
    ∃ kept, rules.Follows posts (pool.advance number) (Function.update held number kept) ∧
      (pool.advance number = pool ∧ kept = held number ∨
        (∃ act next, pool.routines[number]? = some (.step act next)) ∧
          rules.Tracks pool.state (held number) (pool.advance number).state kept) := by
  by_cases active : ∃ act next, pool.routines[number]? = some (.step act next)
  · obtain ⟨act, next, found⟩ := active
    have reached : rules.Reaches pool.state (⋃ number, held number) pool.state := by
      refine ⟨Later.refl _, follows.lawful, fun claim member => ?_⟩
      obtain ⟨other, member⟩ := Set.mem_iUnion.mp member
      exact follows.holds other claim member
    obtain ⟨kept, allowed, tracks, rest⟩ := follows.toShares.step reached found
    rw [Pool.advance_step found] at within ⊢
    refine ⟨kept, ⟨rest within, allowed.lawful within, fun other claim member => ?_⟩,
      .inr ⟨⟨act, next, found⟩, tracks⟩⟩
    exact allowed.holds within claim (Set.mem_iUnion.mpr ⟨other, member⟩)
  · have idle := Pool.advance_idle fun act next found => active ⟨act, next, found⟩
    rw [idle]
    refine ⟨held number, ?_, .inl ⟨rfl, rfl⟩⟩
    rw [Function.update_eq_self]
    exact follows

theorem Follows.run (follows : rules.Follows posts pool held) (schedule : List Nat)
    (within : ∀ earlier, earlier <+: schedule → rules.Within (pool.run earlier).state) :
    rules.Later pool.state (pool.run schedule).state ∧
      ∃ held', rules.Follows posts (pool.run schedule) held' := by
  induction schedule generalizing pool held with
  | nil => exact ⟨Later.refl _, held, follows⟩
  | cons number rest ih =>
    have first : rules.Within (pool.advance number).state :=
      within [number] (List.cons_prefix_cons.mpr ⟨rfl, List.nil_prefix⟩)
    obtain ⟨kept, advanced, -⟩ := follows.advance number first
    obtain ⟨later, reached⟩ := ih advanced fun earlier before =>
      within (number :: earlier) (List.cons_prefix_cons.mpr ⟨rfl, before⟩)
    exact ⟨(follows.later_advance number).trans later, reached⟩

theorem Follows.start (lawful : rules.Lawful pool.state)
    (ensures : ∀ number routine, pool.routines[number]? = some routine →
      rules.Ensures (posts number) routine pool.state ∅) :
    rules.Follows posts pool fun _ => ∅ where
  toShares := Shares.start ensures
  lawful := lawful
  holds := fun _ _ none => none.elim

/-- A routine that can do with no claims may be expected to do what it does from now on. -/
theorem Follows.expect (follows : rules.Follows posts pool held) (number : Nat)
    (fact : σ → α → Prop) (ensures : ∀ routine, pool.routines[number]? = some routine →
      rules.Ensures (fun final _ result => fact final result) routine pool.state ∅) :
    rules.Follows (Function.update posts number fun final _ result => fact final result) pool
      held where
  lawful := follows.lawful
  holds := follows.holds
  apart := follows.apart
  idle := follows.idle
  ensures := fun other routine present => by
    by_cases same : other = number
    · subst same
      rw [Function.update_self]
      exact ⟨_, Later.refl _, (ensures routine present).hold _⟩
    · rw [Function.update_of_ne same]
      exact follows.ensures other routine present

theorem Follows.result (follows : rules.Follows posts pool held) {number : Nat} {result : α}
    (ended : pool.results[number]? = some (some result)) :
    ∃ state, rules.Later state pool.state ∧ posts number state (held number) result := by
  obtain ⟨state, later, ensures⟩ := follows.ensures number _ (Pool.results_eq_some.mp ended)
  exact ⟨state, later, ensures⟩

end Sharing

end Managed
