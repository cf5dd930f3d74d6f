import Managed.Proofs.Publication

namespace Managed.Sharing

variable {σ τ κ ν α : Type} {rules : Sharing σ τ} {invariant : σ → Prop}

def also (rules : Sharing σ τ) (invariant : σ → Prop) : Sharing σ τ :=
  { rules with Lawful := fun state => rules.Lawful state ∧ invariant state }

def always (invariant : σ → Prop) : Sharing σ Empty where
  Lawful := invariant
  Moves _ _ := True
  Holds _ _ := True
  Tracks _ _ _ _ := True
  tracks_union := fun _ _ _ _ _ _ => True.intro
  Within _ := True

theorem Reaches.of_also {state found : σ} {held : Set τ}
    (reached : (rules.also invariant).Reaches state held found) : rules.Reaches state held found :=
  ⟨reached.later, reached.lawful.1, reached.holds⟩

theorem Allows.also {before after : σ} {held kept : Set τ}
    (allowed : rules.Allows before held after kept)
    (keeps : rules.Within after → invariant after) :
    (rules.also invariant).Allows before held after kept where
  moves := allowed.moves
  tracks := allowed.tracks
  fresh := allowed.fresh
  lawful := fun within => ⟨allowed.lawful within, keeps within⟩
  holds := allowed.holds
  spared := allowed.spared

theorem Counts.also {part : Part σ (Cache κ ν)} (counts : rules.Counts part)
    (keeps : ∀ state cache, invariant state → cache.entries = (part.get state).entries →
      invariant (part.set state cache)) :
    (rules.also invariant).Counts part where
  get_set := counts.get_set
  within := fun state cache lawful same => counts.within state cache lawful.1 same
  allows := fun state held cache lawful holds same =>
    (counts.allows state held cache lawful.1 holds same).also
      fun _ => keeps state cache lawful.2 same

theorem always_allows {before after : σ} (held : Set Empty) (keeps : invariant after) :
    (always invariant).Allows before held after held where
  moves := True.intro
  tracks := True.intro
  fresh := fun claim => claim.elim
  lawful := fun _ => keeps
  holds := fun _ claim => claim.elim
  spared := fun _ claim => claim.elim

/-- All that an invariant asks of a cache is a fact about each of its entries. -/
structure Governs (invariant : σ → Prop) (part : Part σ (Cache κ ν)) (fact : κ × ν → Prop) :
    Prop where
  get_set : ∀ state cache, part.get (part.set state cache) = cache
  known : ∀ state, invariant state → ∀ entry ∈ (part.get state).entries, fact entry
  set : ∀ state cache, invariant state → (∀ entry ∈ cache.entries, fact entry) →
    invariant (part.set state cache)

namespace Governs

variable {part : Part σ (Cache κ ν)} {fact : κ × ν → Prop}

theorem counted (governs : Governs invariant part fact) (state : σ) (cache : Cache κ ν)
    (holds : invariant state) (same : cache.entries = (part.get state).entries) :
    invariant (part.set state cache) :=
  governs.set state cache holds fun entry member => governs.known state holds entry (same ▸ member)

theorem counts (governs : Governs invariant part fact) : (always invariant).Counts part where
  get_set := governs.get_set
  within := fun _ _ _ _ => True.intro
  allows := fun state held cache lawful _ same =>
    always_allows held (governs.counted state cache lawful same)

theorem published (governs : Governs invariant part fact) {state : σ} (holds : invariant state)
    {key : κ} {value : ν} (new : fact (key, value)) :
    invariant (part.set state ((part.get state).published key value)) := by
  apply governs.set state _ holds
  intro entry member
  rcases Cache.mem_published.mp member with old | rfl
  · exact governs.known state holds entry old
  · exact new

theorem ensures_publish [DecidableEq κ] (governs : Governs invariant part fact) {state : σ}
    {held : Set Empty} {key : κ} {value : ν} (new : fact (key, value)) :
    (always invariant).Ensures (fun _ _ visible => fact (key, visible))
      (part.atomic (Cache.publish key value)) state held := by
  refine governs.counts.publish key value ?_ ?_
  · exact fun found visible reached looked =>
      governs.known found reached.lawful _ (Cache.mem_of_find? looked)
  · exact fun found reached absent =>
      ⟨held, always_allows held (governs.published reached.lawful new), new⟩

end Governs

/-- What a routine does by its rules and what it makes of an invariant are shown apart. -/
theorem Ensures.also {post : σ → Set τ → α → Prop} {fact : α → Prop} {routine : Routine σ α}
    {state : σ} {held : Set τ} {unused : Set Empty}
    (ensures : rules.Ensures post routine state held)
    (keeps : (always invariant).Ensures (fun _ _ result => fact result) routine state unused) :
    (rules.also invariant).Ensures (fun final kept result => post final kept result ∧ fact result)
      routine state held := by
  induction routine generalizing state held unused with
  | done result => exact ⟨ensures, keeps⟩
  | step act next ih =>
    intro found reached
    obtain ⟨kept, allowed, rest⟩ := ensures found reached.of_also
    have other_reached : (always invariant).Reaches state unused found :=
      ⟨Later.move True.intro, reached.lawful.2, fun claim => claim.elim⟩
    obtain ⟨other, other_allowed, other_rest⟩ := keeps found other_reached
    exact ⟨kept, allowed.also fun _ => other_allowed.lawful True.intro,
      fun within => ih found (rest within) (other_rest True.intro)⟩

/-- A routine that begins in a lawful state ends in one. -/
theorem Ensures.lawful {post : σ → Set τ → α → Prop} {routine : Routine σ α} {state : σ}
    {held : Set τ} (ensures : rules.Ensures post routine state held) (lawful : rules.Lawful state) :
    rules.Ensures (fun final kept result => rules.Lawful final ∧ post final kept result) routine
      state held := by
  induction routine generalizing state held with
  | done result => exact ⟨lawful, ensures⟩
  | step act next ih =>
    intro found reached
    obtain ⟨kept, allowed, rest⟩ := ensures found reached
    exact ⟨kept, allowed, fun within => ih found (rest within) (allowed.lawful within)⟩

end Managed.Sharing
