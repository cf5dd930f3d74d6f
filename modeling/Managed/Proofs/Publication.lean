import Managed.Cache
import Managed.Proofs.Sharing

namespace Managed

namespace Cache

variable {κ ν : Type}

def Distinct (cache : Cache κ ν) : Prop := (cache.entries.map Prod.fst).Nodup

def published (cache : Cache κ ν) (key : κ) (value : ν) : Cache κ ν :=
  { cache with entries := cache.entries ++ [(key, value)] }

def hit (cache : Cache κ ν) : Cache κ ν := { cache with hits := cache.hits + 1 }

def missed (cache : Cache κ ν) : Cache κ ν := { cache with misses := cache.misses + 1 }

theorem recordMiss_eq (cache : Cache κ ν) : recordMiss cache = ((), cache.missed) := rfl

theorem published_grows (cache : Cache κ ν) (key : κ) (value : ν) :
    cache.entries <+: (cache.published key value).entries := List.prefix_append _ _

theorem mem_published {cache : Cache κ ν} {key : κ} {value : ν} {entry : κ × ν} :
    entry ∈ (cache.published key value).entries ↔ entry ∈ cache.entries ∨ entry = (key, value) := by
  simp [published]

variable [DecidableEq κ]

theorem mem_of_find? {cache : Cache κ ν} {key : κ} {value : ν}
    (found : cache.find? key = some value) : (key, value) ∈ cache.entries := by
  obtain ⟨before, after, split, -⟩ := List.lookup_eq_some_iff.mp found
  rw [split]
  simp

theorem find?_of_mem {cache : Cache κ ν} {key : κ} {value : ν} (distinct : cache.Distinct)
    (member : (key, value) ∈ cache.entries) : cache.find? key = some value := by
  obtain ⟨before, after, split⟩ := List.append_of_mem member
  refine List.lookup_eq_some_iff.mpr ⟨before, after, split, ?_⟩
  intro entry earlier
  have apart := distinct
  rw [Distinct, split, List.map_append, List.nodup_append] at apart
  have differs := apart.2.2 entry.1 (List.mem_map_of_mem earlier) key (by simp)
  simpa using differs.symm

theorem lookup_eq_none {entries : List (κ × ν)} {key : κ} :
    entries.lookup key = none ↔ key ∉ entries.map Prod.fst := by
  rw [List.lookup_eq_none_iff, List.mem_map]
  constructor
  · rintro differs ⟨entry, member, rfl⟩
    exact bne_iff_ne.mp (differs entry member) rfl
  · intro untaken entry member
    rw [bne_iff_ne]
    rintro rfl
    exact untaken ⟨entry, member, rfl⟩

theorem notMem_of_absent {cache : Cache κ ν} {key : κ} (absent : cache.find? key = none)
    (value : ν) : (key, value) ∉ cache.entries :=
  fun member => lookup_eq_none.mp absent (List.mem_map_of_mem member)

theorem find?_grows {old new : Cache κ ν} (grown : old.entries <+: new.entries) {key : κ}
    {value : ν} (found : old.find? key = some value) : new.find? key = some value :=
  grown.lookup_eq_some found

theorem find?_congr {first second : Cache κ ν} (same : first.entries = second.entries) (key : κ) :
    first.find? key = second.find? key := by
  rw [find?, find?, same]

theorem published_distinct {cache : Cache κ ν} {key : κ} {value : ν} (distinct : cache.Distinct)
    (absent : cache.find? key = none) : (cache.published key value).Distinct := by
  rw [Distinct, published, List.map_append, List.nodup_append]
  refine ⟨distinct, by simp, ?_⟩
  intro taken member new single same
  rw [same, List.mem_singleton.mp single] at member
  exact lookup_eq_none.mp absent member

theorem find?_published {cache : Cache κ ν} {key : κ} {value : ν} (absent : cache.find? key = none) :
    (cache.published key value).find? key = some value := by
  have lookup : cache.entries.lookup key = none := absent
  simp [find?, published, List.lookup_append, lookup]

theorem find?_published_other {cache : Cache κ ν} {key other : κ} (apart : other ≠ key)
    (value : ν) : (cache.published key value).find? other = cache.find? other := by
  have differs : (other == key) = false := beq_eq_false_iff_ne.mpr apart
  simp [find?, published, List.lookup_append, List.lookup_cons, differs]

theorem tryGet_present {key : κ} {value : ν} {cache : Cache κ ν}
    (found : cache.find? key = some value) :
    tryGet key cache = (some value, cache.hit) := by
  simp only [tryGet, found, hit]

theorem publish_counters (key : κ) (value : ν) (cache : Cache κ ν) :
    (publish key value cache).2.hits = cache.hits ∧
      (publish key value cache).2.misses = cache.misses := by
  unfold publish
  split <;> exact ⟨rfl, rfl⟩

theorem tryGet_absent {key : κ} {cache : Cache κ ν} (absent : cache.find? key = none) :
    tryGet key cache = (none, cache) := by
  simp only [tryGet, absent]

theorem tryGet_fst (key : κ) (cache : Cache κ ν) : (tryGet key cache).1 = cache.find? key := by
  unfold tryGet
  cases cache.find? key <;> rfl

theorem tryGet_entries (key : κ) (cache : Cache κ ν) :
    (tryGet key cache).2.entries = cache.entries := by
  unfold tryGet
  cases cache.find? key <;> rfl

theorem publish_taken {key : κ} {value visible : ν} {cache : Cache κ ν}
    (found : cache.find? key = some visible) : publish key value cache = (visible, cache) := by
  simp only [publish, found]

theorem publish_absent {key : κ} {value : ν} {cache : Cache κ ν} (absent : cache.find? key = none) :
    publish key value cache = (value, cache.published key value) := by
  simp only [publish, absent, published]

theorem find?_publish (key : κ) (value : ν) (cache : Cache κ ν) :
    (publish key value cache).2.find? key = some (publish key value cache).1 := by
  cases found : cache.find? key with
  | none =>
    rw [publish_absent found]
    exact find?_published found
  | some visible =>
    rw [publish_taken found]
    exact found

end Cache

namespace Sharing

open Cache

variable {σ τ κ ν ε : Type} {rules : Sharing σ τ} {part : Part σ (Cache κ ν)}

/-- A part of the state that is a cache, whose counters may be changed by everybody at any time. -/
structure Counts (rules : Sharing σ τ) (part : Part σ (Cache κ ν)) : Prop where
  get_set : ∀ state cache, part.get (part.set state cache) = cache
  within : ∀ state cache, rules.Lawful state → cache.entries = (part.get state).entries →
    rules.Within (part.set state cache)
  allows : ∀ state held cache, rules.Lawful state → (∀ claim ∈ held, rules.Holds claim state) →
    cache.entries = (part.get state).entries → rules.Allows state held (part.set state cache) held

namespace Counts

theorem reaches (counts : rules.Counts part) {state found : σ} {held : Set τ} {cache : Cache κ ν}
    (reached : rules.Reaches state held found)
    (same : cache.entries = (part.get found).entries) :
    rules.Reaches state held (part.set found cache) :=
  reached.trans ((counts.allows found held cache reached.lawful reached.holds same).reaches
    (counts.within found cache reached.lawful same))

theorem recordMiss (counts : rules.Counts part) (post : σ → Set τ → Unit → Prop) {state : σ}
    {held : Set τ} (missed : ∀ found, rules.Reaches state held found → post found held ()) :
    rules.Ensures post (part.atomic Cache.recordMiss) state held :=
  Ensures.atomic fun found reached =>
    ⟨held, counts.allows found held _ reached.lawful reached.holds rfl,
      fun _ => missed _ (counts.reaches reached rfl)⟩

variable [DecidableEq κ]

theorem tryGet (counts : rules.Counts part) (key : κ) (post : σ → Set τ → Option ν → Prop)
    {state : σ} {held : Set τ}
    (looked : ∀ found, rules.Reaches state held found →
      post found held ((part.get found).find? key)) :
    rules.Ensures post (part.atomic (Cache.tryGet key)) state held := by
  refine Ensures.atomic fun found reached => ⟨held, ?_, fun _ => ?_⟩
  · exact counts.allows found held _ reached.lawful reached.holds (tryGet_entries _ _)
  · have after := looked _ (counts.reaches reached (tryGet_entries key _))
    rw [counts.get_set, find?_congr (tryGet_entries _ _), ← tryGet_fst] at after
    exact after

theorem publish (counts : rules.Counts part) {post : σ → Set τ → ν → Prop} {state : σ}
    {held : Set τ} (key : κ) (value : ν)
    (taken : ∀ found visible, rules.Reaches state held found →
      (part.get found).find? key = some visible → post found held visible)
    (absent : ∀ found, rules.Reaches state held found → (part.get found).find? key = none →
      ∃ kept, rules.Allows found held (part.set found ((part.get found).published key value)) kept ∧
        post (part.set found ((part.get found).published key value)) kept value) :
    rules.Ensures post (part.atomic (Cache.publish key value)) state held := by
  refine Ensures.atomic fun found reached => ?_
  cases looked : (part.get found).find? key with
  | some visible =>
    rw [publish_taken looked]
    refine ⟨held, counts.allows found held _ reached.lawful reached.holds rfl, fun _ => ?_⟩
    apply taken _ visible (counts.reaches reached rfl)
    rw [counts.get_set]
    exact looked
  | none =>
    rw [publish_absent looked]
    obtain ⟨kept, allowed, holds⟩ := absent found reached looked
    exact ⟨kept, allowed, fun _ => holds⟩

/-- A call that finds nothing runs its constructor from a later state on and goes on with what that
    has made. -/
theorem orCreate {β γ : Type} (counts : rules.Counts part) (key : κ)
    {middle : σ → Set τ → β → Prop} {post : σ → Set τ → γ → Prop} {state : σ} {held : Set τ}
    {known : ν → γ} {create : Routine σ β} {finish : β → Routine σ γ}
    (hit : ∀ found value, rules.Reaches state held found →
      (part.get found).find? key = some value → post found held (known value))
    (miss : ∀ missed found, rules.Reaches state held missed → (part.get missed).find? key = none →
      rules.Reaches missed held found → rules.Ensures middle create found held)
    (made : ∀ found kept result, middle found kept result →
      rules.Ensures post (finish result) found kept) :
    rules.Ensures post
      (part.atomic (Cache.tryGet key) >>= fun
        | some value => pure (known value)
        | none => do
          part.atomic Cache.recordMiss
          finish (← create))
      state held := by
  apply (counts.tryGet key (fun found kept answer =>
    held = kept ∧ rules.Reaches state held found ∧ (part.get found).find? key = answer)
    fun found reached => ⟨rfl, reached, rfl⟩).bind
  intro missed kept answer looked_up
  obtain ⟨rfl, reached, looked⟩ := looked_up
  cases answer with
  | none =>
    apply (counts.recordMiss (fun found kept _ => held = kept ∧
      rules.Reaches missed held found) fun found reached => ⟨rfl, reached⟩).bind
    intro found kept _ recorded
    obtain ⟨rfl, later⟩ := recorded
    exact (miss missed found reached looked later).bind made
  | some value => exact Ensures.pure (hit _ _ reached looked)

theorem getOrTryCreate (counts : rules.Counts part) (key : κ)
    (middle post : σ → Set τ → Except ε ν → Prop) {state : σ} {held : Set τ}
    {create : Routine σ (Except ε ν)}
    (hit : ∀ found value, rules.Reaches state held found →
      (part.get found).find? key = some value → post found held (.ok value))
    (miss : ∀ missed found, rules.Reaches state held missed → (part.get missed).find? key = none →
      rules.Reaches missed held found → rules.Ensures middle create found held)
    (failed : ∀ found kept error, middle found kept (.error error) →
      post found kept (.error error))
    (made : ∀ found kept value, middle found kept (.ok value) →
      rules.Ensures (fun final kept visible => post final kept (.ok visible))
        (part.atomic (Cache.publish key value)) found kept) :
    rules.Ensures post (Cache.getOrTryCreate part key create) state held := by
  apply counts.orCreate key hit miss
  intro final kept outcome holds
  cases outcome with
  | error error => exact Ensures.pure (failed _ _ _ holds)
  | ok value => exact (made _ _ _ holds).bind fun _ _ _ visible => Ensures.pure visible

theorem getOrCreate (counts : rules.Counts part) (key : κ) (middle post : σ → Set τ → ν → Prop)
    {state : σ} {held : Set τ} {create : Routine σ ν}
    (hit : ∀ found value, rules.Reaches state held found →
      (part.get found).find? key = some value → post found held value)
    (miss : ∀ missed found, rules.Reaches state held missed → (part.get missed).find? key = none →
      rules.Reaches missed held found → rules.Ensures middle create found held)
    (made : ∀ found kept value, middle found kept value →
      rules.Ensures post (part.atomic (Cache.publish key value)) found kept) :
    rules.Ensures post (Cache.getOrCreate part key create) state held :=
  counts.orCreate key hit miss made

end Counts

end Sharing

end Managed
