import Managed.Proofs.CatalogCalls
import Managed.Proofs.Publication

namespace Managed.ModuleStore

/-- What a call knows of a module that it loads: that nobody else has its id, or that everybody
    gets it at its path. -/
inductive Claim where
  | drawn (id : ModuleId)
  | visible (loaded : Module)

def Claim.id : Claim → ModuleId
  | drawn id => id
  | visible loaded => loaded.id

def Claim.Holds : Claim → ModuleStore → Prop
  | drawn id, store =>
    id.value < store.nextId ∧ ∀ entry ∈ store.paths.entries, entry.2.id ≠ id
  | visible loaded, store => loaded ∈ store.paths.values

theorem Claim.Holds.same {claim : Claim} {before after : ModuleStore} (claimed : claim.Holds before)
    (nextId : after.nextId = before.nextId) (paths : after.paths.entries = before.paths.entries) :
    claim.Holds after := by
  cases claim with
  | drawn id =>
    rw [Claim.Holds, nextId, paths]
    exact claimed
  | visible loaded =>
    rw [Claim.Holds, Cache.values, paths]
    exact claimed

def Knows (store : ModuleStore) (found : List Module) : Prop :=
  ∀ loaded ∈ found, (loaded.id, loaded) ∈ store.ids.entries

/-- The state of a store whose modules are at the paths that are due to them, as long as there are
    ids left. -/
structure LawfulBy (placed : Path → Module → Prop) (store : ModuleStore) : Prop where
  started : store.nextId ≠ 0
  paths_distinct : store.paths.Distinct
  ids_distinct : store.ids.Distinct
  placed : ∀ entry ∈ store.paths.entries, placed entry.1 entry.2
  drawn : ∀ entry ∈ store.paths.entries, entry.2.id.value < store.nextId
  told_apart : ∀ left ∈ store.paths.entries, ∀ right ∈ store.paths.entries,
    left.2.id = right.2.id → left = right
  by_id : ∀ entry ∈ store.ids.entries, entry.2.id = entry.1
  visible : ∀ entry ∈ store.ids.entries, entry.2 ∈ store.paths.values
  names : ∀ entry ∈ store.names.entries, store.Knows entry.2

def Canonical (canonicalize : Path → Except FileError Path) (key : Path) (loaded : Module) :
    Prop :=
  loaded.path = key ∧ canonicalize key = .ok key

abbrev Lawful (canonicalize : Path → Except FileError Path) (store : ModuleStore) : Prop :=
  LawfulBy (Canonical canonicalize) store

structure Moves (before after : ModuleStore) : Prop where
  paths : before.paths.entries <+: after.paths.entries
  ids : before.ids.entries <+: after.ids.entries
  names : before.names.entries <+: after.names.entries
  nextId : after.nextId = before.nextId ∨ after.nextId = before.nextId + 1

structure Tracks (before : ModuleStore) (held : Set Claim) (after : ModuleStore)
    (kept : Set Claim) : Prop where
  keeps : ∀ claim ∈ held, ∃ still ∈ kept, still.id = claim.id
  draws : after.nextId ≠ before.nextId → ∃ claim ∈ kept, claim.id = ⟨before.nextId⟩
  stays : ∀ loaded, .visible loaded ∈ held → .visible loaded ∈ kept
  shows : ∀ loaded ∈ after.paths.values, loaded ∈ before.paths.values ∨ .visible loaded ∈ kept

theorem Tracks.union {before after : ModuleStore} {held kept : Set Claim}
    (tracks : Tracks before held after kept) (extra : Set Claim) :
    Tracks before (held ∪ extra) after (kept ∪ extra) where
  keeps := by
    intro claim member
    rcases member with own | other
    · obtain ⟨still, member, same⟩ := tracks.keeps claim own
      exact ⟨still, .inl member, same⟩
    · exact ⟨claim, .inr other, rfl⟩
  draws := fun drew => by
    obtain ⟨claim, member, same⟩ := tracks.draws drew
    exact ⟨claim, .inl member, same⟩
  stays := fun loaded member => member.imp_left (tracks.stays loaded)
  shows := fun loaded member => (tracks.shows loaded member).imp_right .inl

def rulesBy (placed : Path → Module → Prop) : Sharing ModuleStore Claim where
  Lawful := LawfulBy placed
  Moves := Moves
  Holds := Claim.Holds
  Tracks := Tracks
  tracks_union := fun _ _ _ _ extra tracks => tracks.union extra
  Within store := store.nextId ≠ 0

abbrev rules (canonicalize : Path → Except FileError Path) : Sharing ModuleStore Claim :=
  rulesBy (Canonical canonicalize)

variable {placed : Path → Module → Prop} {canonicalize : Path → Except FileError Path}

theorem path_later {first last : ModuleStore} (later : (rulesBy placed).Later first last)
    {entry : Path × Module} (member : entry ∈ first.paths.entries) : entry ∈ last.paths.entries :=
  later.keep (fun store => entry ∈ store.paths.entries)
    (fun _ _ moves present => moves.paths.subset present) member

theorem id_later {first last : ModuleStore} (later : (rulesBy placed).Later first last)
    {entry : ModuleId × Module} (member : entry ∈ first.ids.entries) : entry ∈ last.ids.entries :=
  later.keep (fun store => entry ∈ store.ids.entries)
    (fun _ _ moves present => moves.ids.subset present) member

theorem Knows.later {first last : ModuleStore} {found : List Module} (known : first.Knows found)
    (later : (rulesBy placed).Later first last) : last.Knows found :=
  fun loaded member => id_later later (known loaded member)

theorem LawfulBy.at_path {store : ModuleStore} (lawful : Lawful canonicalize store) :
    ∀ entry ∈ store.paths.entries, entry.2.path = entry.1 :=
  fun entry member => (lawful.placed entry member).1

theorem LawfulBy.settled {store : ModuleStore} (lawful : Lawful canonicalize store) :
    ∀ entry ∈ store.paths.entries, canonicalize entry.1 = .ok entry.1 :=
  fun entry member => (lawful.placed entry member).2

theorem LawfulBy.of_visible {store : ModuleStore} (lawful : Lawful canonicalize store)
    {loaded : Module} (visible : loaded ∈ store.paths.values) :
    (loaded.path, loaded) ∈ store.paths.entries := by
  obtain ⟨⟨key, other⟩, member, rfl⟩ := List.mem_map.mp visible
  obtain rfl : other.path = key := lawful.at_path _ member
  exact member

theorem LawfulBy.id_path {store : ModuleStore} (lawful : Lawful canonicalize store) :
    ∀ entry ∈ store.ids.entries, (entry.2.path, entry.2) ∈ store.paths.entries :=
  fun entry member => lawful.of_visible (lawful.visible entry member)

theorem LawfulBy.find_path {store : ModuleStore} (lawful : Lawful canonicalize store)
    {loaded : Module} (member : (loaded.path, loaded) ∈ store.paths.entries) :
    store.paths.find? loaded.path = some loaded :=
  Cache.find?_of_mem lawful.paths_distinct member

theorem LawfulBy.find_id {store : ModuleStore} (lawful : LawfulBy placed store)
    {loaded : Module} (member : (loaded.id, loaded) ∈ store.ids.entries) :
    store.ids.find? loaded.id = some loaded :=
  Cache.find?_of_mem lawful.ids_distinct member

theorem allows_same {before after : ModuleStore} (held : Set Claim)
    (lawful : LawfulBy placed before) (holds : ∀ claim ∈ held, claim.Holds before)
    (nextId : after.nextId = before.nextId) (paths : after.paths.entries = before.paths.entries)
    (ids : after.ids.entries = before.ids.entries)
    (names : after.names.entries = before.names.entries) :
    (rulesBy placed).Allows before held after held := by
  constructor
  · exact ⟨paths ▸ List.prefix_rfl, ids ▸ List.prefix_rfl, names ▸ List.prefix_rfl, .inl nextId⟩
  · exact ⟨fun claim member => ⟨claim, member, rfl⟩, fun drew => absurd nextId drew,
      fun _ member => member, fun loaded member => .inl (by rwa [Cache.values, paths] at member)⟩
  · exact fun _ member => .inl member
  · intro _
    constructor
    · rw [nextId]
      exact lawful.started
    · rw [Cache.Distinct, paths]
      exact lawful.paths_distinct
    · rw [Cache.Distinct, ids]
      exact lawful.ids_distinct
    · rw [paths]
      exact lawful.placed
    · rw [paths, nextId]
      exact lawful.drawn
    · rw [paths]
      exact lawful.told_apart
    · rw [ids]
      exact lawful.by_id
    · rw [ids, Cache.values, paths]
      exact lawful.visible
    · intro entry member
      rw [names] at member
      rw [Knows, ids]
      exact lawful.names entry member
  · exact fun _ claim member => (holds claim member).same nextId paths
  · exact fun _ claim _ claimed => claimed.same nextId paths

theorem counts_paths : (rulesBy placed).Counts pathsPart where
  get_set := fun _ _ => rfl
  within := fun _ _ lawful _ => lawful.started
  allows := fun _ held _ lawful holds same => allows_same held lawful holds rfl same rfl rfl

theorem counts_ids : (rulesBy placed).Counts idsPart where
  get_set := fun _ _ => rfl
  within := fun _ _ lawful _ => lawful.started
  allows := fun _ held _ lawful holds same => allows_same held lawful holds rfl rfl same rfl

theorem counts_names : (rulesBy placed).Counts namesPart where
  get_set := fun _ _ => rfl
  within := fun _ _ lawful _ => lawful.started
  allows := fun _ held _ lawful holds same => allows_same held lawful holds rfl rfl rfl same

theorem toNat_succ {value : UInt32} (few : value.toNat + 1 < UInt32.size) :
    (value + 1).toNat = value.toNat + 1 := by
  rw [UInt32.toNat_add]
  exact Nat.mod_eq_of_lt few

theorem ne_zero_of_toNat {value : UInt32} {number : Nat} (same : value.toNat = number + 1) :
    value ≠ 0 := by
  intro zero
  rw [zero] at same
  exact absurd same (by simp)

theorem toNat_succ_of_ne_zero {value : UInt32} (left : value + 1 ≠ 0) :
    (value + 1).toNat = value.toNat + 1 := by
  have nonzero : (value + 1).toNat ≠ 0 := fun zero => left (UInt32.toNat_inj.mp zero)
  rw [UInt32.toNat_add] at nonzero ⊢
  have below := value.toNat_lt
  simp only [UInt32.reduceToNat] at nonzero ⊢
  omega

theorem lt_succ_of_ne_zero {value : UInt32} (left : value + 1 ≠ 0) : value < value + 1 := by
  rw [UInt32.lt_iff_toNat_lt, toNat_succ_of_ne_zero left]
  exact Nat.lt_succ_self _

theorem allows_draw {store : ModuleStore} (lawful : LawfulBy placed store) :
    (rulesBy placed).Allows store ∅ { store with nextId := store.nextId + 1 }
      {.drawn ⟨store.nextId⟩} := by
  have above : ∀ within : store.nextId + 1 ≠ 0, ∀ id : UInt32, id < store.nextId →
      id < store.nextId + 1 :=
    fun within id below => UInt32.lt_trans below (lt_succ_of_ne_zero within)
  constructor
  · exact ⟨List.prefix_rfl, List.prefix_rfl, List.prefix_rfl, .inr rfl⟩
  · exact ⟨nofun, fun _ => ⟨_, rfl, rfl⟩, nofun, fun _ member => .inl member⟩
  · intro claim new
    obtain rfl := new
    exact .inr fun claimed => UInt32.lt_irrefl _ claimed.1
  · intro within
    exact { lawful with
      started := within
      drawn := fun entry member => above within _ (lawful.drawn entry member) }
  · intro within claim new
    obtain rfl := new
    refine ⟨lt_succ_of_ne_zero within, fun entry member same => ?_⟩
    have below := lawful.drawn entry member
    rw [same] at below
    exact UInt32.lt_irrefl _ below
  · intro within claim _ claimed
    cases claim with
    | drawn id => exact ⟨above within _ claimed.1, claimed.2⟩
    | visible loaded => exact claimed

/-- Who has drawn an id may publish a module with it at a path that is not taken. -/
theorem allows_publish_path {store : ModuleStore} {key : Path} {loaded : Module}
    (lawful : LawfulBy placed store) (due : placed key loaded)
    (drawn : (Claim.drawn loaded.id).Holds store) (absent : store.paths.find? key = none) :
    (rulesBy placed).Allows store {.drawn loaded.id}
      (pathsPart.set store (store.paths.published key loaded)) {.visible loaded} := by
  have grown := Cache.published_grows store.paths key loaded
  have old_or_new : ∀ entry ∈ (store.paths.published key loaded).entries,
      entry ∈ store.paths.entries ∨ entry = (key, loaded) :=
    fun entry member => Cache.mem_published.mp member
  have still_visible : ∀ other ∈ store.paths.values,
      other ∈ (store.paths.published key loaded).values :=
    fun other member => (grown.map Prod.snd).subset member
  constructor
  · exact ⟨grown, List.prefix_rfl, List.prefix_rfl, .inl rfl⟩
  · refine ⟨?_, fun drew => absurd rfl drew, nofun, ?_⟩
    · intro claim new
      obtain rfl := new
      exact ⟨_, rfl, rfl⟩
    · intro other member
      obtain ⟨entry, present, rfl⟩ := List.mem_map.mp member
      rcases old_or_new entry present with old | rfl
      · exact .inl (List.mem_map_of_mem old)
      · exact .inr rfl
  · intro claim new
    obtain rfl := new
    refine .inr fun claimed => ?_
    obtain ⟨entry, member, same⟩ := List.mem_map.mp claimed
    exact drawn.2 entry member (congrArg Module.id same)
  · intro _
    refine { lawful with
      paths_distinct := Cache.published_distinct lawful.paths_distinct absent
      placed := fun entry member => ?_
      drawn := fun entry member => ?_
      told_apart := fun left left_member right right_member same => ?_
      visible := fun entry member => still_visible _ (lawful.visible entry member) }
    · rcases old_or_new entry member with old | rfl
      · exact lawful.placed entry old
      · exact due
    · rcases old_or_new entry member with old | rfl
      · exact lawful.drawn entry old
      · exact drawn.1
    · rcases old_or_new left left_member with left_old | rfl
      · rcases old_or_new right right_member with right_old | rfl
        · exact lawful.told_apart left left_old right right_old same
        · exact absurd same (drawn.2 left left_old)
      · rcases old_or_new right right_member with right_old | rfl
        · exact absurd same.symm (drawn.2 right right_old)
        · rfl
  · intro _ claim new
    obtain rfl := new
    exact List.mem_map.mpr ⟨_, Cache.mem_published.mpr (.inr rfl), rfl⟩
  · intro _ claim unheld claimed
    cases claim with
    | drawn id =>
      refine ⟨claimed.1, fun entry member => ?_⟩
      rcases old_or_new entry member with old | rfl
      · exact claimed.2 entry old
      · intro same
        subst same
        exact unheld rfl
    | visible other => exact still_visible other claimed

theorem allows_publish_id {store : ModuleStore} {loaded : Module} {held : Set Claim}
    (lawful : LawfulBy placed store) (holds : ∀ claim ∈ held, claim.Holds store)
    (visible : loaded ∈ store.paths.values) (absent : store.ids.find? loaded.id = none) :
    (rulesBy placed).Allows store held
      (idsPart.set store (store.ids.published loaded.id loaded)) held := by
  have grown := Cache.published_grows store.ids loaded.id loaded
  constructor
  · exact ⟨List.prefix_rfl, grown, List.prefix_rfl, .inl rfl⟩
  · exact ⟨fun claim member => ⟨claim, member, rfl⟩, fun drew => absurd rfl drew,
      fun _ member => member, fun _ member => .inl member⟩
  · exact fun _ member => .inl member
  · intro _
    refine { lawful with
      ids_distinct := Cache.published_distinct lawful.ids_distinct absent
      by_id := fun entry member => ?_
      visible := fun entry member => ?_
      names := fun entry member loaded listed =>
        grown.subset (lawful.names entry member loaded listed) }
    · rcases Cache.mem_published.mp member with old | rfl
      · exact lawful.by_id entry old
      · rfl
    · rcases Cache.mem_published.mp member with old | rfl
      · exact lawful.visible entry old
      · exact visible
  · exact fun _ claim member => (holds claim member).same rfl rfl
  · exact fun _ claim _ claimed => claimed.same rfl rfl

theorem allows_publish_name {store : ModuleStore} {key : String} {found : List Module}
    {held : Set Claim} (lawful : LawfulBy placed store)
    (holds : ∀ claim ∈ held, claim.Holds store)
    (known : store.Knows found) :
    (rulesBy placed).Allows store held
      (namesPart.set store (store.names.published key found)) held := by
  constructor
  · exact ⟨List.prefix_rfl, List.prefix_rfl, Cache.published_grows _ _ _, .inl rfl⟩
  · exact ⟨fun claim member => ⟨claim, member, rfl⟩, fun drew => absurd rfl drew,
      fun _ member => member, fun _ member => .inl member⟩
  · exact fun _ member => .inl member
  · intro _
    refine { lawful with names := fun entry member => ?_ }
    rcases Cache.mem_published.mp member with old | rfl
    · exact lawful.names entry old
    · exact known
  · exact fun _ claim member => (holds claim member).same rfl rfl
  · exact fun _ claim _ claimed => claimed.same rfl rfl

theorem LawfulBy.new_id {store : ModuleStore} (lawful : Lawful canonicalize store) :
    store.ids.find? ⟨store.nextId⟩ = none := by
  rw [Option.eq_none_iff_forall_ne_some]
  intro loaded found
  have member := Cache.mem_of_find? found
  have same_id : loaded.id = ⟨store.nextId⟩ := lawful.by_id _ member
  have below := lawful.drawn _ (lawful.id_path _ member)
  rw [same_id] at below
  exact UInt32.lt_irrefl _ below

theorem LawfulBy.eq_of_path {store : ModuleStore} (lawful : Lawful canonicalize store)
    {left right : Module}
    (left_visible : (left.path, left) ∈ store.paths.entries)
    (right_visible : (right.path, right) ∈ store.paths.entries) (same : left.path = right.path) :
    left = right := by
  have found := lawful.find_path left_visible
  rw [same, lawful.find_path right_visible] at found
  exact (Option.some.inj found).symm

/-- A module that is met at its path is listed by its id, if it is not already. -/
theorem LawfulBy.publish_met {store : ModuleStore} (lawful : Lawful canonicalize store)
    {loaded : Module}
    (visible : (loaded.path, loaded) ∈ store.paths.entries) :
    (Cache.publish loaded.id loaded store.ids).1 = loaded ∧
      store.ids.entries <+: (Cache.publish loaded.id loaded store.ids).2.entries ∧
      ∀ entry, entry ∈ (Cache.publish loaded.id loaded store.ids).2.entries ↔
        entry ∈ store.ids.entries ∨ entry = (loaded.id, loaded) := by
  cases found : store.ids.find? loaded.id with
  | none =>
    rw [Cache.publish_absent found]
    exact ⟨rfl, Cache.published_grows _ _ _, fun _ => Cache.mem_published⟩
  | some other =>
    have member := Cache.mem_of_find? found
    have same := lawful.told_apart _ (lawful.id_path _ member) _ visible (lawful.by_id _ member)
    obtain rfl : other = loaded := congrArg Prod.snd same
    rw [Cache.publish_taken found]
    refine ⟨rfl, List.prefix_rfl, fun entry => ⟨.inl, fun either => either.elim id ?_⟩⟩
    rintro rfl
    exact member

end Managed.ModuleStore
