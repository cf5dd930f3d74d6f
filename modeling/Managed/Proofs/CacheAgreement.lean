import Managed.Proofs.CacheSession
import Managed.Proofs.Publication

namespace Managed.Cache

variable {κ ν ε ω α : Type}

def Account.Offers (account : Account κ ν ε) (key : κ) (value : ν) : Prop :=
  account.key = key ∧
    (account.construction = .ended (.ok value) ∨ account.errand = .insertion value)

variable [DecidableEq κ]

structure Account.Agrees (account : Account κ ν ε) (cache : Cache κ ν) : Prop where
  seen : ∀ value, account.seen = some value →
    cache.find? account.key = some value ∧ account.construction = .unneeded
  value : ∀ value, account.answer = some (.ok (some value)) →
    cache.find? account.key = some value ∧ ∀ error, account.construction ≠ .ended (.error error)
  nothing : account.answer = some (.ok none) →
    account.errand = .lookup ∧ account.construction = .unneeded ∧ account.seen = none
  error : ∀ error, account.answer = some (.error error) →
    account.construction = .ended (.error error)
  creating : account.construction = .unneeded ∨ account.errand = .creation

theorem Account.Agrees.grows {account : Account κ ν ε} {old new : Cache κ ν}
    (agrees : account.Agrees old) (grown : old.entries <+: new.entries) : account.Agrees new where
  seen := fun value seen => ⟨find?_grows grown (agrees.seen value seen).1, (agrees.seen value seen).2⟩
  value := fun value answered =>
    ⟨find?_grows grown (agrees.value value answered).1, (agrees.value value answered).2⟩
  nothing := agrees.nothing
  error := agrees.error
  creating := agrees.creating

theorem Account.agrees_unanswered {account : Account κ ν ε} (cache : Cache κ ν)
    (unseen : account.seen = none) (unanswered : account.answer = none)
    (creating : account.construction = .unneeded ∨ account.errand = .creation) :
    account.Agrees cache := by
  constructor <;> simp [unseen, unanswered, creating]

theorem Account.Agrees.reply_value {account : Account κ ν ε} {cache : Cache κ ν} {value : ν}
    (agrees : account.Agrees cache) (visible : cache.find? account.key = some value)
    (made : ∀ error, account.construction ≠ .ended (.error error)) :
    (account.reply (.ok (some value))).Agrees cache where
  seen := agrees.seen
  value := fun answer answered => by
    cases answered
    exact ⟨visible, made⟩
  nothing := nofun
  error := nofun
  creating := agrees.creating

theorem Account.Agrees.reply_nothing {account : Account κ ν ε} {cache : Cache κ ν}
    (agrees : account.Agrees cache) (absent : cache.find? account.key = none)
    (errand : account.errand = .lookup) (unneeded : account.construction = .unneeded) :
    (account.reply (.ok none)).Agrees cache where
  seen := agrees.seen
  value := nofun
  nothing := fun _ => by
    refine ⟨errand, unneeded, Option.eq_none_iff_forall_ne_some.mpr fun value seen => ?_⟩
    have visible := (agrees.seen value seen).1
    rw [absent] at visible
    cases visible
  error := nofun
  creating := agrees.creating

theorem Account.Agrees.reply_error {account : Account κ ν ε} {cache : Cache κ ν} {error : ε}
    (agrees : account.Agrees cache) (failed : account.construction = .ended (.error error)) :
    (account.reply (.error error)).Agrees cache where
  seen := agrees.seen
  value := nofun
  nothing := nofun
  error := fun answer answered => by
    cases answered
    exact failed
  creating := agrees.creating

structure Account.Served (account : Account κ ν ε) (cache : Cache κ ν) : Prop where
  value : ∀ value, account.answer = some (.ok (some value)) → cache.find? account.key = some value
  nothing : account.answer = some (.ok none) → account.errand = .lookup ∧ account.seen = none
  error : ∀ error, account.answer = some (.error error) →
    account.errand = .creation ∧ account.construction = .ended (.error error)
  seen : ∀ visible answer, account.seen = some visible → account.answer = some answer →
    account.construction = .unneeded ∧ answer = .ok (some visible)
  made : ∀ own answer, account.construction = .ended (.ok own) → account.answer = some answer →
    ∃ visible, cache.find? account.key = some visible ∧ answer = .ok (some visible)
  failed : ∀ error answer, account.construction = .ended (.error error) →
    account.answer = some answer → answer = .error error
  again : ∀ answer, account.errand = .creation → cache.find? account.key = none →
    account.answer = some answer →
    ∃ error, account.construction = .ended (.error error) ∧ answer = .error error

theorem Account.Agrees.served {account : Account κ ν ε} {cache : Cache κ ν}
    (agrees : account.Agrees cache) : account.Served cache where
  value := fun value answered => (agrees.value value answered).1
  nothing := fun answered => ⟨(agrees.nothing answered).1, (agrees.nothing answered).2.2⟩
  error := fun error answered => by
    have failed := agrees.error error answered
    refine ⟨agrees.creating.resolve_left fun unneeded => ?_, failed⟩
    rw [failed] at unneeded
    cases unneeded
  seen := fun visible answer seen answered => by
    obtain ⟨found, unneeded⟩ := agrees.seen visible seen
    refine ⟨unneeded, ?_⟩
    rcases answer with error | _ | value
    · rw [agrees.error error answered] at unneeded
      cases unneeded
    · rw [(agrees.nothing answered).2.2] at seen
      cases seen
    · have visible_value := (agrees.value value answered).1
      rw [found, Option.some.injEq] at visible_value
      rw [visible_value]
  made := fun own answer ended answered => by
    rcases answer with error | _ | value
    · rw [agrees.error error answered] at ended
      cases ended
    · rw [(agrees.nothing answered).2.1] at ended
      cases ended
    · exact ⟨value, (agrees.value value answered).1, rfl⟩
  failed := fun error answer ended answered => by
    rcases answer with other | _ | value
    · rw [agrees.error other answered] at ended
      cases ended
      rfl
    · rw [(agrees.nothing answered).2.1] at ended
      cases ended
    · exact absurd ended ((agrees.value value answered).2 error)
  again := fun answer errand absent answered => by
    rcases answer with error | _ | value
    · exact ⟨error, agrees.error error answered, rfl⟩
    · rw [(agrees.nothing answered).1] at errand
      cases errand
    · rw [(agrees.value value answered).1] at absent
      cases absent

namespace Session

structure Lawful (session : Session κ ν ε ω) : Prop where
  distinct : session.cache.Distinct
  agrees : ∀ account ∈ session.accounts, account.Agrees session.cache
  offered : ∀ entry ∈ session.cache.entries, ∃ account ∈ session.accounts,
    account.Offers entry.1 entry.2

/-- What the users of a cache rely on: values stay published, and nobody changes the account of
    somebody else's call. -/
def rules : Sharing (Session κ ν ε ω) (Nat × Account κ ν ε) where
  Lawful := Lawful
  Moves before after := before.cache.entries <+: after.cache.entries
  Holds claim session := session.accounts[claim.1]? = some claim.2
  Tracks _ _ _ _ := True
  tracks_union := fun _ _ _ _ _ _ => True.intro
  Within _ := True

theorem find?_later {first last : Session κ ν ε ω} (later : rules.Later first last) {key : κ}
    {value : ν} (found : first.cache.find? key = some value) :
    last.cache.find? key = some value :=
  later.keep (fun session => session.cache.find? key = some value)
    (fun _ _ grown holds => find?_grows grown holds) found

theorem allows_same {before after : Session κ ν ε ω} (held : Set (Nat × Account κ ν ε))
    (lawful : before.Lawful) (holds : ∀ claim ∈ held, rules.Holds claim before)
    (entries : after.cache.entries = before.cache.entries)
    (accounts : after.accounts = before.accounts) : rules.Allows before held after held where
  moves := show before.cache.entries <+: after.cache.entries from entries ▸ List.prefix_rfl
  tracks := True.intro
  fresh := fun _ member => .inl member
  lawful := fun _ => by
    refine ⟨?_, ?_, ?_⟩
    · rw [Distinct, entries]
      exact lawful.distinct
    · intro account member
      rw [accounts] at member
      exact (lawful.agrees account member).grows (entries ▸ List.prefix_rfl)
    · rw [entries, accounts]
      exact lawful.offered
  holds := fun _ claim member => by
    change after.accounts[claim.1]? = some claim.2
    rw [accounts]
    exact holds claim member
  spared := fun _ claim _ held => by
    change after.accounts[claim.1]? = some claim.2
    rw [accounts]
    exact held

theorem counts : (rules (κ := κ) (ν := ν) (ε := ε) (ω := ω)).Counts cachePart where
  get_set := fun _ _ => rfl
  within := fun _ _ _ _ => True.intro
  allows := fun _ held _ lawful holds same => allows_same held lawful holds same rfl

theorem allows_begin {session : Session κ ν ε ω} (key : κ) (errand : Errand ν)
    (lawful : session.Lawful) :
    let account : Account κ ν ε := { key, errand, seen := session.cache.find? key }
    rules.Allows session ∅ { session with accounts := session.accounts ++ [account] }
      {(session.accounts.length, account)} := by
  intro account
  refine ⟨List.prefix_rfl, True.intro, ?_, fun _ => ⟨lawful.distinct, ?_, ?_⟩, fun _ => ?_,
    fun _ => ?_⟩
  · intro claim own
    obtain rfl := own
    right
    change session.accounts[session.accounts.length]? ≠ some account
    simp
  · intro other member
    rcases List.mem_append.mp member with present | new
    · exact lawful.agrees other present
    · obtain rfl := List.mem_singleton.mp new
      constructor <;> simp [account]
  · intro entry member
    obtain ⟨origin, present, offers⟩ := lawful.offered entry member
    exact ⟨origin, List.mem_append_left _ present, offers⟩
  · intro claim own
    obtain rfl := own
    change (session.accounts ++ [account])[session.accounts.length]? = some account
    simp
  · intro claim _ holds
    have inside := (List.getElem?_eq_some_iff.mp holds).1
    exact (List.getElem?_append_left inside).trans holds

theorem allows_amend {session : Session κ ν ε ω} {number : Nat} {account : Account κ ν ε}
    (change : Account κ ν ε → Account κ ν ε) (lawful : session.Lawful)
    (own : session.accounts[number]? = some account) (agrees : (change account).Agrees session.cache)
    (offers : ∀ key value, account.Offers key value → (change account).Offers key value) :
    rules.Allows session {(number, account)}
      { session with accounts := session.accounts.modify number change }
      {(number, change account)} := by
  have own_after : (session.accounts.modify number change)[number]? = some (change account) := by
    rw [List.getElem?_modify_eq, own]
    rfl
  have others : ∀ other ≠ number, (session.accounts.modify number change)[other]? =
      session.accounts[other]? := by
    intro other differs
    exact List.getElem?_modify_ne _ _ differs.symm
  refine ⟨List.prefix_rfl, True.intro, ?_, fun _ => ⟨lawful.distinct, ?_, ?_⟩, fun _ => ?_,
    fun _ => ?_⟩
  · intro claim own
    obtain rfl := own
    by_cases same : change account = account
    · left
      rw [same]
      rfl
    · right
      change session.accounts[number]? ≠ some (change account)
      rw [own]
      exact fun equal => same (Option.some.inj equal).symm
  · intro other member
    obtain ⟨position, present⟩ := List.mem_iff_getElem?.mp member
    by_cases here : position = number
    · subst here
      obtain rfl := Option.some.inj (own_after.symm.trans present)
      exact agrees
    · rw [others position here] at present
      exact lawful.agrees other (List.mem_of_getElem? present)
  · intro entry member
    obtain ⟨origin, present, offered⟩ := lawful.offered entry member
    obtain ⟨position, found⟩ := List.mem_iff_getElem?.mp present
    by_cases here : position = number
    · subst here
      obtain rfl := Option.some.inj (own.symm.trans found)
      exact ⟨change account, List.mem_of_getElem? own_after, offers _ _ offered⟩
    · rw [← others position here] at found
      exact ⟨origin, List.mem_of_getElem? found, offered⟩
  · intro claim own
    obtain rfl := own
    exact own_after
  · intro claim unheld holds
    obtain ⟨other, theirs⟩ := claim
    by_cases here : other = number
    · subst here
      obtain rfl := Option.some.inj (own.symm.trans holds)
      exact absurd rfl unheld
    · exact (others other here).trans holds

theorem allows_publish {session : Session κ ν ε ω} {number : Nat} {account : Account κ ν ε}
    (value : ν) (lawful : session.Lawful) (own : session.accounts[number]? = some account)
    (offers : account.Offers account.key value)
    (absent : session.cache.find? account.key = none) (held : Set (Nat × Account κ ν ε))
    (holds : ∀ claim ∈ held, rules.Holds claim session) :
    rules.Allows session held (cachePart.set session (session.cache.published account.key value))
      held := by
  have grown := published_grows session.cache account.key value
  refine ⟨grown, True.intro, fun _ member => .inl member, fun _ => ⟨?_, ?_, ?_⟩, fun _ => holds,
    fun _ _ _ holds => holds⟩
  · exact published_distinct lawful.distinct absent
  · intro other member
    exact (lawful.agrees other member).grows grown
  · intro entry member
    rcases mem_published.mp member with present | rfl
    · exact lawful.offered entry present
    · exact ⟨account, List.mem_of_getElem? own, offers⟩

theorem agrees_of_reaches {state found : Session κ ν ε ω} {number : Nat} {account : Account κ ν ε}
    (reached : rules.Reaches state {(number, account)} found) : account.Agrees found.cache :=
  reached.lawful.agrees account (List.mem_of_getElem? (reached.holds _ rfl))

theorem ensures_amend {state : Session κ ν ε ω} {number : Nat} {account : Account κ ν ε}
    (change : Account κ ν ε → Account κ ν ε)
    (agrees : ∀ found, rules.Reaches state {(number, account)} found →
      (change account).Agrees found.cache)
    (offers : ∀ key value, account.Offers key value → (change account).Offers key value) :
    rules.Ensures (fun _ kept _ => kept = {(number, change account)}) (amend number change) state
      {(number, account)} :=
  Sharing.Ensures.atomic fun found reached =>
    ⟨_, allows_amend change reached.lawful (reached.holds _ rfl) (agrees found reached) offers,
      fun _ => rfl⟩

theorem ensures_call {β : Type} {key : κ} {errand : Errand ν}
    {body : Nat → Routine (Session κ ν ε ω) β} {answer : β → Except ε (Option ν)}
    {rest : β → Routine (Session κ ν ε ω) α}
    (called : ∀ number seen state, rules.Ensures
      (fun final kept result => ∃ account : Account κ ν ε, kept = {(number, account)} ∧
        (account.reply (answer result)).Agrees final.cache)
      (body number) state {(number, { key, errand, seen })})
    (goes_on : ∀ result state, rules.Ensures (fun _ kept _ => kept = ∅) (rest result) state ∅)
    (state : Session κ ν ε ω) :
    rules.Ensures (fun _ kept _ => kept = ∅)
      (do
        let number ← begin key errand
        let result ← body number
        amend number (Account.reply (answer result))
        rest result)
      state ∅ := by
  have opened : rules.Ensures (fun _ kept number => ∃ seen, kept =
      {(number, { key, errand, seen })}) (begin key errand) state ∅ :=
    Sharing.Ensures.atomic fun found reached =>
      ⟨_, allows_begin key errand reached.lawful, fun _ => ⟨_, rfl⟩⟩
  apply opened.bind
  intro opening _ number opened_as
  obtain ⟨seen, rfl⟩ := opened_as
  apply (called number seen opening).bind
  intro final _ result ended
  obtain ⟨account, rfl, agrees⟩ := ended
  have answered : rules.Ensures (fun _ kept _ => kept = ∅)
      (amend number (Account.reply (answer result))) final {(number, account)} := by
    refine Sharing.Ensures.atomic fun found reached => ⟨∅, ?_, fun _ => rfl⟩
    have still : (account.reply (answer result)).Agrees found.cache :=
      reached.later.keep (fun session => (account.reply (answer result)).Agrees session.cache)
        (fun _ _ grown holds => holds.grows grown) agrees
    exact (allows_amend _ reached.lawful (reached.holds _ rfl) still fun _ _ offers => offers).drop
      (Set.empty_subset _) True.intro
  apply answered.bind
  intro closing kept _ dropped
  subst dropped
  exact goes_on result closing

/-- The constructor has no part in the account of the call that runs it, and may call the cache
    itself. -/
theorem ensures_constructing {β : Type} {number : Nat} {key : κ} (outcome : β → Except ε ν)
    {create : Routine (Session κ ν ε ω) β}
    (runs : ∀ state, rules.Ensures (fun _ kept _ => kept = ∅) create state ∅)
    (state : Session κ ν ε ω) :
    rules.Ensures
      (fun _ kept made => kept =
        {(number, Account.finish (outcome made) { key, errand := .creation, seen := none })})
      (constructing number outcome create) state
      {(number, { key, errand := .creation, seen := none })} := by
  unfold constructing
  refine (ensures_amend Account.start
    (fun _ _ => Account.agrees_unanswered _ rfl rfl (.inr rfl)) ?_).bind ?_
  · intro key value offers
    rcases offers with ⟨_, ended | inserted⟩
    · cases ended
    · cases inserted
  intro started kept _ begun
  subst begun
  have framed := (runs started).frame
    {(number, ({ key, errand := .creation, seen := none } : Account κ ν ε).start)}
    fun claim _ => Set.notMem_empty claim
  rw [Set.empty_union] at framed
  apply framed.bind
  intro built _ made ended
  obtain ⟨_, rfl, -, rfl⟩ := ended
  rw [Set.empty_union]
  refine (ensures_amend (Account.finish (outcome made))
    (fun _ _ => Account.agrees_unanswered _ rfl rfl (.inr rfl)) ?_).bind ?_
  · intro key value offers
    rcases offers with ⟨_, ended | inserted⟩
    · cases ended
    · cases inserted
  intro final kept _ finished
  subst finished
  exact Sharing.Ensures.pure rfl

theorem ensures_publish {number : Nat} {account : Account κ ν ε} {value : ν}
    (offers : account.Offers account.key value)
    (made : ∀ error, account.construction ≠ .ended (.error error)) (state : Session κ ν ε ω) :
    rules.Ensures (fun final kept visible => ∃ account : Account κ ν ε,
        kept = {(number, account)} ∧ (account.reply (.ok (some visible))).Agrees final.cache)
      (cachePart.atomic (Cache.publish account.key value)) state {(number, account)} := by
  refine counts.publish account.key value ?_ ?_
  · intro found visible reached present
    exact ⟨account, rfl, (agrees_of_reaches reached).reply_value present made⟩
  · intro found reached absent
    have grown := published_grows found.cache account.key value
    exact ⟨_, allows_publish value reached.lawful (reached.holds _ rfl) offers absent _ reached.holds,
      account, rfl,
      ((agrees_of_reaches reached).grows grown).reply_value (find?_published absent) made⟩

theorem unseen_of_missed {state missed : Session κ ν ε ω} {number : Nat} {account : Account κ ν ε}
    (reached : rules.Reaches state {(number, account)} missed)
    (absent : missed.cache.find? account.key = none) : account.seen = none := by
  refine Option.eq_none_iff_forall_ne_some.mpr fun value seen => ?_
  have visible := ((agrees_of_reaches reached).seen value seen).1
  rw [absent] at visible
  cases visible

theorem ensures_tryGet (key : κ) (number : Nat) (seen : Option ν) (state : Session κ ν ε ω) :
    rules.Ensures (fun final kept found => ∃ account : Account κ ν ε,
        kept = {(number, account)} ∧ (account.reply (.ok found)).Agrees final.cache)
      (cachePart.atomic (Cache.tryGet key)) state
      {(number, { key, errand := .lookup, seen })} := by
  refine counts.tryGet key _ fun found reached => ⟨_, rfl, ?_⟩
  have agrees := agrees_of_reaches reached
  cases looked : (cachePart.get found).find? key with
  | some value => exact agrees.reply_value looked nofun
  | none => exact agrees.reply_nothing looked rfl rfl

theorem ensures_getOrTryCreate {key : κ} {create : Routine (Session κ ν ε ω) (Except ε ν)}
    (runs : ∀ state, rules.Ensures (fun _ kept _ => kept = ∅) create state ∅) (number : Nat)
    (seen : Option ν) (state : Session κ ν ε ω) :
    rules.Ensures (fun final kept outcome => ∃ account : Account κ ν ε,
        kept = {(number, account)} ∧ (account.reply (outcome.map some)).Agrees final.cache)
      (Cache.getOrTryCreate cachePart key (constructing number id create)) state
      {(number, { key, errand := .creation, seen })} := by
  refine counts.getOrTryCreate key (fun _ kept outcome => kept =
    {(number, Account.finish outcome { key, errand := .creation, seen := none })}) _ ?_ ?_ ?_ ?_
  · intro found value reached looked
    exact ⟨_, rfl, (agrees_of_reaches reached).reply_value looked nofun⟩
  · intro missed found reached looked _
    obtain rfl := unseen_of_missed reached looked
    exact ensures_constructing id runs found
  · intro found kept error finished
    subst finished
    exact ⟨_, rfl, (Account.agrees_unanswered _ rfl rfl (.inr rfl)).reply_error rfl⟩
  · intro found kept value finished
    subst finished
    exact ensures_publish ⟨rfl, .inl rfl⟩ nofun found

theorem ensures_getOrCreate {key : κ} {create : Routine (Session κ ν ε ω) ν}
    (runs : ∀ state, rules.Ensures (fun _ kept _ => kept = ∅) create state ∅) (number : Nat)
    (seen : Option ν) (state : Session κ ν ε ω) :
    rules.Ensures (fun final kept value => ∃ account : Account κ ν ε,
        kept = {(number, account)} ∧ (account.reply (.ok (some value))).Agrees final.cache)
      (Cache.getOrCreate cachePart key (constructing number .ok create)) state
      {(number, { key, errand := .creation, seen })} := by
  refine counts.getOrCreate key (fun _ kept value => kept =
    {(number, Account.finish (.ok value) { key, errand := .creation, seen := none })}) _ ?_ ?_ ?_
  · intro found value reached looked
    exact ⟨_, rfl, (agrees_of_reaches reached).reply_value looked nofun⟩
  · intro missed found reached looked _
    obtain rfl := unseen_of_missed reached looked
    exact ensures_constructing .ok runs found
  · intro found kept value finished
    subst finished
    exact ensures_publish ⟨rfl, .inl rfl⟩ nofun found

theorem ensures_routine {α : Type} (program : Program κ ν ε ω α) :
    ∀ state : Session κ ν ε ω,
      rules.Ensures (fun _ kept _ => kept = ∅) program.routine state ∅ := by
  -- The constructors of the calls are programs, too, and have hypotheses of their own.
  induction program with
  | done result => exact fun state => Sharing.Ensures.pure rfl
  | other act next ih =>
    intro state found reached
    exact ⟨∅, allows_same ∅ reached.lawful reached.holds rfl rfl, fun _ => ih _ _⟩
  | tryGet key next ih => exact ensures_call (ensures_tryGet key) ih
  | getOrCreate key create next create_ih ih =>
    exact ensures_call (ensures_getOrCreate create_ih) ih
  | getOrTryCreate key create next create_ih ih =>
    exact ensures_call (ensures_getOrTryCreate create_ih) ih
  | getOrInsert key value next ih =>
    exact ensures_call (fun number seen state => ensures_publish ⟨rfl, .inr rfl⟩ nofun state) ih

theorem lawful_start (world : ω) : ({ world } : Session κ ν ε ω).Lawful where
  distinct := List.nodup_nil
  agrees := by simp
  offered := by simp

theorem follows_start (world : ω) (programs : List (Program κ ν ε ω Unit)) :
    rules.Follows (fun _ _ kept _ => kept = ∅) (pool world programs) fun _ => ∅ := by
  refine Sharing.Follows.start (lawful_start world) fun number routine present => ?_
  rw [pool, List.getElem?_map, Option.map_eq_some_iff] at present
  obtain ⟨program, -, rfl⟩ := present
  exact ensures_routine program _

/-- Whatever programs share a cache, in whatever order they take their steps: a key has one visible
    value for ever, which a constructor made or a call brought along, and every call that has its
    answer was served as it stands in `Account.Served`. -/
theorem agreement (world : ω) (programs : List (Program κ ν ε ω Unit)) (earlier later : List Nat) :
    let before := ((pool world programs).run earlier).state
    let after := ((pool world programs).run (earlier ++ later)).state
    after.cache.Distinct ∧
    (∀ key visible, before.cache.find? key = some visible → after.cache.find? key = some visible ∧
      ∀ account ∈ after.accounts, account.key = key →
        ∀ value, account.answer = some (.ok (some value)) → value = visible) ∧
    (∀ entry ∈ after.cache.entries, ∃ account ∈ after.accounts,
      account.Offers entry.1 entry.2) ∧
    ∀ account ∈ after.accounts, account.Served after.cache := by
  intro before after
  obtain ⟨-, held, at_before⟩ :=
    (follows_start world programs).run earlier fun _ _ => True.intro
  obtain ⟨grown, kept, at_after⟩ := at_before.run later fun _ _ => True.intro
  rw [← Pool.run_append] at grown at_after
  have served : ∀ account ∈ after.accounts, account.Served after.cache :=
    fun account member => (at_after.lawful.agrees account member).served
  refine ⟨at_after.lawful.distinct, ?_, at_after.lawful.offered, served⟩
  intro key visible found
  have still := find?_later grown found
  refine ⟨still, ?_⟩
  intro account member same_key value answered
  subst same_key
  have answer_visible := (served account member).value value answered
  rw [still, Option.some.injEq] at answer_visible
  exact answer_visible.symm

end Session

end Managed.Cache
