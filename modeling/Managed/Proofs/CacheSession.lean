import Managed.Cache

namespace Managed.Cache

inductive Errand (ν : Type) where
  | lookup
  | creation
  | insertion (value : ν)

inductive Construction (ν ε : Type) where
  | unneeded
  | running
  | ended (outcome : Except ε ν)

/-- What there is to tell of a call: what it wants, the value that was visible when it began, its
    constructor, and its answer once it has one. -/
structure Account (κ ν ε : Type) where
  key : κ
  errand : Errand ν
  seen : Option ν
  construction : Construction ν ε := .unneeded
  answer : Option (Except ε (Option ν)) := none

structure Session (κ ν ε ω : Type) where
  cache : Cache κ ν := {}
  world : ω
  accounts : List (Account κ ν ε) := []

/-- What a user of a cache does: it acts on other things and calls the cache, any number of times.
    The constructor of a call is such a program again, and may call the cache for any key. -/
inductive Program (κ ν ε ω : Type) : Type → Type 1 where
  | done {α : Type} (result : α) : Program κ ν ε ω α
  | other {α : Type} (act : ω → ω) (next : ω → Program κ ν ε ω α) : Program κ ν ε ω α
  | tryGet {α : Type} (key : κ) (next : Option ν → Program κ ν ε ω α) : Program κ ν ε ω α
  | getOrCreate {α : Type} (key : κ) (create : Program κ ν ε ω ν)
      (next : ν → Program κ ν ε ω α) : Program κ ν ε ω α
  | getOrTryCreate {α : Type} (key : κ) (create : Program κ ν ε ω (Except ε ν))
      (next : Except ε ν → Program κ ν ε ω α) : Program κ ν ε ω α
  | getOrInsert {α : Type} (key : κ) (value : ν) (next : ν → Program κ ν ε ω α) :
      Program κ ν ε ω α

namespace Account

variable {κ ν ε : Type}

def start (account : Account κ ν ε) : Account κ ν ε :=
  { account with construction := .running }

def finish (outcome : Except ε ν) (account : Account κ ν ε) : Account κ ν ε :=
  { account with construction := .ended outcome }

def reply (answer : Except ε (Option ν)) (account : Account κ ν ε) : Account κ ν ε :=
  { account with answer := some answer }

end Account

namespace Session

variable {κ ν ε ω α : Type} [DecidableEq κ]

def cachePart : Part (Session κ ν ε ω) (Cache κ ν) where
  get session := session.cache
  set session cache := { session with cache }

def begin (key : κ) (errand : Errand ν) : Routine (Session κ ν ε ω) Nat :=
  Routine.atomic fun session =>
    (session.accounts.length, { session with accounts :=
      session.accounts ++ [{ key, errand, seen := session.cache.find? key }] })

def amend (number : Nat) (change : Account κ ν ε → Account κ ν ε) :
    Routine (Session κ ν ε ω) Unit :=
  Routine.atomic fun session =>
    ((), { session with accounts := session.accounts.modify number change })

def constructing (number : Nat) (outcome : α → Except ε ν) (create : Routine (Session κ ν ε ω) α) :
    Routine (Session κ ν ε ω) α := do
  amend number Account.start
  let made ← create
  amend number (Account.finish (outcome made))
  return made

end Session

def Program.routine {κ ν ε ω : Type} [DecidableEq κ] {α : Type} :
    Program κ ν ε ω α → Routine (Session κ ν ε ω) α
  | .done result => return result
  | .other act next =>
    .step (fun session => { session with world := act session.world })
      fun session => (next session.world).routine
  | .tryGet key next => do
    let number ← Session.begin key .lookup
    let found ← Session.cachePart.atomic (Cache.tryGet key)
    Session.amend number (Account.reply (.ok found))
    (next found).routine
  | .getOrCreate key create next => do
    let number ← Session.begin key .creation
    let value ← Cache.getOrCreate Session.cachePart key
      (Session.constructing number .ok create.routine)
    Session.amend number (Account.reply (.ok (some value)))
    (next value).routine
  | .getOrTryCreate key create next => do
    let number ← Session.begin key .creation
    let outcome ← Cache.getOrTryCreate Session.cachePart key
      (Session.constructing number id create.routine)
    Session.amend number (Account.reply (outcome.map some))
    (next outcome).routine
  | .getOrInsert key value next => do
    let number ← Session.begin key (.insertion value)
    let visible ← Cache.getOrInsert Session.cachePart key value
    Session.amend number (Account.reply (.ok (some visible)))
    (next visible).routine

def Session.pool {κ ν ε ω : Type} [DecidableEq κ] (world : ω)
    (programs : List (Program κ ν ε ω Unit)) : Pool (Session κ ν ε ω) Unit :=
  ⟨{ world }, programs.map Program.routine⟩

end Managed.Cache
