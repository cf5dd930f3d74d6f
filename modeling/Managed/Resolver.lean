import Managed.Catalog.Basic

namespace Managed

/-- Whether strict requests may be answered although several modules satisfy them. -/
structure Resolver where
  failOnAmbiguity : Bool
deriving DecidableEq, Repr

namespace Resolver

/-- A request that nothing answers is an error only if it is strict. -/
def missing (request : Request) (strict : Bool) : Except Error (Option Module) :=
  if strict then .error (.notFound request) else .ok none

def pickAmong (resolver : Resolver) (request : Request) (strict : Bool)
    (candidates : List Module) : Except Error (Option Module) :=
  let compatible := candidates.filter fun candidate => request.Allows candidate.identity
  match compatible.getLast? with
  | none => missing request strict
  | some last =>
    if strict && resolver.failOnAmbiguity && 1 < compatible.length then
      .error (.ambiguous request (compatible.map (·.path)))
    else .ok (some last)

/-- The only candidate has to satisfy the request only if the request is strict. -/
def pick (resolver : Resolver) (request : Request) (strict : Bool) :
    (candidates : List Module) → Except Error (Option Module)
  | [candidate] =>
    if strict && !(request.Allows candidate.identity : Bool) then
      .error (.incompatible request candidate.identity)
    else .ok (some candidate)
  | candidates => resolver.pickAmong request strict candidates

def answer (resolver : Resolver) (request : Request) (strict : Bool) :
    (found : Except Error (Option (List Module))) → Except Error (Option Module)
  | .error error => .error error
  | .ok none => missing request strict
  | .ok (some candidates) => resolver.pick request strict candidates

def forgive (strict : Bool) : Except Error (Option Module) → Except Error (Option Module)
  | .error error => if strict then .error error else .ok none
  | .ok found => .ok found

variable [Image.Parser]

def resolve (resolver : Resolver) (catalog : Catalog) (files : FileSystem) (request : Request)
    (strict : Bool) : Except Error (Option Module) × Catalog :=
  let outcome := catalog.candidates files request.name
  (forgive strict (resolver.answer request strict outcome.1), outcome.2)

def resolveName (resolver : Resolver) (catalog : Catalog) (files : FileSystem) (name : String)
    (strict : Bool) : Except Error (Option Module) × Catalog :=
  resolver.resolve catalog files { name } strict

def debug (resolver : Resolver) : String :=
  Text.Record.abridged "AssemblyResolver"
    [("fail_on_ambiguity", toString resolver.failOnAmbiguity)]

end Resolver

end Managed
