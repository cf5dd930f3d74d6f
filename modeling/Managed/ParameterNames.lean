namespace Managed

structure ParameterNames where
  hasThis : Bool
  declared : List String
deriving DecidableEq, Repr

namespace ParameterNames

def thisName : String := "_this"

def ofMethod (isStatic : Bool) (names : List String) : ParameterNames := ⟨!isStatic, names⟩

/-- Only the instance is named before the declared parameters. -/
def next (names : ParameterNames) : Option String × ParameterNames :=
  if names.hasThis then (some thisName, { names with hasThis := false })
  else
    match names.declared with
    | [] => (none, names)
    | name :: rest => (some name, { names with declared := rest })

def length (names : ParameterNames) : Nat :=
  names.declared.length + if names.hasThis then 1 else 0

def toList (names : ParameterNames) : List String :=
  if names.hasThis then thisName :: names.declared else names.declared

def drain (names : ParameterNames) : List String × ParameterNames :=
  (names.toList, ⟨false, []⟩)

inductive Query where
  | next (number : Nat)
  | length (number : Nat)
  | clone (number : Nat)
  | rest (number : Nat)
deriving DecidableEq, Repr

inductive Answer where
  | name (name : Option String)
  | count (count : Nat)
  | names (names : List String)
  | unknown
deriving DecidableEq, Repr

/-- Asks one of several iterators; a clone joins them at the end. -/
def ask (iterators : List ParameterNames) : Query → Answer × List ParameterNames
  | .next number =>
    match iterators[number]? with
    | some names => (.name names.next.1, iterators.set number names.next.2)
    | none => (.unknown, iterators)
  | .length number =>
    match iterators[number]? with
    | some names => (.count names.length, iterators)
    | none => (.unknown, iterators)
  | .clone number =>
    match iterators[number]? with
    | some names => (.count iterators.length, iterators ++ [names])
    | none => (.unknown, iterators)
  | .rest number =>
    match iterators[number]? with
    | some names => (.names names.drain.1, iterators.set number names.drain.2)
    | none => (.unknown, iterators)

def askAll : (iterators : List ParameterNames) → (queries : List Query) →
    List Answer × List ParameterNames
  | iterators, [] => ([], iterators)
  | iterators, query :: rest =>
    let first := ask iterators query
    let later := askAll first.2 rest
    (first.1 :: later.1, later.2)

end ParameterNames

end Managed
