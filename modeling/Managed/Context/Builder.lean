import Managed.Context.Basic
import Managed.Text.Blank

namespace Managed

inductive BuildError where
  | emptySymbolExtension
  | emptyModuleName (path : Path)
deriving DecidableEq, Repr

def BuildError.message : BuildError → String
  | emptySymbolExtension => "Symbol extension cannot be empty"
  | emptyModuleName path => s!"Empty module name for {path}"

structure Builder where
  inputs : List (String × Path) := []
  references : List (String × Path) := []
  config : Config := {}
  factory : SymbolFactory := SymbolFactory.silent
  strategies : StrategySet := {}

namespace Builder

def inputFile (builder : Builder) (name : String) (path : Path) : Builder :=
  { builder with inputs := builder.inputs ++ [(name, path)] }

def referenceFile (builder : Builder) (name : String) (path : Path) : Builder :=
  { builder with references := builder.references ++ [(name, path)] }

def flatten (table : List (String × List Path)) : List (String × Path) :=
  table.flatMap fun entry => entry.2.map fun path => (entry.1, path)

def inputTable (builder : Builder) (table : List (String × List Path)) : Builder :=
  { builder with inputs := builder.inputs ++ flatten table }

def referenceTable (builder : Builder) (table : List (String × List Path)) : Builder :=
  { builder with references := builder.references ++ flatten table }

def isBlankName (name : String) : Bool := name.toList.all Text.isBlank

def table (registrations : List (String × Path)) : Except BuildError PathTable :=
  match registrations.find? fun entry => isBlankName entry.1 with
  | some entry => .error (.emptyModuleName entry.2)
  | none => .ok (PathTable.ofRegistrations registrations)

/-- The symbol extension is looked at before the names, the modules to compile before the others. -/
def build (builder : Builder) : Except BuildError Context :=
  if builder.config.symbolExtension.isEmpty then .error .emptySymbolExtension
  else do
    let inputs ← table builder.inputs
    let references ← table builder.references
    return {
      config := builder.config
      catalog := { tables := { inputs, references } }
      factory := builder.factory
      strategies := builder.strategies }

end Builder

end Managed
