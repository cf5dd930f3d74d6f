import Managed.Context.Delegates
import Managed.Context.Strategy
import Managed.Resolver
import Managed.Symbols.Attachment

namespace Managed

structure Config where
  failOnAmbiguity : Bool := false
  attachSymbols : Bool := true
  symbolExtension : String := "pdb"
deriving DecidableEq, Repr

namespace Config

def strict : Config := { failOnAmbiguity := true }

def withoutSymbols : Config := { attachSymbols := false }

end Config

structure Context where
  config : Config
  catalog : Catalog
  factory : SymbolFactory
  symbols : SymbolStore := {}
  delegates : Delegates := {}
  strategies : StrategySet := {}

namespace Context

def resolver (context : Context) : Resolver := ⟨context.config.failOnAmbiguity⟩

def attacher (context : Context) : SymbolAttacher :=
  ⟨context.factory, context.config.symbolExtension, context.config.attachSymbols⟩

def withCatalog {α : Type} (context : Context) (outcome : α × Catalog) : α × Context :=
  (outcome.1, { context with catalog := outcome.2 })

variable [Image.Parser]

def resolve (context : Context) (files : FileSystem) (request : Request) (strict : Bool) :
    Except Error (Option Module) × Context :=
  context.withCatalog (context.resolver.resolve context.catalog files request strict)

def resolveName (context : Context) (files : FileSystem) (name : String) (strict : Bool) :
    Except Error (Option Module) × Context :=
  context.withCatalog (context.resolver.resolveName context.catalog files name strict)

def fromPath (context : Context) (files : FileSystem) (path : Path) :
    Except Error Module × Context :=
  context.withCatalog (context.catalog.fromPath files path)

def openModule (context : Context) (files : FileSystem) (path : Path) (expected : Option String) :
    Except Error Module × Context :=
  context.withCatalog (context.catalog.openModule files path expected)

def byId (context : Context) (id : ModuleId) : Option Module × Context :=
  context.withCatalog (context.catalog.byId id)

def candidates (context : Context) (files : FileSystem) (name : String) :
    Except Error (Option (List Module)) × Context :=
  context.withCatalog (context.catalog.candidates files name)

def preload (context : Context) (files : FileSystem) (schedule : List Nat := []) :
    List Error × Context :=
  context.withCatalog (context.catalog.preload files schedule)

def attachSymbols (context : Context) (files : FileSystem) (loaded : Module) :
    Option SymbolReader × Context :=
  let outcome := context.attacher.attach files loaded context.symbols
  (outcome.1, { context with symbols := outcome.2 })

def symbolsFor (context : Context) (files : FileSystem) (method : MethodHandle) :
    Option SymbolReader × Context :=
  match context.byId method.owner with
  | (some loaded, context) => context.attachSymbols files loaded
  | (none, context) => (none, context)

def sequencePointsFor (context : Context) (files : FileSystem) (method : MethodHandle) :
    Option (List SequencePoint) × Context :=
  let outcome := context.symbolsFor files method
  (outcome.1.map (·.sequencePoints method.token), outcome.2)

def localNamesFor (context : Context) (files : FileSystem) (method : MethodHandle) :
    Option (List String) × Context :=
  let outcome := context.symbolsFor files method
  (outcome.1.map (·.localNames method.token), outcome.2)

def delegateInfo (context : Context) (type : TypeHandle) : DelegateRef × Context :=
  let outcome := context.delegates.get type
  (outcome.1, { context with delegates := outcome.2 })

end Context

end Managed
