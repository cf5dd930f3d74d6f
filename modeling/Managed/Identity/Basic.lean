import Managed.Identity.PublicKeyToken
import Managed.Identity.Version

namespace Managed

/-- What a module declares about itself. A module that is no assembly has a name only. -/
structure Identity where
  name : String
  version : Option Version := none
  culture : Option String := none
  token : Option PublicKeyToken := none
  flags : Nat := 0
deriving DecidableEq, Repr

namespace Identity

def displayChars (identity : Identity) : List Char :=
  identity.name.toList ++
    (match identity.version with
      | some version => ", Version=".toList ++ version.displayChars
      | none => []) ++
    ", Culture=".toList ++ (identity.culture.getD "neutral").toList ++
    ", PublicKeyToken=".toList ++
    (match identity.token with
      | some token => token.displayChars
      | none => "null".toList)

def display (identity : Identity) : String := String.ofList identity.displayChars

def isAssembly (identity : Identity) : Bool := identity.version.isSome

end Identity

def assemblyFlagNames : List (Nat × String) :=
  [(0x0001, "PUBLIC_KEY"), (0x0100, "RETARGETABLE"), (0x4000, "DISABLE_JIT_COMPILE_OPTIMIZER"),
    (0x8000, "ENABLE_JIT_COMPILE_TRACKING")]

def describeFlags (flags : Nat) : String :=
  let named := assemblyFlagNames.filter fun entry => flags &&& entry.1 ≠ 0
  let rest := flags - named.foldr (fun entry total => entry.1 + total) 0
  let unnamed := if rest ≠ 0 ∨ flags = 0 then ["0x" ++ String.ofList (Nat.toDigits 16 rest)] else []
  " | ".intercalate (named.map (·.2) ++ unnamed)

end Managed
