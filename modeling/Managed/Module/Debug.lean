import Managed.Module.Basic
import Managed.Text.Quoted
import Managed.Text.Record

namespace Managed

def optionText {α : Type} (text : α → String) : Option α → String
  | some value => "Some(" ++ text value ++ ")"
  | none => "None"

def Version.debug (version : Version) : String :=
  Text.Record.whole "AssemblyVersion" [("major", toString version.major.toNat),
    ("minor", toString version.minor.toNat), ("build", toString version.build.toNat),
    ("revision", toString version.revision.toNat)]

def PublicKeyToken.debug (token : PublicKeyToken) : String :=
  "StrongNameToken([" ++ ", ".intercalate (token.bytes.map fun byte => toString byte.toNat) ++ "])"

def Identity.debug (identity : Identity) : String :=
  Text.Record.whole "ModuleIdentity" [("name", Text.Quoted.text identity.name),
    ("version", optionText Version.debug identity.version),
    ("culture", optionText Text.Quoted.text identity.culture),
    ("token", optionText PublicKeyToken.debug identity.token),
    ("flags", "AssemblyFlags(" ++ describeFlags identity.flags ++ ")")]

def Module.debug (loaded : Module) (id : String) : String :=
  Text.Record.abridged "Module" [("id", "ModuleId(" ++ id ++ ")"),
    ("path", Text.Quoted.text loaded.path), ("identity", loaded.identity.debug),
    ("len", toString loaded.data.length)]

end Managed
