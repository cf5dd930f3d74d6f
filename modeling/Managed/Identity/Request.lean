import Managed.Identity.Basic
import Managed.Text.Split

namespace Managed

/-- The module that is asked for: its name, the least version and the token that it may have.
    The culture is kept but does not matter. -/
structure Request where
  name : String
  version : Option Version := none
  culture : Option String := none
  token : Option PublicKeyToken := none
deriving DecidableEq, Repr

namespace Request

/-- Takes up one part of a display name; parts without a known key say nothing. -/
def addPart (request : Request) (part : List Char) : Except Defect Request :=
  match Text.splitOnce '=' part with
  | none => .ok request
  | some (key, value) =>
    let key := Text.trim key
    let value := Text.trim value
    if key = "Version".toList then
      (Version.parseChars value).map fun version => { request with version := some version }
    else if key = "Culture".toList then
      if value.isEmpty || Text.sameAscii value "neutral".toList then .ok request
      else .ok { request with culture := some (String.ofList value) }
    else if key = "PublicKeyToken".toList then
      if value.isEmpty || Text.sameAscii value "null".toList then .ok request
      else (PublicKeyToken.parseChars value).map fun token => { request with token := some token }
    else .ok request

def addParts (request : Request) : (parts : List (List Char)) → Except Defect Request
  | [] => .ok request
  | part :: rest =>
    match request.addPart part with
    | .ok request => request.addParts rest
    | .error defect => .error defect

def parseChars (text : List Char) : Except Defect Request :=
  match (text.splitOn ',').map Text.trim with
  | [] => .error .emptyAssemblyName
  | name :: parts =>
    if name.isEmpty then .error .emptyAssemblyName
    else addParts { name := String.ofList name } parts

def parse (text : String) : Except Defect Request := parseChars text.toList

def displayChars (request : Request) : List Char :=
  request.name.toList ++
    (match request.version with
      | some version => ", Version=".toList ++ version.displayChars
      | none => []) ++
    (match request.culture with
      | some culture => ", Culture=".toList ++ culture.toList
      | none => []) ++
    (match request.token with
      | some token => ", PublicKeyToken=".toList ++ token.displayChars
      | none => [])

def display (request : Request) : String := String.ofList request.displayChars

/-- A requested version is a lower bound, which a candidate without version does not reach. -/
def AllowsVersion (request : Request) (found : Option Version) : Prop :=
  match request.version, found with
  | none, _ => True
  | some _, none => False
  | some least, some version => least ≤ version

/-- A requested token is compared only with a candidate's token that has any bytes. -/
def AllowsToken (request : Request) (found : Option PublicKeyToken) : Prop :=
  match request.token, found with
  | some wanted, some token => token.isEmpty = true ∨ wanted.bytes = token.bytes
  | _, _ => True

def Allows (request : Request) (candidate : Identity) : Prop :=
  candidate.name = request.name ∧ request.AllowsVersion candidate.version ∧
    request.AllowsToken candidate.token

instance (request : Request) (found : Option Version) :
    Decidable (request.AllowsVersion found) := by
  unfold AllowsVersion
  split <;> infer_instance

instance (request : Request) (found : Option PublicKeyToken) :
    Decidable (request.AllowsToken found) := by
  unfold AllowsToken
  split <;> infer_instance

instance (request : Request) (candidate : Identity) : Decidable (request.Allows candidate) := by
  unfold Allows
  infer_instance

end Request

end Managed
