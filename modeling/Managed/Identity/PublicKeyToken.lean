import Managed.Defect
import Managed.Digest.Sha1
import Managed.Text.Blank
import Managed.Text.Utf8

namespace Managed

/-- The bytes that stand for a public key. A request may carry a token of any length. -/
structure PublicKeyToken where
  bytes : Bytes
deriving DecidableEq, Repr

namespace PublicKeyToken

def length : Nat := 8

/-- The last bytes of the digest of the key, in reverse. -/
def ofPublicKey (key : Bytes) : PublicKeyToken :=
  let digest := Digest.Sha1.digest key
  ⟨(digest.drop (digest.length - length)).reverse⟩

def isEmpty (token : PublicKeyToken) : Bool := token.bytes.isEmpty

def displayChars (token : PublicKeyToken) : List Char := Text.Hex.encode token.bytes

def display (token : PublicKeyToken) : String := String.ofList token.displayChars

/-- Hexadecimal digits of either case; blanks around them do not count. -/
def parseChars (text : List Char) : Except Defect PublicKeyToken :=
  match Text.Hex.decode ((Text.trim text).flatMap String.utf8EncodeChar) with
  | .ok bytes => .ok ⟨bytes⟩
  | .error error => .error (.publicKeyToken (String.ofList text) error)

def parse (text : String) : Except Defect PublicKeyToken := parseChars text.toList

end PublicKeyToken

end Managed
