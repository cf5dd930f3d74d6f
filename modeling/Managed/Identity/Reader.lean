import Managed.Identity.Basic
import Managed.Metadata.BlobHeap
import Managed.Metadata.StringsHeap
import Managed.Metadata.TablesStream
import Managed.Text.Split

namespace Managed.Identity

open Metadata

/-- A module that is no assembly is named after its file, without one of these endings. -/
def moduleEndings : List (List Char) := [".netmodule".toList, ".dll".toList]

def moduleName (name : String) : String :=
  match moduleEndings.findSome? (Text.stripSuffix? · name.toList) with
  | some stem => String.ofList stem
  | none => name

def ofModuleRow (row : ModuleRow) (strings : StringsHeap) : Except Fault Identity := do
  let name ← strings.get row.name
  return { name := moduleName name }

def culture? (text : String) : Option String :=
  if text = "" ∨ text = "neutral" then none else some text

def publicKey (row : AssemblyRow) (blobs : Option BlobHeap) : Except Fault Bytes :=
  match blobs with
  | some heap => if row.publicKey = 0 then .ok [] else heap.get row.publicKey
  | none => .ok []

def ofAssemblyRow (row : AssemblyRow) (strings : StringsHeap) (blobs : Option BlobHeap) :
    Except Fault Identity := do
  let name ← strings.get row.name
  let culture ← strings.get row.culture
  let key ← publicKey row blobs
  return {
    name
    version := some ⟨UInt16.ofNat row.major, UInt16.ofNat row.minor, UInt16.ofNat row.build,
      UInt16.ofNat row.revision⟩
    culture := culture? culture
    token := if key.isEmpty then none else some (PublicKeyToken.ofPublicKey key)
    flags := row.flags }

/-- An assembly row decides; only without one is the module row asked. -/
def read (tables : TablesStream) (strings : StringsHeap) (blobs : Option BlobHeap) :
    Except Fault Identity := do
  match ← tables.assemblyRow with
  | some row => ofAssemblyRow row strings blobs
  | none => ofModuleRow (← tables.moduleRow) strings

end Managed.Identity
