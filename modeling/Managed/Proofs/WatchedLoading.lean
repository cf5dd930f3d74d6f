import Managed.Module.Basic
import Managed.Proofs.WatchedTables

namespace Managed

open Metadata

def Image.parsedBy (parse : Bytes → Option Image.Container) (data : Bytes) : Except Fault Image :=
  if data.isEmpty then .error .empty
  else
    match parse data with
    | none => .error .container
    | some container => Image.ofContainer data container

def Module.loadedBy (parse : Bytes → Option Image.Container) (id : ModuleId) (path : Path)
    (data : Bytes) : Except Error Module :=
  match Image.parsedBy parse data >>= Contents.ofImage with
  | .ok contents => .ok { id, path, contents }
  | .error fault => .error (.load path fault)

theorem Module.ofBytes_eq (parse : Bytes → Option Image.Container) (id : ModuleId) (path : Path)
    (data : Bytes) :
    @Module.ofBytes ⟨parse⟩ id path data = Module.loadedBy parse id path data := rfl

namespace Watched

open WatchedReader

def readCompressed : WatchedReader Nat := do
  let lead ← number 1
  if lead < 0x80 then
    return lead
  else if lead < 0xC0 then
    let low ← number 1
    return (lead - 0x80) * 0x100 + low
  else if lead < 0xE0 then
    let upper ← number 1
    let middle ← number 1
    let low ← number 1
    return (lead - 0xC0) * 0x1000000 + upper * 0x10000 + middle * 0x100 + low
  else
    throw (.malformed (.compressedLead lead))

def readBlob : WatchedReader Bytes := do
  let length ← readCompressed
  bytes length

theorem ofReader_readCompressed : ofReader Integer.Compressed.read = readCompressed := by
  simp only [Integer.Compressed.read, readCompressed, ofReader_bind, ofReader_byte, ofReader_ite,
    ofReader_pure, ofReader_malformed]

theorem ofReader_readBlob : ofReader BlobHeap.readBlob = readBlob := by
  simp only [BlobHeap.readBlob, readBlob, ofReader_bind, ofReader_readCompressed, ofReader_bytes]

def beginsWithZero (data : Bytes) : Watched Bool :=
  if data.isEmpty then return false
  else do
    let lead ← byteAt data 0
    return lead = 0

theorem beginsWithZero_eq (data : Bytes) :
    beginsWithZero data = pure (decide (data.head? = some 0)) := by
  cases data with
  | nil => rfl
  | cons lead rest =>
    have there : (lead :: rest)[0]? = some lead := rfl
    rw [beginsWithZero, byteAt_eq there]
    simp

def stringsHeap (data : Bytes) : Watched StringsHeap := do
  if ← beginsWithZero data then return ⟨data⟩ else throw (.malformed .emptyStringsHeap)

def blobHeap (data : Bytes) : Watched BlobHeap := do
  if ← beginsWithZero data then return ⟨data⟩ else throw (.malformed .emptyBlobHeap)

def textAt (heap : StringsHeap) (index : Nat) : Watched String :=
  if heap.data.length ≤ index then throw .outOfBounds
  else do
    let ahead ← after heap.data index
    match (StringsHeap.terminated? ahead).bind Text.Utf8.decode? with
    | some text => return text
    | none => throw (.malformed (.heapString index))

def blobAt (heap : BlobHeap) (index : Nat) : Watched Bytes :=
  if heap.data.length ≤ index then throw .outOfBounds
  else do
    let ahead ← after heap.data index
    run readBlob ahead

theorem stringsHeap_eq (data : Bytes) :
    stringsHeap data = answered (StringsHeap.ofBytes data) := by
  rw [stringsHeap, beginsWithZero_eq, pure_bind, StringsHeap.ofBytes]
  by_cases begins : data.head? = some 0
  · rw [if_pos begins, if_pos (decide_eq_true begins)]
    rfl
  · rw [if_neg begins, if_neg (by simpa using begins)]
    rfl

theorem blobHeap_eq (data : Bytes) : blobHeap data = answered (BlobHeap.ofBytes data) := by
  rw [blobHeap, beginsWithZero_eq, pure_bind, BlobHeap.ofBytes]
  by_cases begins : data.head? = some 0
  · rw [if_pos begins, if_pos (decide_eq_true begins)]
    rfl
  · rw [if_neg begins, if_neg (by simpa using begins)]
    rfl

theorem textAt_eq (heap : StringsHeap) (index : Nat) :
    textAt heap index = answered (heap.get index) := by
  rw [textAt, StringsHeap.get]
  by_cases outside : heap.data.length ≤ index
  · rw [if_pos outside, if_pos outside]
    rfl
  · rw [if_neg outside, if_neg outside, after_eq (by omega), pure_bind]
    cases (StringsHeap.terminated? (heap.data.drop index)).bind Text.Utf8.decode? <;> rfl

theorem blobAt_eq (heap : BlobHeap) (index : Nat) :
    blobAt heap index = answered (heap.get index) := by
  rw [blobAt, BlobHeap.get]
  by_cases outside : heap.data.length ≤ index
  · rw [if_pos outside, if_pos outside]
    rfl
  · rw [if_neg outside, if_neg outside, after_eq (by omega), pure_bind, ← ofReader_readBlob,
      run_ofReader]

def publicKeyToken (key : Bytes) : Watched PublicKeyToken := do
  let digest := Digest.Sha1.digest key
  let first ← minus digest.length PublicKeyToken.length
  let tail ← after digest first
  return ⟨tail.reverse⟩

theorem publicKeyToken_eq (key : Bytes) :
    publicKeyToken key = pure (PublicKeyToken.ofPublicKey key) := by
  have size := Digest.Sha1.length_digest key
  have room : PublicKeyToken.length ≤ (Digest.Sha1.digest key).length := by
    rw [size]
    decide
  rw [publicKeyToken, minus_eq room, pure_bind, after_eq (Nat.sub_le _ _), pure_bind]
  rfl

def ofModuleRow (row : ModuleRow) (strings : StringsHeap) : Watched Identity := do
  let name ← textAt strings row.name
  return { name := Identity.moduleName name }

def publicKey (row : AssemblyRow) (blobs : Option BlobHeap) : Watched Bytes :=
  match blobs with
  | some heap => if row.publicKey = 0 then return [] else blobAt heap row.publicKey
  | none => return []

def ofAssemblyRow (row : AssemblyRow) (strings : StringsHeap) (blobs : Option BlobHeap) :
    Watched Identity := do
  let name ← textAt strings row.name
  let culture ← textAt strings row.culture
  let key ← publicKey row blobs
  let token ← if key.isEmpty then pure none else some <$> publicKeyToken key
  return {
    name
    version := some ⟨UInt16.ofNat row.major, UInt16.ofNat row.minor, UInt16.ofNat row.build,
      UInt16.ofNat row.revision⟩
    culture := Identity.culture? culture
    token
    flags := row.flags }

theorem ofModuleRow_eq (row : ModuleRow) (strings : StringsHeap) :
    ofModuleRow row strings = answered (Identity.ofModuleRow row strings) := by
  simp only [ofModuleRow, Identity.ofModuleRow, textAt_eq, answered_bind, answered_pure]

theorem publicKey_eq (row : AssemblyRow) (blobs : Option BlobHeap) :
    publicKey row blobs = answered (Identity.publicKey row blobs) := by
  cases blobs with
  | none => rfl
  | some heap =>
    unfold publicKey Identity.publicKey
    by_cases first : row.publicKey = 0
    · simp only [if_pos first]
      rfl
    · simp only [if_neg first]
      exact blobAt_eq heap row.publicKey

theorem ofAssemblyRow_eq (row : AssemblyRow) (strings : StringsHeap) (blobs : Option BlobHeap) :
    ofAssemblyRow row strings blobs = answered (Identity.ofAssemblyRow row strings blobs) := by
  simp only [ofAssemblyRow, Identity.ofAssemblyRow, textAt_eq, publicKey_eq, publicKeyToken_eq,
    answered_bind, answered_pure]
  congr 1
  funext name
  congr 1
  funext culture
  congr 1
  funext key
  cases key.isEmpty <;> rfl

def readIdentity (tables : TablesStream) (strings : StringsHeap) (blobs : Option BlobHeap) :
    Watched Identity := do
  match ← assemblyRow tables with
  | some row => ofAssemblyRow row strings blobs
  | none => ofModuleRow (← moduleRow tables) strings

theorem readIdentity_eq (tables : TablesStream) (strings : StringsHeap)
    (blobs : Option BlobHeap) :
    readIdentity tables strings blobs = answered (Identity.read tables strings blobs) := by
  rw [readIdentity, Identity.read, assemblyRow_eq, answered_bind]
  congr 1
  funext row
  cases row with
  | some row => exact ofAssemblyRow_eq row strings blobs
  | none => simp only [moduleRow_eq, ofModuleRow_eq, answered_bind]

def imageSlice (image : Image) (offset length : Nat) : Watched Bytes :=
  if offset + length ≤ image.data.length then range image.data offset (offset + length)
  else throw .outOfBounds

theorem imageSlice_eq (image : Image) (offset length : Nat) :
    imageSlice image offset length = answered (image.slice offset length) := by
  rw [imageSlice, Image.slice, Bytes.slice?_eq]
  by_cases fits : offset + length ≤ image.data.length
  · rw [if_pos fits, if_pos fits, range_eq (Nat.le_add_right _ _) fits, Nat.add_sub_cancel_left]
    rfl
  · rw [if_neg fits, if_neg fits]
    rfl

def blobHeap? : Option Bytes → Watched (Option BlobHeap)
  | none => return none
  | some bytes => some <$> blobHeap bytes

theorem blobHeap?_eq (stream : Option Bytes) :
    blobHeap? stream = answered (Contents.blobHeap? stream) := by
  cases stream with
  | none => rfl
  | some bytes =>
    rw [blobHeap?, blobHeap_eq, Contents.blobHeap?]
    cases BlobHeap.ofBytes bytes <;> rfl

def readTables (root : Root) (metadata : Bytes) : Watched (Layout × Identity) := do
  let stream ← answered (Contents.requireSome .noTableStream (root.tablesStream? metadata))
  let tables ← tablesStream stream
  let texts ← answered (Contents.requireSome .noStringsHeap (root.stream? metadata .strings))
  let strings ← stringsHeap texts
  let blobs ← blobHeap? (root.stream? metadata .blob)
  let identity ← readIdentity tables strings blobs
  return (tables.layout, identity)

theorem readTables_eq (root : Root) (metadata : Bytes) :
    readTables root metadata = answered (Contents.readTables root metadata) := by
  simp only [readTables, Contents.readTables, tablesStream_eq, stringsHeap_eq, blobHeap?_eq,
    readIdentity_eq, answered_bind, answered_pure]

def contents (image : Image) : Watched Contents := do
  if image.cli.size < CliHeader.byteSize then
    throw (.malformed (.cliDirectoryTooSmall image.cli.size))
  let headerOffset ← answered (image.offsetOf image.cli.rva)
  let header ← cliHeader (← imageSlice image headerOffset CliHeader.byteSize)
  let metadataOffset ← answered (image.offsetOf header.metadata.rva)
  let metadata ← imageSlice image metadataOffset header.metadata.size
  let root ← run readRoot metadata
  let (layout, identity) ← readTables root metadata
  return {
    image
    identity
    runtimeVersion := root.version
    metadataOffset
    metadataSize := header.metadata.size
    layout }

theorem contents_eq (image : Image) : contents image = answered (Contents.ofImage image) := by
  rw [contents, Contents.ofImage]
  by_cases small : image.cli.size < CliHeader.byteSize
  · simp only [if_pos small]
    rfl
  · simp only [if_neg small, imageSlice_eq, cliHeader_eq, root_eq, readTables_eq, answered_bind,
      answered_pure]

def loadedBy (parse : Bytes → Option Image.Container) (id : ModuleId) (path : Path)
    (data : Bytes) : Option (Except Error Module) :=
  match ExceptT.run (answered (Image.parsedBy parse data) >>= contents) with
  | none => none
  | some (.ok contents) => some (.ok { id, path, contents })
  | some (.error fault) => some (.error (.load path fault))

theorem loadedBy_eq (parse : Bytes → Option Image.Container) (id : ModuleId) (path : Path)
    (data : Bytes) :
    loadedBy parse id path data = some (Module.loadedBy parse id path data) := by
  have watched : answered (Image.parsedBy parse data) >>= contents =
      answered (Image.parsedBy parse data >>= Contents.ofImage) := by
    rw [answered_bind]
    congr 1
    funext image
    exact contents_eq image
  rw [loadedBy, watched, Module.loadedBy]
  cases Image.parsedBy parse data >>= Contents.ofImage <;> rfl

end Watched

end Managed
