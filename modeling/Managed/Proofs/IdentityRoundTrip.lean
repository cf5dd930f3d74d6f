import Managed.Identity.Reader
import Managed.Proofs.HeapBlobs
import Managed.Proofs.HeapTexts
import Managed.Proofs.TableWriting

namespace Managed

namespace Text

theorem stripSuffix?_append (stem ending : String) :
    stripSuffix? ending.toList (stem ++ ending).toList = some stem.toList := by
  simp [stripSuffix?, String.toList_append]

theorem stripSuffix?_eq_none {text ending : String} (different : ¬ ∃ stem, text = stem ++ ending) :
    stripSuffix? ending.toList text.toList = none := by
  rw [stripSuffix?, if_neg]
  intro ends
  obtain ⟨stem, same⟩ := List.isSuffixOf_iff_suffix.mp ends
  apply different
  refine ⟨String.ofList stem, String.toList_inj.mp ?_⟩
  rw [String.toList_append, String.toList_ofList, same]

end Text

namespace Metadata

structure Stored.TextIn (heap : Bytes) (width : Nat) (text : Stored String) : Prop where
  fits : text.index < 256 ^ width
  nul_free : '\x00' ∉ text.value.toList
  there : StringsHeap.entry text.value <+: heap.drop text.index

structure Stored.BlobIn (heap : Bytes) (width : Nat) (blob : Stored Bytes) : Prop where
  fits : blob.index < 256 ^ width
  short : blob.value.length < 2 ^ 29
  there : BlobHeap.entry blob.value <+: heap.drop blob.index

namespace Draft

structure ManifestOver (draft : Draft) (strings blobs : Bytes) (manifest : Manifest) : Prop where
  publicKey : manifest.publicKey.BlobIn blobs draft.blobWidth
  name : manifest.name.TextIn strings draft.stringWidth
  culture : manifest.culture.TextIn strings draft.stringWidth

/-- A draft whose indexes point into two heaps. What they name matters only where it is read. -/
structure Over (draft : Draft) (strings blobs : Bytes) : Prop where
  strings_begin : strings.head? = some 0
  blobs_begin : blobs.head? = some 0
  countable : draft.types.length < 2 ^ 32
  name_fits : draft.name.index < 256 ^ draft.stringWidth
  mvid_fits : draft.mvid < 256 ^ draft.guidWidth
  encId_fits : draft.encId < 256 ^ draft.guidWidth
  encBaseId_fits : draft.encBaseId < 256 ^ draft.guidWidth
  name : draft.manifest = none → draft.name.TextIn strings draft.stringWidth
  manifest : ∀ manifest, draft.manifest = some manifest →
    draft.ManifestOver strings blobs manifest

inductive Names : (file name : String) → Prop where
  | netmodule (name : String) : Names (name ++ ".netmodule") name
  | library (name : String) : Names (name ++ ".dll") name
  | plain (name : String) (not_netmodule : ∀ stem, name ≠ stem ++ ".netmodule")
    (not_library : ∀ stem, name ≠ stem ++ ".dll") : Names name name

inductive Declares (draft : Draft) : Identity → Prop where
  | assembly (manifest : Manifest) (written : draft.manifest = some manifest) :
    Declares draft {
      name := manifest.name.value
      version := some manifest.version
      culture :=
        if manifest.culture.value = "" ∨ manifest.culture.value = "neutral" then none
        else some manifest.culture.value
      token :=
        if manifest.publicKey.value = [] then none
        else some ⟨((Digest.Sha1.digest manifest.publicKey.value).drop 12).reverse⟩
      flags := manifest.flags.toNat }
  | module (name : String) (unwritten : draft.manifest = none)
    (names : Names draft.name.value name) : Declares draft { name }

theorem names_moduleName (file : String) : Names file (Identity.moduleName file) := by
  by_cases netmodule : ∃ stem, file = stem ++ ".netmodule"
  · obtain ⟨stem, rfl⟩ := netmodule
    have stripped : Identity.moduleName (stem ++ ".netmodule") = stem := by
      rw [Identity.moduleName, Identity.moduleEndings, List.findSome?_cons,
        Text.stripSuffix?_append]
      exact String.ofList_toList
    rw [stripped]
    exact .netmodule stem
  by_cases library : ∃ stem, file = stem ++ ".dll"
  · obtain ⟨stem, rfl⟩ := library
    have stripped : Identity.moduleName (stem ++ ".dll") = stem := by
      rw [Identity.moduleName, Identity.moduleEndings, List.findSome?_cons,
        Text.stripSuffix?_eq_none netmodule, List.findSome?_cons, Text.stripSuffix?_append]
      exact String.ofList_toList
    rw [stripped]
    exact .library stem
  · have unchanged : Identity.moduleName file = file := by
      rw [Identity.moduleName, Identity.moduleEndings, List.findSome?_cons,
        Text.stripSuffix?_eq_none netmodule, List.findSome?_cons,
        Text.stripSuffix?_eq_none library]
      rfl
    rw [unchanged]
    exact .plain file (fun stem same => netmodule ⟨stem, same⟩)
      (fun stem same => library ⟨stem, same⟩)

theorem Over.moduleRow_fits {draft : Draft} {strings blobs : Bytes}
    (placed : draft.Over strings blobs) : draft.moduleRow.Fits draft.layout where
  generation := draft.generation.toNat_lt
  name := placed.name_fits
  mvid := placed.mvid_fits
  encId := placed.encId_fits
  encBaseId := placed.encBaseId_fits

theorem ManifestOver.row_fits {draft : Draft} {strings blobs : Bytes} {manifest : Manifest}
    (placed : draft.ManifestOver strings blobs manifest) : manifest.row.Fits draft.layout where
  hashAlgorithm := manifest.hashAlgorithm.toNat_lt
  major := manifest.version.major.toNat_lt
  minor := manifest.version.minor.toNat_lt
  build := manifest.version.build.toNat_lt
  revision := manifest.version.revision.toNat_lt
  flags := manifest.flags.toNat_lt
  publicKey := placed.publicKey.fits
  name := placed.name.fits
  culture := placed.culture.fits

theorem publicKey_read {blobs : Bytes} {width : Nat} {manifest : Manifest}
    (begins : blobs.head? = some 0) (publicKey : manifest.publicKey.BlobIn blobs width) :
    Identity.publicKey manifest.row (some ⟨blobs⟩) = .ok manifest.publicKey.value := by
  have found : BlobHeap.get ⟨blobs⟩ manifest.row.publicKey = .ok manifest.publicKey.value :=
    BlobHeap.get_entry publicKey.short publicKey.there
  by_cases empty : manifest.publicKey.value = []
  · rw [empty] at found ⊢
    by_cases first : manifest.row.publicKey = 0
    · exact if_pos first
    · exact (if_neg first).trans found
  · have placed := BlobHeap.index_ne_zero begins empty publicKey.short publicKey.there
    exact (if_neg placed).trans found

theorem ofAssemblyRow_read {draft : Draft} {strings blobs : Bytes} {manifest : Manifest}
    (begins : blobs.head? = some 0) (written : draft.manifest = some manifest)
    (placed : draft.ManifestOver strings blobs manifest) :
    ∃ identity, Identity.ofAssemblyRow manifest.row ⟨strings⟩ (some ⟨blobs⟩) = .ok identity ∧
      draft.Declares identity := by
  have name : StringsHeap.get ⟨strings⟩ manifest.row.name = .ok manifest.name.value :=
    StringsHeap.get_entry placed.name.nul_free placed.name.there
  have culture : StringsHeap.get ⟨strings⟩ manifest.row.culture = .ok manifest.culture.value :=
    StringsHeap.get_entry placed.culture.nul_free placed.culture.there
  have key := publicKey_read begins placed.publicKey
  refine ⟨_, ?_, .assembly manifest written⟩
  simp only [Identity.ofAssemblyRow, name, culture, key, bind, Except.bind, pure, Except.pure]
  simp only [Identity.culture?, List.isEmpty_iff, PublicKeyToken.ofPublicKey,
    Digest.Sha1.length_digest, PublicKeyToken.length, Manifest.row, UInt16.ofNat_toNat]

/-- Reading the identity of what a draft writes gives what the draft declares. -/
theorem identity_read (draft : Draft) (strings blobs : Bytes) (placed : draft.Over strings blobs) :
    ∃ stream stringsHeap blobHeap identity,
      TablesStream.ofBytes draft.bytes = .ok stream ∧
      StringsHeap.ofBytes strings = .ok stringsHeap ∧
      BlobHeap.ofBytes blobs = .ok blobHeap ∧
      Identity.read stream stringsHeap (some blobHeap) = .ok identity ∧
      draft.Declares identity := by
  obtain ⟨stream, accepted, read⟩ := draft.stream_read placed.countable
  have strings_read : StringsHeap.ofBytes strings = .ok ⟨strings⟩ := if_pos placed.strings_begin
  have blobs_read : BlobHeap.ofBytes blobs = .ok ⟨blobs⟩ := if_pos placed.blobs_begin
  cases written : draft.manifest with
  | some manifest =>
    have manifest_placed := placed.manifest manifest written
    obtain ⟨identity, taken, declares⟩ :=
      ofAssemblyRow_read placed.blobs_begin written manifest_placed
    have row := assemblyRow_read read written manifest_placed.row_fits
    refine ⟨stream, _, _, identity, accepted, strings_read, blobs_read, ?_, declares⟩
    simp only [Identity.read, row, bind, Except.bind, taken]
  | none =>
    have name := placed.name written
    have found : StringsHeap.get ⟨strings⟩ draft.moduleRow.name = .ok draft.name.value :=
      StringsHeap.get_entry name.nul_free name.there
    have absent := assemblyRow_absent read written
    have row := moduleRow_read read placed.moduleRow_fits
    refine ⟨stream, _, _, _, accepted, strings_read, blobs_read, ?_,
      .module _ written (names_moduleName _)⟩
    simp only [Identity.read, absent, row, bind, Except.bind, Identity.ofModuleRow, found, pure,
      Except.pure]

def smallStrings : Bytes := 0 :: (StringsHeap.entry "Lib.dll" ++ StringsHeap.entry "Lib")

def smallBlobs : Bytes := 0 :: BlobHeap.entry [1, 2, 3]

def small : Draft where
  reserved := 0
  major := 2
  minor := 0
  heapSizes := 0x41
  spare := 1
  sorted := 0
  extra := 0
  generation := 0
  name := ⟨"Lib.dll", 1⟩
  mvid := 1
  encId := 0
  encBaseId := 0
  types := [⟨0, 1, 0, 0, 1, 1⟩]
  manifest := some {
    hashAlgorithm := 0x8004
    version := ⟨1, 2, 3, 4⟩
    flags := 1
    publicKey := ⟨[1, 2, 3], 1⟩
    name := ⟨"Lib", 9⟩
    culture := ⟨"", 0⟩ }
  padding := [0, 0]

theorem small_over : small.Over smallStrings smallBlobs where
  strings_begin := rfl
  blobs_begin := rfl
  countable := by decide
  name_fits := by decide
  mvid_fits := by decide
  encId_fits := by decide
  encBaseId_fits := by decide
  name := by simp [small]
  manifest := by
    intro manifest written
    cases written
    exact ⟨⟨by decide, by decide, by decide⟩, ⟨by decide, by decide, by decide⟩,
      ⟨by decide, by decide, by decide⟩⟩

theorem small_identity_read :
    small.Over smallStrings smallBlobs ∧ ∃ stream stringsHeap blobHeap identity,
      TablesStream.ofBytes small.bytes = .ok stream ∧
      StringsHeap.ofBytes smallStrings = .ok stringsHeap ∧
      BlobHeap.ofBytes smallBlobs = .ok blobHeap ∧
      Identity.read stream stringsHeap (some blobHeap) = .ok identity ∧
      small.Declares identity :=
  ⟨small_over, identity_read small smallStrings smallBlobs small_over⟩

end Draft

end Metadata

end Managed
