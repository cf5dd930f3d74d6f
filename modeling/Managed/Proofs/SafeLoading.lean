import Managed.Proofs.LittleEndian
import Managed.Proofs.WatchedLoading

namespace Managed

open Metadata

theorem bind_eq_ok {α β : Type} {first : Except Fault α} {next : α → Except Fault β} {result : β} :
    first >>= next = .ok result ↔ ∃ value, first = .ok value ∧ next value = .ok result := by
  cases first with
  | error fault => simp [bind, Except.bind]
  | ok value => simp [bind, Except.bind]

theorem pure_eq_ok {α : Type} {value result : α} :
    (pure value : Except Fault α) = .ok result ↔ value = result := by
  simp [pure, Except.pure]

def Metadata.Root.signatureBytes : Bytes := [0x42, 0x53, 0x4A, 0x42]

theorem Metadata.Root.begins_of_read {metadata : Bytes} {root : Root}
    (read : Root.ofBytes metadata = .ok root) : signatureBytes <+: metadata := by
  obtain ⟨final, accepted⟩ := (Reader.run?_eq_ok _ _ _).mp read
  rw [Root.read, Reader.bind_eq_ok] at accepted
  obtain ⟨found, next, taken, accepted⟩ := accepted
  obtain ⟨room, value, -⟩ := (Reader.number_eq_ok _ _ _ _).mp taken
  rw [Cursor.rest_ofBytes] at value
  by_cases signed : found = signature
  · have sized : 4 ≤ metadata.length := by simpa [Cursor.ofBytes] using room
    have four : (metadata.take 4).length = 4 := List.length_take_of_le sized
    have bytes := Bytes.ofNat_littleEndian (metadata.take 4)
    rw [four, value, signed] at bytes
    have letters : Bytes.ofNat 4 signature = signatureBytes := by decide
    rw [← letters, bytes]
    exact List.take_prefix _ _
  · simp only [ne_eq, signed, not_false_eq_true, if_true, Reader.bind_eq_ok] at accepted
    obtain ⟨_, _, malformed, -⟩ := accepted
    exact absurd malformed (Reader.malformed_ne_ok _ _ _ _)

/-- What an identity is without a manifest, and with one. -/
theorem Identity.read_eq_ok {tables : TablesStream} {strings : StringsHeap}
    {blobs : Option BlobHeap} {identity : Identity}
    (read : Identity.read tables strings blobs = .ok identity) :
    (tables.rows .assembly = 0 ∧ ∃ name, identity = { name }) ∨
      (tables.rows .assembly ≠ 0 ∧ identity.isAssembly = true) := by
  obtain ⟨row, found, read⟩ := bind_eq_ok.mp read
  by_cases empty : tables.rows .assembly = 0
  · rw [TablesStream.assemblyRow, if_pos empty] at found
    cases found
    obtain ⟨moduleRow, -, read⟩ := bind_eq_ok.mp read
    obtain ⟨file, -, read⟩ := bind_eq_ok.mp read
    exact .inl ⟨empty, _, (pure_eq_ok.mp read).symm⟩
  · rw [TablesStream.assemblyRow, if_neg empty] at found
    obtain ⟨offset, -, found⟩ := bind_eq_ok.mp found
    obtain ⟨assemblyRow, -, found⟩ := bind_eq_ok.mp found
    cases pure_eq_ok.mp found
    obtain ⟨name, -, read⟩ := bind_eq_ok.mp read
    obtain ⟨culture, -, read⟩ := bind_eq_ok.mp read
    obtain ⟨key, -, read⟩ := bind_eq_ok.mp read
    cases pure_eq_ok.mp read
    exact .inr ⟨empty, rfl⟩

theorem Contents.readTables_eq_ok {root : Root} {metadata : Bytes} {layout : Layout}
    {identity : Identity} (read : Contents.readTables root metadata = .ok (layout, identity)) :
    (layout.rows .assembly = 0 ∧ ∃ name, identity = { name }) ∨
      (layout.rows .assembly ≠ 0 ∧ identity.isAssembly = true) := by
  obtain ⟨stream, -, read⟩ := bind_eq_ok.mp read
  obtain ⟨tables, -, read⟩ := bind_eq_ok.mp read
  obtain ⟨texts, -, read⟩ := bind_eq_ok.mp read
  obtain ⟨strings, -, read⟩ := bind_eq_ok.mp read
  obtain ⟨blobs, -, read⟩ := bind_eq_ok.mp read
  obtain ⟨found, identified, read⟩ := bind_eq_ok.mp read
  cases pure_eq_ok.mp read
  exact Identity.read_eq_ok identified

structure Contents.FromImage (image : Image) (contents : Contents) : Prop where
  same_image : contents.image = image
  within : contents.metadataOffset + contents.metadataSize ≤ image.data.length
  begins : Root.signatureBytes <+:
    (image.data.drop contents.metadataOffset).take contents.metadataSize
  manifest : (contents.layout.rows .assembly = 0 ∧ ∃ name, contents.identity = { name }) ∨
    (contents.layout.rows .assembly ≠ 0 ∧ contents.identity.isAssembly = true)

theorem Contents.ofImage_eq_ok {image : Image} {contents : Contents}
    (read : Contents.ofImage image = .ok contents) : contents.FromImage image := by
  rw [Contents.ofImage] at read
  by_cases small : image.cli.size < CliHeader.byteSize
  · rw [if_pos small] at read
    cases read
  rw [if_neg small] at read
  obtain ⟨headerOffset, -, read⟩ := bind_eq_ok.mp read
  obtain ⟨headerBytes, -, read⟩ := bind_eq_ok.mp read
  obtain ⟨header, -, read⟩ := bind_eq_ok.mp read
  obtain ⟨metadataOffset, -, read⟩ := bind_eq_ok.mp read
  obtain ⟨metadata, sliced, read⟩ := bind_eq_ok.mp read
  obtain ⟨root, rooted, read⟩ := bind_eq_ok.mp read
  obtain ⟨⟨layout, identity⟩, tabled, read⟩ := bind_eq_ok.mp read
  cases pure_eq_ok.mp read
  rw [Image.slice, Bytes.slice?_eq] at sliced
  by_cases fits : metadataOffset + header.metadata.size ≤ image.data.length
  · rw [if_pos fits] at sliced
    cases sliced
    exact ⟨rfl, fits, Root.begins_of_read rooted, Contents.readTables_eq_ok tabled⟩
  · rw [if_neg fits] at sliced
    cases sliced

theorem Image.parsedBy_eq_ok {parse : Bytes → Option Image.Container} {data : Bytes}
    {image : Image} (parsed : Image.parsedBy parse data = .ok image) : image.data = data := by
  rw [parsedBy] at parsed
  by_cases nothing : data.isEmpty = true
  · rw [if_pos nothing] at parsed
    cases parsed
  rw [if_neg nothing] at parsed
  cases container : parse data with
  | none =>
    rw [container] at parsed
    cases parsed
  | some headers =>
    rw [container] at parsed
    unfold Image.ofContainer at parsed
    cases optional : headers.optional with
    | none =>
      simp only [optional] at parsed
      cases parsed
    | some header =>
      cases cli : header.cli with
      | none =>
        simp only [optional, cli] at parsed
        cases parsed
      | some directory =>
        simp only [optional, cli] at parsed
        cases parsed
        rfl

def Watched.metadata (loaded : Module) : Watched Bytes :=
  range loaded.data loaded.contents.metadataOffset
    (loaded.contents.metadataOffset + loaded.contents.metadataSize)

structure Module.LoadedFrom (path : Path) (data : Bytes) (loaded : Module) : Prop where
  path : loaded.path = path
  data : loaded.data = data
  within : Watched.metadata loaded = pure loaded.metadata
  begins : Root.signatureBytes <+: loaded.metadata
  manifest : loaded.isAssembly = true ↔ 1 ≤ loaded.rowCount .assembly
  bare : loaded.isAssembly = false →
    loaded.identity.version = none ∧ loaded.identity.culture = none ∧
      loaded.identity.token = none ∧ loaded.identity.flags = 0

theorem Module.loadedBy_eq_ok {parse : Bytes → Option Image.Container} {id : ModuleId}
    {path : Path} {data : Bytes} {loaded : Module}
    (accepted : Module.loadedBy parse id path data = .ok loaded) :
    loaded.LoadedFrom path data := by
  rw [Module.loadedBy] at accepted
  cases read : Image.parsedBy parse data >>= Contents.ofImage with
  | error fault =>
    rw [read] at accepted
    cases accepted
  | ok contents =>
    rw [read] at accepted
    cases accepted
    obtain ⟨image, parsed, followed⟩ := bind_eq_ok.mp read
    have known := Contents.ofImage_eq_ok followed
    have bytes : contents.image.data = data := by
      rw [known.same_image, Image.parsedBy_eq_ok parsed]
    have fits := known.within
    have begins := known.begins
    rw [Image.parsedBy_eq_ok parsed] at fits begins
    have manifest : contents.identity.isAssembly = true ↔ 1 ≤ contents.layout.rows .assembly := by
      rcases known.manifest with ⟨empty, name, same⟩ | ⟨some_rows, assembly⟩
      · simp [same, empty, Identity.isAssembly]
      · simp only [assembly, true_iff]
        omega
    have bare : contents.identity.isAssembly = false →
        contents.identity.version = none ∧ contents.identity.culture = none ∧
          contents.identity.token = none ∧ contents.identity.flags = 0 := by
      intro not_assembly
      rcases known.manifest with ⟨-, name, same⟩ | ⟨-, assembly⟩
      · rw [same]
        exact ⟨rfl, rfl, rfl, rfl⟩
      · rw [assembly] at not_assembly
        cases not_assembly
    refine ⟨rfl, bytes, ?_, ?_, manifest, bare⟩
    · simp only [Watched.metadata, Module.data, Module.metadata, bytes]
      rw [Watched.range_eq (Nat.le_add_right _ _) fits, Nat.add_sub_cancel_left]
    · simpa only [Module.metadata, Module.data, bytes] using begins

/-- Loading makes no access out of range, blames the path that it was given, and gives modules
    whose metadata and manifest are in order. -/
theorem Module.loads_safely (parse : Bytes → Option Image.Container) (id : ModuleId) (path : Path)
    (data : Bytes) :
    @Module.ofBytes ⟨parse⟩ id path data = Module.loadedBy parse id path data ∧
    Watched.loadedBy parse id path data = some (Module.loadedBy parse id path data) ∧
    (∀ error, Module.loadedBy parse id path data = .error error →
      ∃ source : Fault, error = .load path source) ∧
    (∀ loaded, Module.loadedBy parse id path data = .ok loaded →
      loaded.LoadedFrom path data) := by
  refine ⟨Module.ofBytes_eq parse id path data, Watched.loadedBy_eq parse id path data, ?_, ?_⟩
  · intro error failed
    rw [Module.loadedBy] at failed
    cases read : Image.parsedBy parse data >>= Contents.ofImage with
    | ok contents =>
      rw [read] at failed
      cases failed
    | error fault =>
      rw [read] at failed
      cases failed
      exact ⟨fault, rfl⟩
  · intro loaded accepted
    exact Module.loadedBy_eq_ok accepted

end Managed
