import Managed.Image.Headers
import Managed.Proofs.CliHeaderRules
import Managed.Proofs.IdentityRoundTrip
import Managed.Proofs.RootFormat
import Managed.Proofs.SafeLoading

namespace Managed

open scoped Image.Container

open Metadata

theorem Bytes.slice?_append (front rest : Bytes) (offset length : Nat) :
    slice? (front ++ rest) (front.length + offset) length = slice? rest offset length := by
  have room : front.length + offset + length ≤ (front ++ rest).length ↔
      offset + length ≤ rest.length := by
    rw [List.length_append]
    omega
  simp only [slice?_eq, room, List.drop_length_add_append]

theorem Bytes.slice?_whole (bytes : Bytes) : slice? bytes 0 bytes.length = some bytes := by
  rw [slice?_eq, Nat.zero_add, if_pos (Nat.le_refl _), List.drop_zero, List.take_length]

namespace TypedImage

def zeros (count : Nat) : Bytes := List.replicate count 0

def fixedHeaders : Bytes :=
  [0x4D, 0x5A] ++ zeros 58 ++ [0x40, 0, 0, 0] ++
  [0x50, 0x45, 0, 0, 0x4C, 1, 1, 0] ++ zeros 12 ++ [0xE0, 0, 0, 0] ++
  [0x0B, 1] ++ zeros 34 ++ [0, 2, 0, 0] ++ zeros 52 ++ [16, 0, 0, 0] ++ zeros 112 ++
  [0x60, 1, 0, 0, 72, 0, 0, 0] ++ zeros 8

def sectionHeader (length : Nat) : Bytes :=
  zeros 8 ++ Bytes.ofNat 4 length ++ zeros 4 ++ Bytes.ofNat 4 length ++ zeros 20

def headers (length : Nat) : Bytes := fixedHeaders ++ sectionHeader length

variable (length : Nat) (behind : Bytes)

def container (length : Nat) : Image.Container where
  optional := some { imageBase := 0, fileAlignment := 0x200, cli := some ⟨0x160, 72⟩ }
  sections := [{ address := 0, virtualSize := length, rawPointer := 0, rawSize := length }]

def directories : Bytes := zeros 112 ++ [0x60, 1, 0, 0, 72, 0, 0, 0] ++ zeros 8

theorem optional_read :
    Image.OptionalHeader.read? ((headers length ++ behind).drop 88) =
      some { imageBase := 0, fileAlignment := 0x200, cli := some ⟨0x160, 72⟩ } := by
  have magic : Bytes.number? ((headers length ++ behind).drop 88) 0 2 = some 0x10B := rfl
  have base : Bytes.number? ((headers length ++ behind).drop 88) 28 4 = some 0 := rfl
  have alignment : Bytes.number? ((headers length ++ behind).drop 88) 36 4 = some 0x200 := rfl
  have count : Bytes.number? ((headers length ++ behind).drop 88) 92 4 = some 16 := rfl
  have listed : Bytes.slice? ((headers length ++ behind).drop 88) 96 128 = some directories := rfl
  have cli : Image.OptionalHeader.directory? directories 14 = some ⟨0x160, 72⟩ := by decide
  have form : Image.OptionalHeader.form? 0x10B = some ⟨28, 4, 92⟩ := rfl
  simp only [Image.OptionalHeader.read?, magic, form, base, alignment, count, listed,
    Image.OptionalHeader.fileAlignmentOffset, Image.OptionalHeader.directoryLimit,
    Image.OptionalHeader.cliDirectory, Option.bind_eq_bind, Option.bind_some, cli]
  rfl

theorem sections_read (bound : length < 2 ^ 32) :
    Image.Section.readAll? 1 ((headers length ++ behind).drop 312) =
      some (container length).sections := by
  have reached : (headers length ++ behind).drop 312 = sectionHeader length ++ behind := rfl
  have read : Image.Section.readAll? 1 (sectionHeader length ++ behind) =
      some [⟨0, Bytes.littleEndian (Bytes.ofNat 4 length), 0,
        Bytes.littleEndian (Bytes.ofNat 4 length)⟩] := rfl
  have same : Bytes.littleEndian (Bytes.ofNat 4 length) = length := by
    rw [Bytes.littleEndian_ofNat]
    exact Nat.mod_eq_of_lt bound
  rw [reached, read, same]
  rfl

theorem length_headers : (headers length).length = 352 := by
  have fixed : fixedHeaders.length = 312 := by decide +kernel
  have listed : (sectionHeader length).length = 40 := rfl
  rw [headers, List.length_append, fixed, listed]

theorem headers_read (bound : length < 2 ^ 32) :
    Image.Container.readHeaders? (headers length ++ behind) ((headers length ++ behind).drop 68) =
      some (container length) := by
  have coff : Bytes.slice? ((headers length ++ behind).drop 68) 0 20 =
      some ([0x4C, 1, 1, 0] ++ zeros 12 ++ [0xE0, 0, 0, 0]) := rfl
  have count : Bytes.number? ([0x4C, 1, 1, 0] ++ zeros 12 ++ [0xE0, 0, 0, 0]) 2 2 = some 1 := rfl
  have size : Bytes.number? ([0x4C, 1, 1, 0] ++ zeros 12 ++ [0xE0, 0, 0, 0]) 16 2 = some 224 := rfl
  have room : ¬ (headers length ++ behind).length / 40 < 1 := by
    rw [List.length_append, length_headers]
    omega
  have optional : Image.OptionalHeader.read?
      (((headers length ++ behind).drop 68).drop 20) = (container length).optional := by
    rw [List.drop_drop]
    exact optional_read length behind
  have sections : Image.Section.readAll? 1
      ((((headers length ++ behind).drop 68).drop 20).drop 224) =
        some (container length).sections := by
    rw [List.drop_drop, List.drop_drop]
    exact sections_read length behind bound
  simp only [Image.Container.readHeaders?, Image.Container.coffHeaderSize,
    Image.Section.headerSize, coff, count, size, Option.bind_eq_bind, Option.bind_some, optional,
    sections, if_neg room]
  rfl

def cliHeader (size : Nat) : Bytes :=
  [72, 0, 0, 0, 2, 0, 5, 0] ++ Bytes.ofNat 4 0x1A8 ++ Bytes.ofNat 4 size ++ zeros 56

theorem length_cliHeader (size : Nat) : (cliHeader size).length = 72 := rfl

theorem cliHeader_read {size : Nat} (positive : size ≠ 0) (bound : size < 2 ^ 32) :
    ∃ header, CliHeader.ofBytes (cliHeader size) = .ok header ∧
      header.metadata = ⟨0x1A8, size⟩ := by
  have runtime : Bytes.field (cliHeader size) 4 2 = 2 := rfl
  have place : Bytes.field (cliHeader size) 8 4 = 0x1A8 := rfl
  have flags : Bytes.field (cliHeader size) 16 4 = 0 := rfl
  have sized : Bytes.field (cliHeader size) 12 4 = size := by
    have field : Bytes.field (cliHeader size) 12 4 = Bytes.littleEndian (Bytes.ofNat 4 size) := rfl
    rw [field, Bytes.littleEndian_ofNat]
    exact Nat.mod_eq_of_lt bound
  have legal : CliHeader.IsLegal (cliHeader size) := by
    constructor
    case size | codeManager => rfl
    case resources | strongName | fixups => exact iff_of_true rfl rfl
    case runtime =>
      rw [runtime]
      decide
    case metadata_rva =>
      rw [place]
      decide
    case metadata_size =>
      rw [sized]
      exact positive
    case flags =>
      intro bit set
      rw [flags, Nat.zero_testBit] at set
      cases set
  refine ⟨CliHeader.ofFields (cliHeader size), ?_, ?_⟩
  · rw [CliHeader.ofBytes_eq, length_cliHeader, if_neg (by decide),
      (CliHeader.defect?_eq_none _).mpr legal]
    rfl
  · rw [CliHeader.ofFields, CliHeader.rangeAt, place, sized]

def directory (size : Nat) : RootDraft where
  major := 1
  minor := 1
  reserved := 0
  area := []
  flags := 0
  entries := [⟨⟨68, 7, .strings⟩, zeros 3⟩, ⟨⟨75, 1, .blob⟩, zeros 2⟩,
    ⟨⟨76, size, .tables⟩, zeros 1⟩]

theorem length_directory (size : Nat) : (directory size).bytes.length = 68 := by
  have names : StreamName.strings.bytes.length = 8 ∧ StreamName.blob.bytes.length = 5 ∧
      StreamName.tables.bytes.length = 2 := by decide
  obtain ⟨strings, blob, tables⟩ := names
  simp only [RootDraft.bytes, directory, List.flatMap_cons, List.flatMap_nil, DirectoryEntry.bytes,
    StreamHeader.front, zeros, List.length_append, List.length_cons, List.length_nil,
    List.length_replicate, Bytes.length_ofNat, strings, blob, tables]

def strings : Bytes := 0 :: StringsHeap.entry "Types"

def blobs : Bytes := [0]

def metadata (tables : Bytes) : Bytes :=
  (directory tables.length).bytes ++ (strings ++ (blobs ++ tables))

theorem length_metadata (tables : Bytes) : (metadata tables).length = 76 + tables.length := by
  rw [metadata, List.length_append, length_directory, List.length_append, List.length_append]
  have texts : strings.length = 7 := by decide
  rw [texts, blobs, List.length_singleton]
  omega

theorem directory_fits {size : Nat} (bound : 76 + size < 2 ^ 32) :
    (directory size).Fits (76 + size) := by
  constructor
  case area => exact Nat.zero_le _
  case nonempty => exact List.cons_ne_nil _ _
  case distinct =>
    show [StreamName.strings, .blob, .tables].Nodup
    decide
  case entries =>
    intro entry member
    simp only [directory, List.mem_cons, List.not_mem_nil, or_false] at member
    rcases member with rfl | rfl | rfl
    · exact ⟨by decide, by decide, by simp only; omega⟩
    · exact ⟨by decide, by decide, by simp only; omega⟩
    · have padded : (zeros 1).length = 3 - StreamName.tables.bytes.length % 4 := by decide
      exact ⟨padded, bound, Nat.le_refl _⟩

theorem root_read {tables : Bytes} (bound : 76 + tables.length < 2 ^ 32) :
    Root.ofBytes (metadata tables) = .ok (directory tables.length).root := by
  refine Root.read_of_draft rfl ?_
  rw [length_metadata]
  exact directory_fits bound

theorem strings_found (tables : Bytes) :
    (directory tables.length).root.stream? (metadata tables) .strings = some strings := by
  have place := Bytes.slice?_append (directory tables.length).bytes
    (strings ++ (blobs ++ tables)) 0 7
  rw [length_directory] at place
  exact place

theorem blobs_found (tables : Bytes) :
    (directory tables.length).root.stream? (metadata tables) .blob = some blobs := by
  have place := Bytes.slice?_append (directory tables.length).bytes
    (strings ++ (blobs ++ tables)) 7 1
  rw [length_directory] at place
  exact place

theorem tables_found (tables : Bytes) :
    (directory tables.length).root.tablesStream? (metadata tables) = some tables := by
  have place := Bytes.slice?_append (directory tables.length).bytes
    (strings ++ (blobs ++ tables)) 8 tables.length
  have behind := Bytes.slice?_append (strings ++ blobs) tables 0 tables.length
  rw [Bytes.slice?_whole] at behind
  rw [length_directory] at place
  have found : (directory tables.length).root.stream? (metadata tables) .tables = some tables :=
    place.trans behind
  rw [Root.tablesStream?, found]

def image (tables : Bytes) : Bytes :=
  headers (500 + tables.length) ++ (cliHeader (76 + tables.length) ++ metadata tables)

def parsed (tables : Bytes) : Image where
  data := image tables
  base := 0
  cli := ⟨0x160, 72⟩
  sections := (container (500 + tables.length)).sections

section

variable (tables : Bytes)

theorem length_image : (image tables).length = 500 + tables.length := by
  rw [image, List.length_append, length_headers, List.length_append, length_cliHeader,
    length_metadata]
  omega

/-- The header of the metadata stands behind those of the image, and the metadata behind both. -/
theorem slice?_image (offset length : Nat) :
    Bytes.slice? (image tables) (424 + offset) length =
      Bytes.slice? (metadata tables) offset length := by
  have front : (headers (500 + tables.length) ++ cliHeader (76 + tables.length)).length = 424 := by
    rw [List.length_append, length_headers, length_cliHeader]
  rw [image, ← List.append_assoc, ← front]
  exact Bytes.slice?_append _ _ _ _

theorem cliHeader_found :
    Bytes.slice? (image tables) 0x160 72 = some (cliHeader (76 + tables.length)) := by
  have place := Bytes.slice?_append (headers (500 + tables.length))
    (cliHeader (76 + tables.length) ++ metadata tables) 0 72
  rw [length_headers] at place
  exact place

theorem metadata_found :
    Bytes.slice? (image tables) 424 (76 + tables.length) = some (metadata tables) := by
  have place := slice?_image tables 0 (76 + tables.length)
  rw [place, ← length_metadata, Bytes.slice?_whole]

theorem le_readSize (length : Nat) (positive : 0 < length) :
    length ≤ Image.Section.readSize ⟨0, length, 0, length⟩ 0x200 := by
  have aligned : ∀ alignment, 0 < alignment → length ≤ Image.Section.alignUp length alignment := by
    intro alignment some_alignment
    have rounded := Nat.lt_div_mul_add (a := length + alignment - 1) some_alignment
    rw [Image.Section.alignUp]
    omega
  have sector := aligned 0x200 (by decide)
  have page := aligned Image.Section.pageSize (by decide)
  simp only [Image.Section.readSize, Nat.zero_add, Nat.zero_div, Nat.zero_mul, Nat.sub_zero,
    if_neg (Nat.ne_of_gt positive)]
  omega

theorem fileOffset?_eq {length rva : Nat} (within : rva < length) :
    Image.Container.fileOffset? (container length).sections 0x200 rva = some rva := by
  have covered := le_readSize length (by omega)
  have power : Image.Container.isPowerOfTwo 0x200 = true := by decide
  have contains : (decide (0 ≤ rva) &&
      decide (rva < 0 + Image.Section.readSize ⟨0, length, 0, length⟩ 0x200)) = true := by
    rw [Bool.and_eq_true, decide_eq_true_eq, decide_eq_true_eq]
    omega
  have found : (container length).sections.find? (fun item =>
      decide (item.address ≤ rva) && decide (rva < item.address + item.readSize 0x200)) =
        some ⟨0, length, 0, length⟩ := List.find?_cons_of_pos contains
  rw [Image.Container.fileOffset?, if_pos power, found, Option.map_some]
  simp only [Nat.sub_zero, Nat.zero_add]

theorem hasMetadataRoot_image :
    Image.Container.hasMetadataRoot (image tables) 424 (76 + tables.length) = true := by
  have begun : Bytes.slice? (image tables) 424 4 = some (Bytes.ofNat 4 Root.signature) :=
    slice?_image tables 0 4
  have version_length : Bytes.number? (image tables) (424 + 12) 4 = some 0 := by
    have bytes : Bytes.slice? (metadata tables) 12 4 = some (Bytes.ofNat 4 0) := rfl
    rw [Bytes.number?, slice?_image, bytes]
    rfl
  have version : Bytes.slice? (image tables) (424 + 16) 0 = some [] := by
    rw [slice?_image]
    rfl
  have ended : (Bytes.slice? (image tables) (424 + 16 + 0) 4).isSome = true := by
    rw [Nat.add_zero, slice?_image]
    rfl
  have room : 424 + (76 + tables.length) ≤ (image tables).length := by
    rw [length_image]
    omega
  simp only [Image.Container.hasMetadataRoot, begun, version_length, version, ended,
    decide_eq_true room]
  rfl

theorem isSound_image (bound : 500 + tables.length < 2 ^ 32) :
    (container (500 + tables.length)).isSound (image tables) = true := by
  have place : Bytes.number? (cliHeader (76 + tables.length)) 8 4 = some 424 := rfl
  have size : Bytes.number? (cliHeader (76 + tables.length)) 12 4 = some (76 + tables.length) := by
    have field : Bytes.number? (cliHeader (76 + tables.length)) 12 4 =
        some (Bytes.littleEndian (Bytes.ofNat 4 (76 + tables.length))) := rfl
    rw [field, Bytes.littleEndian_ofNat, Nat.mod_eq_of_lt (by omega)]
  change Image.Container.hasCliHeader _ (container (500 + tables.length)).sections 0x200
    ⟨0x160, 72⟩ = true
  rw [Image.Container.hasCliHeader, fileOffset?_eq (by simp only; omega)]
  simp only [CliHeader.byteSize, cliHeader_found, place, size]
  rw [fileOffset?_eq (by omega)]
  exact hasMetadataRoot_image tables

theorem container_read (bound : 500 + tables.length < 2 ^ 32) :
    Image.Container.ofBytes? (image tables) = some (container (500 + tables.length)) := by
  have letters : ¬ ((image tables).take 2 ≠ [0x4D, 0x5A] ∨
      (image tables).length < Image.Container.dosHeaderSize) := by
    rw [length_image, Image.Container.dosHeaderSize, not_or, not_not]
    exact ⟨rfl, by omega⟩
  have start : Bytes.number? (image tables) 0x3C 4 = some 0x40 := rfl
  have signature : Bytes.slice? (image tables) 0x40 4 = some [0x50, 0x45, 0, 0] := rfl
  have read : Image.Container.readHeaders? (image tables) ((image tables).drop (0x40 + 4)) =
      some (container (500 + tables.length)) := headers_read _ _ bound
  rw [Image.Container.ofBytes?, if_neg letters]
  simp only [start, signature, read, Option.bind_eq_bind, Option.bind_some,
    isSound_image tables bound]
  rfl

theorem image_read (bound : 500 + tables.length < 2 ^ 32) :
    Image.ofBytes (image tables) = .ok (parsed tables) := by
  have some_bytes : ¬ (image tables).isEmpty = true := by
    rw [List.isEmpty_iff_length_eq_zero, length_image]
    omega
  have headers : Image.Parser.parse (image tables) = some (container (500 + tables.length)) :=
    container_read tables bound
  rw [Image.ofBytes, if_neg some_bytes, headers]
  rfl

theorem offsetOf_image {rva : Nat} (bound : 500 + tables.length < 2 ^ 32)
    (within : rva < 500 + tables.length) :
    (parsed tables).offsetOf rva = .ok rva := by
  have narrow : ¬ UInt32.size ≤ rva := by
    simp only [UInt32.size]
    omega
  have sized : ¬ UInt32.size ≤ 0 + (500 + tables.length) := by
    simp only [UInt32.size]
    omega
  have contained : 0 ≤ rva ∧ rva < 0 + (500 + tables.length) := by omega
  simp only [Image.offsetOf, parsed, if_neg narrow, container, Image.Section.locate, if_neg sized,
    if_pos contained]
  rfl

end

/-- Tables that point into the names are read from the image as they are written. -/
theorem contents_read {draft : Draft} (placed : draft.Over strings blobs)
    (bound : 500 + draft.bytes.length < 2 ^ 32) :
    ∃ contents, Contents.ofBytes (image draft.bytes) = .ok contents ∧
      contents.layout = draft.layout := by
  obtain ⟨stream, names, blobHeap, identity, accepted, names_read, blobs_read, identified, -⟩ :=
    draft.identity_read strings blobs placed
  obtain ⟨same, same_accepted, read⟩ := draft.stream_read placed.countable
  obtain rfl : stream = same := Except.ok.inj (accepted.symm.trans same_accepted)
  have tabled : Contents.readTables (directory draft.bytes.length).root (metadata draft.bytes) =
      .ok (stream.layout, identity) := by
    simp only [Contents.readTables, tables_found, strings_found, blobs_found, Contents.requireSome,
      Contents.blobHeap?, accepted, names_read, blobs_read, identified, bind, Except.bind, pure,
      Except.pure, Except.map]
  have positive : 76 + draft.bytes.length ≠ 0 := by omega
  obtain ⟨header, header_read, range⟩ := cliHeader_read positive (by omega)
  have header_place : (parsed draft.bytes).offsetOf 0x160 = .ok 0x160 :=
    offsetOf_image _ bound (by omega)
  have metadata_place : (parsed draft.bytes).offsetOf 424 = .ok 424 :=
    offsetOf_image _ bound (by omega)
  have header_bytes : (parsed draft.bytes).slice 0x160 72 =
      .ok (cliHeader (76 + draft.bytes.length)) := by
    simp only [Image.slice, parsed, cliHeader_found]
  have metadata_bytes : (parsed draft.bytes).slice 424 (76 + draft.bytes.length) =
      .ok (metadata draft.bytes) := by
    simp only [Image.slice, parsed, metadata_found]
  have rooted : Root.ofBytes (metadata draft.bytes) = .ok (directory draft.bytes.length).root :=
    root_read (by omega)
  have followed : ∃ contents, Contents.ofImage (parsed draft.bytes) = .ok contents ∧
      contents.layout = stream.layout := by
    have directory_size : ¬ (parsed draft.bytes).cli.size < CliHeader.byteSize :=
      Nat.lt_irrefl 72
    have directory_place : (parsed draft.bytes).cli.rva = 0x160 := rfl
    rw [Contents.ofImage, if_neg directory_size, directory_place]
    simp only [CliHeader.byteSize, header_place, header_bytes, header_read, range, metadata_place,
      metadata_bytes, rooted, tabled, bind, Except.bind, pure, Except.pure]
    exact ⟨_, rfl, rfl⟩
  obtain ⟨contents, followed, layout_eq⟩ := followed
  refine ⟨contents, bind_eq_ok.mpr ⟨_, image_read _ bound, followed⟩, ?_⟩
  rw [layout_eq, read.layout]

def draft (count : Nat) : Draft where
  reserved := 0
  major := 2
  minor := 0
  heapSizes := 0
  spare := 1
  sorted := 0
  extra := 0
  generation := 0
  name := ⟨"Types", 1⟩
  mvid := 0
  encId := 0
  encBaseId := 0
  types := List.replicate count ⟨0, 0, 0, 0, 0, 0⟩
  manifest := none
  padding := []

theorem heapSizes_draft (count bit : Nat) :
    (draft count).heapSizes.toNat.testBit bit = false := Nat.zero_testBit bit

theorem indexWidth_draft (count bit : Nat) : (draft count).indexWidth bit = 2 := by
  rw [Draft.indexWidth, heapSizes_draft]
  rfl

theorem draft_over {count : Nat} (countable : count < 2 ^ 32) :
    (draft count).Over strings blobs := by
  have strings_narrow : (draft count).stringWidth = 2 := indexWidth_draft count 0
  have guids_narrow : (draft count).guidWidth = 2 := indexWidth_draft count 1
  have one_fits : 1 < 256 ^ 2 := by decide
  have zero_fits : 0 < 256 ^ 2 := by decide
  constructor
  case strings_begin | blobs_begin => rfl
  case countable => rwa [draft, List.length_replicate]
  case name_fits =>
    rw [strings_narrow]
    exact one_fits
  case mvid_fits | encId_fits | encBaseId_fits =>
    rw [guids_narrow]
    exact zero_fits
  case name =>
    intro _
    constructor
    case fits =>
      rw [strings_narrow]
      exact one_fits
    case nul_free =>
      show '\x00' ∉ "Types".toList
      decide
    case there =>
      show StringsHeap.entry "Types" <+: strings.drop 1
      exact List.prefix_rfl
  case manifest => nofun

theorem length_draft_le (count : Nat) : (draft count).bytes.length ≤ 42 + 16 * count := by
  have few : (draft count).counts.length ≤ 2 := by
    have no_manifest : (draft count).manifest.isSome = false := rfl
    rw [Draft.counts, no_manifest]
    split
    · exact Nat.le_succ 1
    · exact Nat.le_refl 2
  have front : (draft count).front.length = 24 + 4 * (draft count).counts.length := by
    have counted : ((draft count).counts.flatMap (Bytes.ofNat 4)).length =
        4 * (draft count).counts.length := by
      rw [List.length_flatMap, List.map_congr_left fun number _ => Bytes.length_ofNat 4 number]
      simp [Nat.mul_comm]
    have extra : (draft count).extraBytes = [] := by
      rw [Draft.extraBytes, heapSizes_draft]
      rfl
    rw [Draft.front, extra, List.append_nil, List.length_append, counted, Draft.length_header]
  have row : (draft count).layout.rowSize .typeDef ≤ 16 := by
    have base : (draft count).baseWidth ≤ 4 := by
      rw [Draft.baseWidth]
      split <;> decide
    rw [Draft.rowSize_typeDef, Draft.stringWidth, indexWidth_draft]
    omega
  have types : ((draft count).types.flatMap (draft count).typeBytes).length ≤ count * 16 := by
    rw [Draft.length_types, draft, List.length_replicate]
    exact Nat.mul_le_mul_left count row
  have module_row : (draft count).moduleBytes.length = 10 := by
    simp only [Draft.moduleBytes, Draft.stringWidth, Draft.guidWidth, indexWidth_draft,
      List.length_append, Bytes.length_ofNat]
  have manifest : ((draft count).manifest.map (draft count).manifestBytes).getD [] = [] := rfl
  have padding : (draft count).padding = [] := rfl
  rw [Draft.bytes, manifest, padding, List.append_nil, List.append_nil, List.length_append,
    List.length_append, front, module_row]
  omega

end TypedImage

/-- A module can have as many types as an image has room for. -/
theorem Module.types_loaded (id : ModuleId) (path : Path) {count : Nat}
    (room : 542 + 16 * count < 2 ^ 32) :
    ∃ loaded,
      Module.ofBytes id path (TypedImage.image (TypedImage.draft count).bytes) = .ok loaded ∧
        loaded.id = id ∧ loaded.rowCount .typeDef = count := by
  have length := TypedImage.length_draft_le count
  obtain ⟨contents, read, layout_eq⟩ :=
    TypedImage.contents_read (TypedImage.draft_over (show count < 2 ^ 32 by omega)) (by omega)
  refine ⟨⟨id, path, contents⟩, ?_, rfl, ?_⟩
  · rw [Module.ofBytes, read]
  · rw [Module.rowCount, layout_eq, Draft.rows_eq]
    exact List.length_replicate

end Managed
