import Mathlib.Data.List.Nodup
import Mathlib.Data.List.Perm.Subperm
import Managed.Proofs.StreamDirectory

namespace Managed.Metadata

structure DirectoryEntry where
  header : StreamHeader
  padding : Bytes

namespace DirectoryEntry

def bytes (entry : DirectoryEntry) : Bytes := entry.header.front ++ entry.padding

structure Fits (length : Nat) (entry : DirectoryEntry) : Prop where
  padded : entry.padding.length = 3 - entry.header.name.bytes.length % 4
  narrow : entry.header.offset + entry.header.size < UInt32.size
  inside : entry.header.offset + entry.header.size ≤ length

theorem Fits.length_bytes {length : Nat} {entry : DirectoryEntry} (fits : entry.Fits length) :
    entry.bytes.length = entry.header.length := by
  rw [bytes, List.length_append, fits.padded, StreamHeader.length_eq]

end DirectoryEntry

namespace Root

theorem headerDefect?_eq_none {length : Nat} {known : List StreamHeader} {header : StreamHeader} :
    headerDefect? length known header = none ↔
      (header.offset + header.size < UInt32.size ∧ header.offset + header.size ≤ length) ∧
        header.name ∉ known.map (·.name) := by
  rw [headerDefect?]
  split
  · rename_i outside
    simp only [reduceCtorEq, false_iff]
    omega
  · rename_i within
    have fits : header.offset + header.size < UInt32.size ∧
        header.offset + header.size ≤ length := by omega
    simp [fits]

structure Lists (length : Nat) (known : List StreamHeader) (headers : List StreamHeader)
    (entries : List DirectoryEntry) : Prop where
  written : entries.map (·.header) = headers
  fits : ∀ entry ∈ entries, entry.Fits length
  distinct : (headers.map (·.name)).Nodup
  apart : ∀ header ∈ headers, header.name ∉ known.map (·.name)

theorem lists_cons {length : Nat} {known headers : List StreamHeader} {header : StreamHeader}
    {entry : DirectoryEntry} {entries : List DirectoryEntry} :
    Lists length known (header :: headers) (entry :: entries) ↔
      entry.header = header ∧ entry.Fits length ∧ header.name ∉ known.map (·.name) ∧
        Lists length (known ++ [header]) headers entries := by
  constructor
  · intro lists
    have both := List.cons.inj lists.written
    have fits := List.forall_mem_cons.mp lists.fits
    have distinct := List.nodup_cons.mp lists.distinct
    have apart := List.forall_mem_cons.mp lists.apart
    refine ⟨both.1, fits.1, apart.1, both.2, fits.2, distinct.2, ?_⟩
    intro other member
    rw [List.map_append, List.mem_append, List.map_singleton, List.mem_singleton, not_or]
    refine ⟨apart.2 other member, fun same => distinct.1 ?_⟩
    exact List.mem_map.mpr ⟨other, member, same⟩
  · rintro ⟨rfl, fits, new, rest⟩
    have apart : ∀ other ∈ headers, other.name ∉ known.map (·.name) ∧
        other.name ≠ entry.header.name := by
      intro other member
      have away := rest.apart other member
      rw [List.map_append, List.mem_append, List.map_singleton, List.mem_singleton, not_or] at away
      exact away
    constructor
    · rw [List.map_cons, rest.written]
    · exact List.forall_mem_cons.mpr ⟨fits, rest.fits⟩
    · rw [List.map_cons, List.nodup_cons]
      refine ⟨fun taken => ?_, rest.distinct⟩
      obtain ⟨other, member, same⟩ := List.mem_map.mp taken
      exact (apart other member).2 same
    · exact List.forall_mem_cons.mpr ⟨new, fun other member => (apart other member).1⟩

theorem readHeaders_succ {count : Nat} {known headers : List StreamHeader} {cursor final : Cursor}
    {ahead : Bytes} (faces : cursor.Faces ahead) :
    readHeaders (count + 1) known cursor = .ok headers final ↔
      ∃ header others, StreamHeader.ofBytes ahead = .ok header ∧
        headerDefect? cursor.data.length known header = none ∧ header.length ≤ ahead.length ∧
          readHeaders count (known ++ [header]) (cursor.forward header.length) = .ok others final ∧
            headers = header :: others := by
  have rest : cursor.data.drop cursor.position = ahead := faces.rest_eq
  simp only [readHeaders, Reader.get_bind, rest]
  constructor
  · intro read
    cases found : StreamHeader.ofBytes ahead with
    | error fault =>
      rw [found] at read
      cases read
    | ok header =>
      rw [found] at read
      dsimp only at read
      cases allowed : headerDefect? cursor.data.length known header with
      | some defect =>
        rw [allowed] at read
        exact absurd read (Reader.malformed_ne_ok _ _ _ _)
      | none =>
        rw [allowed] at read
        obtain ⟨⟨⟩, middle, skipped, read⟩ := (Reader.bind_eq_ok _ _ _ _ _).mp read
        obtain ⟨room, rfl⟩ := (Reader.skip_reads faces).mp skipped
        obtain ⟨others, last, others_read, done⟩ := (Reader.bind_eq_ok _ _ _ _ _).mp read
        obtain ⟨rfl, rfl⟩ := (Reader.pure_eq_ok _ _ _ _).mp done
        exact ⟨header, others, rfl, allowed, room, others_read, rfl⟩
  · rintro ⟨header, others, found, allowed, room, others_read, rfl⟩
    rw [found]
    dsimp only
    rw [allowed]
    refine (Reader.bind_eq_ok _ _ _ _ _).mpr
      ⟨(), _, (Reader.skip_reads faces).mpr ⟨room, rfl⟩, ?_⟩
    exact (Reader.bind_eq_ok _ _ _ _ _).mpr ⟨others, final, others_read, rfl⟩

/-- The headers that are read are those that are written, one after another. -/
theorem readHeaders_eq_ok {count : Nat} {known headers : List StreamHeader} {cursor final : Cursor}
    {ahead : Bytes} (faces : cursor.Faces ahead) :
    readHeaders count known cursor = .ok headers final ↔
      headers.length = count ∧ ∃ entries, Lists cursor.data.length known headers entries ∧
        ∃ behind, ahead = entries.flatMap DirectoryEntry.bytes ++ behind ∧
          final = cursor.forward (entries.flatMap DirectoryEntry.bytes).length := by
  -- Each header moves the cursor past its own bytes, from where the same holds of the rest.
  induction count generalizing known headers cursor ahead with
  | zero =>
    rw [readHeaders, Reader.pure_eq_ok]
    constructor
    · rintro ⟨rfl, rfl⟩
      exact ⟨rfl, [], ⟨rfl, nofun, List.nodup_nil, nofun⟩, ahead, rfl, rfl⟩
    · rintro ⟨none, entries, lists, behind, -, rfl⟩
      obtain rfl := List.length_eq_zero_iff.mp none
      obtain rfl := List.map_eq_nil_iff.mp lists.written
      exact ⟨rfl, rfl⟩
  | succ count ih =>
    rw [readHeaders_succ faces]
    constructor
    · rintro ⟨header, others, found, allowed, room, read, rfl⟩
      obtain ⟨-, -, tail, rfl⟩ := StreamHeader.ofBytes_eq_ok.mp found
      obtain ⟨⟨narrow, inside⟩, new⟩ := headerDefect?_eq_none.mp allowed
      have padded : 3 - header.name.bytes.length % 4 ≤ tail.length := by
        rw [StreamHeader.length_eq, List.length_append] at room
        omega
      let entry : DirectoryEntry := ⟨header, tail.take (3 - header.name.bytes.length % 4)⟩
      have fits : entry.Fits cursor.data.length := ⟨List.length_take_of_le padded, narrow, inside⟩
      have ahead_eq : header.front ++ tail =
          entry.bytes ++ tail.drop (3 - header.name.bytes.length % 4) := by
        rw [DirectoryEntry.bytes, List.append_assoc, List.take_append_drop]
      have next := (ahead_eq ▸ faces).forward
      rw [fits.length_bytes] at next
      obtain ⟨same, entries, lists, behind, rest, rfl⟩ := (ih next).mp read
      refine ⟨congrArg (· + 1) same, entry :: entries, lists_cons.mpr ⟨rfl, fits, new, lists⟩,
        behind, ?_, ?_⟩
      · rw [ahead_eq, rest, List.flatMap_cons, List.append_assoc]
      · rw [List.flatMap_cons, List.length_append, fits.length_bytes, Cursor.forward_forward]
    · rintro ⟨size, entries, lists, behind, rfl, rfl⟩
      cases entries with
      | nil =>
        obtain rfl := lists.written
        cases size
      | cons entry entries =>
        obtain ⟨header, others, rfl⟩ := List.exists_cons_of_length_eq_add_one size
        obtain ⟨rfl, fits, new, lists⟩ := lists_cons.mp lists
        rw [List.flatMap_cons, List.append_assoc] at faces ⊢
        have next := faces.forward
        rw [fits.length_bytes] at next
        refine ⟨entry.header, others, ?_, ?_, ?_, (ih next).mpr ⟨Nat.succ.inj size, entries, ?_⟩, rfl⟩
        · have offset := fits.narrow
          refine StreamHeader.ofBytes_eq_ok.mpr ⟨?_, ?_, ?_⟩
          · simp only [UInt32.size] at offset
            omega
          · simp only [UInt32.size] at offset
            omega
          · rw [DirectoryEntry.bytes, List.append_assoc]
            exact List.prefix_append _ _
        · exact headerDefect?_eq_none.mpr ⟨⟨fits.narrow, fits.inside⟩, new⟩
        · rw [List.length_append, fits.length_bytes]
          omega
        · refine ⟨lists, behind, rfl, ?_⟩
          rw [List.flatMap_cons, List.length_append, fits.length_bytes, Cursor.forward_forward]

end Root

structure RootDraft where
  major : UInt16
  minor : UInt16
  reserved : UInt32
  area : Bytes
  flags : UInt16
  entries : List DirectoryEntry

namespace RootDraft

def bytes (draft : RootDraft) : Bytes :=
  Bytes.ofNat 4 Root.signature ++ (Bytes.ofNat 2 draft.major.toNat ++
    (Bytes.ofNat 2 draft.minor.toNat ++ (Bytes.ofNat 4 draft.reserved.toNat ++
      (Bytes.ofNat 4 draft.area.length ++ (draft.area ++ (Bytes.ofNat 2 draft.flags.toNat ++
        (Bytes.ofNat 2 draft.entries.length ++ draft.entries.flatMap DirectoryEntry.bytes)))))))

def root (draft : RootDraft) : Root where
  major := draft.major.toNat
  minor := draft.minor.toNat
  version := Root.versionText draft.area
  flags := draft.flags.toNat
  headers := draft.entries.map (·.header)

structure Fits (length : Nat) (draft : RootDraft) : Prop where
  area : draft.area.length ≤ Root.versionLimit
  nonempty : draft.entries ≠ []
  distinct : (draft.entries.map (·.header.name)).Nodup
  entries : ∀ entry ∈ draft.entries, entry.Fits length

end RootDraft

namespace Root

/-- The writer without choices fills names up with zero bytes. -/
theorem encode_of_draft {draft : RootDraft}
    (zeros : ∀ entry ∈ draft.entries,
      entry.padding = List.replicate (3 - entry.header.name.bytes.length % 4) 0) :
    draft.root.encode draft.area draft.reserved.toNat = draft.bytes := by
  have directory : draft.root.headers.flatMap StreamHeader.encode =
      draft.entries.flatMap DirectoryEntry.bytes := by
    rw [RootDraft.root, List.flatMap_map]
    refine List.flatMap_congr fun entry member => ?_
    rw [StreamHeader.encode_eq_front, DirectoryEntry.bytes, zeros entry member]
  rw [encode, directory, RootDraft.root, RootDraft.bytes, List.length_map]
  simp only [List.append_assoc]

theorem draft_of_read {data : Bytes} {root : Root} (read : ofBytes data = .ok root) :
    ∃ draft behind, data = RootDraft.bytes draft ++ behind ∧ draft.Fits data.length ∧
      draft.root = root := by
  obtain ⟨final, read⟩ := (Reader.run?_eq_ok _ _ _).mp read
  have faces := Cursor.faces_ofBytes data
  unfold Root.read at read
  obtain ⟨found, behind₁, -, data_eq, faces, read⟩ := (Reader.number_bind faces).mp read
  obtain ⟨signed, read⟩ := Reader.refuse_eq_ok.mp read
  obtain ⟨major, behind₂, major_lt, rfl, faces, read⟩ := (Reader.number_bind faces).mp read
  obtain ⟨minor, behind₃, minor_lt, rfl, faces, read⟩ := (Reader.number_bind faces).mp read
  obtain ⟨reserved, behind₄, reserved_lt, rfl, faces, read⟩ := (Reader.number_bind faces).mp read
  obtain ⟨length, behind₅, -, rfl, faces, read⟩ := (Reader.number_bind faces).mp read
  obtain ⟨short, read⟩ := Reader.refuse_eq_ok.mp read
  obtain ⟨area, behind₆, rfl, rfl, faces, read⟩ := (Reader.bytes_bind faces).mp read
  obtain ⟨flags, behind₇, flags_lt, rfl, faces, read⟩ := (Reader.number_bind faces).mp read
  obtain ⟨count, behind₈, -, rfl, faces, read⟩ := (Reader.number_bind faces).mp read
  obtain ⟨some_stream, read⟩ := Reader.refuse_eq_ok.mp read
  obtain ⟨headers, middle, headers_read, done⟩ := (Reader.bind_eq_ok _ _ _ _ _).mp read
  obtain ⟨rfl, -⟩ := (Reader.pure_eq_ok _ _ _ _).mp done
  obtain ⟨size, entries, lists, behind, rfl, -⟩ := (readHeaders_eq_ok faces).mp headers_read
  obtain rfl : found = signature := not_not.mp signed
  have same_size : entries.length = count := by
    rw [← size, ← lists.written, List.length_map]
  refine ⟨⟨.ofNat major, .ofNat minor, .ofNat reserved, area, .ofNat flags, entries⟩, behind,
    ?_, ⟨Nat.not_lt.mp short, ?_, ?_, lists.fits⟩, ?_⟩
  · simp only [data_eq, RootDraft.bytes, UInt16.toNat_ofNat_of_lt' major_lt,
      UInt16.toNat_ofNat_of_lt' minor_lt, UInt32.toNat_ofNat_of_lt' reserved_lt,
      UInt16.toNat_ofNat_of_lt' flags_lt, same_size, List.append_assoc]
  · rintro rfl
    exact some_stream same_size.symm
  · have names := lists.distinct
    rw [← lists.written, List.map_map] at names
    exact names
  · simp only [RootDraft.root, UInt16.toNat_ofNat_of_lt' major_lt,
      UInt16.toNat_ofNat_of_lt' minor_lt, UInt16.toNat_ofNat_of_lt' flags_lt, lists.written]

/-- There are not more streams than names for them. -/
theorem length_le_of_nodup {names : List StreamName} (distinct : names.Nodup) :
    names.length ≤ StreamName.all.length := by
  have sub := distinct.subperm fun name _ => StreamName.mem_all name
  exact sub.length_le

theorem read_of_draft {data behind : Bytes} {draft : RootDraft}
    (data_eq : data = draft.bytes ++ behind) (fits : draft.Fits data.length) :
    ofBytes data = .ok draft.root := by
  have count_le := length_le_of_nodup fits.distinct
  rw [List.length_map] at count_le
  have count_lt : draft.entries.length < 256 ^ 2 := Nat.lt_of_le_of_lt count_le (by decide)
  have area_lt : draft.area.length < 256 ^ 4 := Nat.lt_of_le_of_lt fits.area (by decide)
  simp only [RootDraft.bytes, List.append_assoc] at data_eq
  have faces : (Cursor.ofBytes data).Faces _ := ⟨Nat.zero_le _, data_eq⟩
  have behind_signature := faces.after_number
  have behind_major := behind_signature.after_number
  have behind_minor := behind_major.after_number
  have behind_reserved := behind_minor.after_number
  have behind_length := behind_reserved.after_number
  have behind_area := behind_length.forward
  have behind_flags := behind_area.after_number
  have behind_count := behind_flags.after_number
  have lists : Lists data.length [] (draft.entries.map (·.header)) draft.entries := by
    refine ⟨rfl, fits.entries, ?_, nofun⟩
    rw [List.map_map]
    exact fits.distinct
  rw [ofBytes, Reader.run?_eq_ok]
  unfold Root.read
  refine ⟨(Cursor.ofBytes data).forward (20 + draft.area.length +
    (draft.entries.flatMap DirectoryEntry.bytes).length), ?_⟩
  refine (Reader.number_bind faces).mpr
    ⟨_, _, by decide, rfl, behind_signature, Reader.refuse_eq_ok.mpr ⟨not_not.mpr rfl, ?_⟩⟩
  refine (Reader.number_bind behind_signature).mpr
    ⟨_, _, draft.major.toNat_lt, rfl, behind_major, ?_⟩
  refine (Reader.number_bind behind_major).mpr ⟨_, _, draft.minor.toNat_lt, rfl, behind_minor, ?_⟩
  refine (Reader.number_bind behind_minor).mpr
    ⟨_, _, draft.reserved.toNat_lt, rfl, behind_reserved, ?_⟩
  refine (Reader.number_bind behind_reserved).mpr
    ⟨_, _, area_lt, rfl, behind_length, Reader.refuse_eq_ok.mpr ⟨Nat.not_lt.mpr fits.area, ?_⟩⟩
  refine (Reader.bytes_bind behind_length).mpr ⟨_, _, rfl, rfl, behind_area, ?_⟩
  refine (Reader.number_bind behind_area).mpr ⟨_, _, draft.flags.toNat_lt, rfl, behind_flags, ?_⟩
  refine (Reader.number_bind behind_flags).mpr
    ⟨_, _, count_lt, rfl, behind_count, Reader.refuse_eq_ok.mpr ⟨?_, ?_⟩⟩
  · exact mt List.length_eq_zero_iff.mp fits.nonempty
  · refine (Reader.bind_eq_ok _ _ _ _ _).mpr ⟨_, _, (readHeaders_eq_ok behind_count).mpr
      ⟨List.length_map _, draft.entries, lists, behind, rfl, ?_⟩, rfl⟩
    simp only [Cursor.forward_forward]
    exact congrArg (Cursor.forward (Cursor.ofBytes data)) (by omega)

/-- Reading accepts exactly what writing produces, whatever follows it. -/
theorem ofBytes_eq_ok {data : Bytes} {root : Root} :
    ofBytes data = .ok root ↔
      ∃ draft behind, data = RootDraft.bytes draft ++ behind ∧ draft.Fits data.length ∧
        draft.root = root := by
  constructor
  · exact draft_of_read
  · rintro ⟨draft, behind, data_eq, fits, rfl⟩
    exact read_of_draft data_eq fits

def announced? (data : Bytes) : Option Nat := do
  let length ← data.number? 12 4
  data.number? (18 + length) 2

theorem announced?_of_draft {data behind : Bytes} {draft : RootDraft}
    (data_eq : data = draft.bytes ++ behind) (fits : draft.Fits data.length) :
    announced? data = some draft.entries.length := by
  have count_le := length_le_of_nodup fits.distinct
  rw [List.length_map] at count_le
  have count_lt : draft.entries.length < 256 ^ 2 := Nat.lt_of_le_of_lt count_le (by decide)
  have area_lt : draft.area.length < 256 ^ 4 := Nat.lt_of_le_of_lt fits.area (by decide)
  simp only [RootDraft.bytes, List.append_assoc] at data_eq
  have faces : (Cursor.ofBytes data).Faces _ := ⟨Nat.zero_le _, data_eq⟩
  have behind_reserved := faces.after_number.after_number.after_number.after_number
  have length := behind_reserved.number?
  have behind_flags := behind_reserved.after_number.forward.after_number
  have count := behind_flags.number?
  rw [Bytes.length_ofNat, Bytes.littleEndian_ofNat, Nat.mod_eq_of_lt area_lt] at length
  rw [Bytes.length_ofNat, Bytes.littleEndian_ofNat, Nat.mod_eq_of_lt count_lt] at count
  have length_at : data.number? 12 4 = some draft.area.length := length
  have place : 18 + draft.area.length = 0 + 4 + 2 + 2 + 4 + 4 + draft.area.length + 2 := by omega
  have count_at : data.number? (18 + draft.area.length) 2 = some draft.entries.length := by
    rw [place]
    exact count
  rw [announced?, length_at, Option.bind_eq_bind, Option.bind_some, count_at]

structure Accepted (data : Bytes) (root : Root) : Prop where
  announced : announced? data = some root.headers.length
  nonempty : 1 ≤ root.headers.length
  atMost : root.headers.length ≤ 8
  distinct : (root.headers.map (·.name.text)).Nodup
  named : ∀ header ∈ root.headers, header.name.text ∈
    ["#Strings", "#US", "#Blob", "#GUID", "#~", "#-", "#Pdb", "#JTD"]
  inside : ∀ header ∈ root.headers, header.offset + header.size ≤ data.length
  found : ∀ header ∈ root.headers, root.streamNamed? data header.name.text =
    some ((data.drop header.offset).take header.size)
  declared : ∀ text, (root.streamNamed? data text).isSome ↔
    ∃ header ∈ root.headers, header.name.text = text
  tables : root.tablesStream? data = (root.streamNamed? data "#~").or (root.streamNamed? data "#-")

theorem header?_spec {root : Root} {name : StreamName} {header : StreamHeader}
    (looked : root.header? name = some header) : header ∈ root.headers ∧ header.name = name := by
  have same := List.find?_some looked
  exact ⟨List.mem_of_find?_eq_some looked, of_decide_eq_true same⟩

theorem header?_eq_some {root : Root} (distinct : (root.headers.map (·.name)).Nodup)
    {header : StreamHeader} (member : header ∈ root.headers) :
    root.header? header.name = some header := by
  have present := List.find?_isSome (p := (·.name = header.name)).mpr
    ⟨header, member, decide_eq_true rfl⟩
  obtain ⟨other, looked⟩ := Option.isSome_iff_exists.mp present
  obtain ⟨listed, same⟩ := header?_spec looked
  rw [header?, looked, List.inj_on_of_nodup_map distinct listed member same]

theorem accepted_of_draft {data behind : Bytes} {draft : RootDraft}
    (data_eq : data = draft.bytes ++ behind) (fits : draft.Fits data.length) :
    draft.root.Accepted data := by
  have distinct : (draft.root.headers.map (·.name)).Nodup := by
    rw [RootDraft.root, List.map_map]
    exact fits.distinct
  have inside : ∀ header ∈ draft.root.headers, header.offset + header.size ≤ data.length := by
    intro header member
    obtain ⟨entry, listed, rfl⟩ := List.mem_map.mp member
    exact (fits.entries entry listed).inside
  have found : ∀ header ∈ draft.root.headers, draft.root.streamNamed? data header.name.text =
      some ((data.drop header.offset).take header.size) := by
    intro header member
    rw [streamNamed?, StreamName.ofText?_text, Option.bind_some, stream?,
      header?_eq_some distinct member]
    simp only [Bytes.slice?_eq, if_pos (inside header member)]
  constructor
  case announced =>
    rw [announced?_of_draft data_eq fits, RootDraft.root, List.length_map]
  case nonempty =>
    rw [RootDraft.root, List.length_map]
    exact List.length_pos_of_ne_nil fits.nonempty
  case atMost =>
    have bound := length_le_of_nodup distinct
    rwa [List.length_map] at bound
  case distinct =>
    have texts := List.Nodup.map (fun _ _ => StreamName.text_injective) distinct
    rwa [List.map_map] at texts
  case named =>
    intro header _
    cases header.name <;> decide
  case inside => exact inside
  case found => exact found
  case declared =>
    intro text
    constructor
    · intro present
      obtain ⟨bytes, read⟩ := Option.isSome_iff_exists.mp present
      obtain ⟨name, named, read⟩ := Option.bind_eq_some_iff.mp read
      rw [stream?] at read
      split at read
      · rename_i header looked
        obtain ⟨member, rfl⟩ := header?_spec looked
        exact ⟨header, member, StreamName.ofText?_eq_some.mp named⟩
      · cases read
    · rintro ⟨header, member, rfl⟩
      rw [found header member, Option.isSome_some]
  case tables =>
    have compressed : draft.root.streamNamed? data "#~" = draft.root.stream? data .tables := rfl
    have uncompressed : draft.root.streamNamed? data "#-" =
        draft.root.stream? data .uncompressedTables := rfl
    rw [compressed, uncompressed, tablesStream?]
    cases draft.root.stream? data .tables <;> rfl

/-- What is read is well-formed, what is written is read back, and more streams than there are
    names for are rejected. -/
theorem directory_format (data : Bytes) :
    (∀ root, ofBytes data = .ok root → root.Accepted data) ∧
      (∀ draft behind, data = RootDraft.bytes draft ++ behind → draft.Fits data.length →
        ofBytes data = .ok draft.root) ∧
      ∀ count, announced? data = some count → 8 < count → ∃ fault, ofBytes data = .error fault := by
  have accepted : ∀ root, ofBytes data = .ok root → root.Accepted data := by
    intro root read
    obtain ⟨draft, behind, data_eq, fits, rfl⟩ := ofBytes_eq_ok.mp read
    exact accepted_of_draft data_eq fits
  refine ⟨accepted, fun draft behind => read_of_draft, fun count announced many => ?_⟩
  cases read : ofBytes data with
  | error fault => exact ⟨fault, rfl⟩
  | ok root =>
    have sound := accepted root read
    have same := sound.announced
    have bound := sound.atMost
    rw [announced, Option.some.injEq] at same
    omega

end Root

end Managed.Metadata
