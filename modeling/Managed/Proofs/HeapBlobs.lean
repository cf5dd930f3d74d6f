import Mathlib.Algebra.Ring.Nat
import Managed.Metadata.BlobHeap
import Managed.Proofs.CompressedNumbers
import Managed.Proofs.ReadingAhead

namespace Managed.Metadata.BlobHeap

open Integer

def Stands (data : Bytes) (index : Nat) (blob : Bytes) : Prop :=
  ∃ marked, Compressed.Denotes marked blob.length ∧ marked ++ blob <+: data.drop index

theorem Stands.index_lt {data blob : Bytes} {index : Nat} (stands : Stands data index blob) :
    index < data.length := by
  obtain ⟨marked, denotes, begins⟩ := stands
  have room := begins.length_le
  have some_mark := List.length_pos_iff.mpr denotes.ne_nil
  rw [List.length_append, List.length_drop] at room
  omega

theorem Stands.append {data blob : Bytes} {index : Nat} (stands : Stands data index blob)
    (more : Bytes) : Stands (data ++ more) index blob := by
  have inside := Nat.le_of_lt stands.index_lt
  obtain ⟨marked, denotes, begins⟩ := stands
  refine ⟨marked, denotes, ?_⟩
  rw [List.drop_append_of_le_length inside]
  exact begins.trans (List.prefix_append _ _)

theorem stands_behind {marked blob : Bytes} (denotes : Compressed.Denotes marked blob.length)
    (data : Bytes) : Stands (data ++ (marked ++ blob)) data.length blob := by
  refine ⟨marked, denotes, [], ?_⟩
  rw [List.append_nil, List.drop_left]

theorem readBlob_eq_ok {cursor : Cursor} {ahead : Bytes} (faces : cursor.Faces ahead)
    (blob : Bytes) :
    (∃ final, readBlob cursor = .ok blob final) ↔
      ∃ marked, Compressed.Denotes marked blob.length ∧ marked ++ blob <+: ahead := by
  constructor
  · intro read
    obtain ⟨final, read⟩ := read
    obtain ⟨length, middle, sized, taken⟩ := (Reader.bind_eq_ok _ _ _ _ _).mp read
    obtain ⟨marked, behind, ahead_eq, denotes, rfl⟩ := Compressed.denotes_of_read sized
    rw [faces.rest_eq] at ahead_eq
    subst ahead_eq
    obtain ⟨rfl, after, rfl, -⟩ := (Reader.bytes_reads faces.forward).mp taken
    exact ⟨marked, denotes, after, List.append_assoc _ _ _⟩
  · intro there
    obtain ⟨marked, denotes, behind, rfl⟩ := there
    rw [List.append_assoc] at faces
    have sized := Compressed.read_denoted denotes faces.rest_eq
    exact ⟨_, (Reader.bind_eq_ok _ _ _ _ _).mpr ⟨_, _, sized, Reader.bytes_ahead faces.forward⟩⟩

theorem fault_of_readBlob {cursor final : Cursor} {fault : Fault}
    (refused : readBlob cursor = .error fault final) :
    fault = .outOfBounds ∨ ∃ lead, cursor.rest.head? = some lead ∧ 0xE0 ≤ lead.toNat ∧
      fault = .malformed (.compressedLead lead.toNat) := by
  rcases (Reader.bind_eq_error _ _ _ _ _).mp refused with unsized | ⟨_, _, -, short⟩
  · exact Compressed.fault_of_read unsized
  · exact .inl (Reader.bytes_eq_error short)

theorem get_eq_ok (heap : BlobHeap) (index : Nat) (blob : Bytes) :
    heap.get index = .ok blob ↔ Stands heap.data index blob := by
  by_cases outside : heap.data.length ≤ index
  · rw [get, if_pos outside]
    constructor
    · intro impossible
      cases impossible
    · intro stands
      exact absurd stands.index_lt (Nat.not_lt.mpr outside)
  · rw [get, if_neg outside, Reader.run?_eq_ok, readBlob_eq_ok (Cursor.faces_ofBytes _)]
    rfl

theorem get_entry {heap : BlobHeap} {index : Nat} {blob : Bytes}
    (bound : blob.length < 2 ^ 29) (there : entry blob <+: heap.data.drop index) :
    heap.get index = .ok blob :=
  (get_eq_ok _ _ _).mpr ⟨_, (Compressed.encodes_encode bound).denotes, there⟩

theorem index_ne_zero {data blob : Bytes} {index : Nat} (begins : data.head? = some 0)
    (nonempty : blob ≠ []) (bound : blob.length < 2 ^ 29) (there : entry blob <+: data.drop index) :
    index ≠ 0 := by
  intro zero
  subst zero
  obtain ⟨behind, rfl⟩ := there
  have lead := Compressed.encode_head_ne_zero blob.length
    (List.length_pos_iff.mpr nonempty) bound
  cases shape : Compressed.encode blob.length with
  | nil => exact Compressed.encode_ne_nil _ shape
  | cons byte rest =>
    rw [shape] at lead
    rw [entry, shape] at begins
    exact lead begins

theorem fault_of_get {heap : BlobHeap} {index : Nat} {fault : Fault}
    (refused : heap.get index = .error fault) :
    fault = .outOfBounds ∨ ∃ lead, heap.data[index]? = some lead ∧ 0xE0 ≤ lead.toNat ∧
      fault = .malformed (.compressedLead lead.toNat) := by
  by_cases outside : heap.data.length ≤ index
  · rw [get, if_pos outside] at refused
    cases refused
    exact .inl rfl
  · rw [get, if_neg outside, Reader.run?_eq_error] at refused
    obtain ⟨final, refused⟩ := refused
    have fault_eq := fault_of_readBlob refused
    rwa [Cursor.rest_ofBytes, List.head?_drop] at fault_eq

theorem get_reserved {heap : BlobHeap} {index : Nat} {lead : UInt8}
    (there : heap.data[index]? = some lead) (large : 0xE0 ≤ lead.toNat) :
    heap.get index = .error (.malformed (.compressedLead lead.toNat)) := by
  have inside : ¬ heap.data.length ≤ index := by
    intro outside
    rw [List.getElem?_eq_none outside] at there
    cases there
  rw [← List.head?_drop] at there
  obtain ⟨behind, ahead⟩ := List.head?_eq_some_iff.mp there
  have begun : (Cursor.ofBytes (heap.data.drop index)).rest = lead :: behind := ahead
  have refused := Compressed.read_reserved begun large
  rw [get, if_neg inside, Reader.run?_eq_error]
  exact ⟨_, (Reader.bind_eq_error _ _ _ _ _).mpr (.inl refused)⟩

theorem get_eq_malformed (heap : BlobHeap) (index : Nat) (defect : Defect) :
    heap.get index = .error (.malformed defect) ↔
      ∃ lead, heap.data[index]? = some lead ∧ 0xE0 ≤ lead.toNat ∧
        defect = .compressedLead lead.toNat := by
  constructor
  · intro refused
    rcases fault_of_get refused with impossible | ⟨lead, there, large, same⟩
    · cases impossible
    · exact ⟨lead, there, large, Fault.malformed.inj same⟩
  · intro reserved
    obtain ⟨lead, there, large, rfl⟩ := reserved
    exact get_reserved there large

theorem ofBytes_eq_ok (data : Bytes) (heap : BlobHeap) :
    ofBytes data = .ok heap ↔ data.head? = some 0 ∧ heap = ⟨data⟩ := by
  rw [ofBytes]
  split
  · rename_i begins
    simp [begins, eq_comm]
  · rename_i begins
    simp [begins]

theorem ofBytes_append {data : Bytes} {heap : BlobHeap} (accepted : ofBytes data = .ok heap)
    (more : Bytes) : ofBytes (data ++ more) = .ok ⟨data ++ more⟩ := by
  obtain ⟨begins, -⟩ := (ofBytes_eq_ok _ _).mp accepted
  refine (ofBytes_eq_ok _ _).mpr ⟨?_, rfl⟩
  rw [List.head?_append, begins]
  rfl

/-- A read from a heap gives the bytes that a length announces, wherever it begins. It is malformed
    at a reserved byte, and short of bytes in every other case in which it fails. What is put behind
    a heap can be read there and takes nothing away. -/
theorem counted_blobs_read {data : Bytes} {heap : BlobHeap} (accepted : ofBytes data = .ok heap) :
    (∀ index blob, heap.get index = .ok blob ↔ index < data.length ∧ Stands data index blob) ∧
    (∀ index defect, heap.get index = .error (.malformed defect) ↔
      ∃ lead, data[index]? = some lead ∧ 0xE0 ≤ lead.toNat ∧
        defect = .compressedLead lead.toNat) ∧
    (∀ index fault, heap.get index = .error fault →
      fault = .outOfBounds ∨ ∃ defect, fault = .malformed defect) ∧
    (∀ blob, blob.length < 2 ^ 29 →
      Compressed.Denotes (Compressed.encode blob.length) blob.length ∧
      ∀ marked, Compressed.Denotes marked blob.length →
        ∃ longer, ofBytes (data ++ (marked ++ blob)) = .ok longer ∧
          longer.get data.length = .ok blob) ∧
    (∀ more index blob, heap.get index = .ok blob →
      ∃ longer, ofBytes (data ++ more) = .ok longer ∧ longer.get index = .ok blob) := by
  obtain ⟨-, rfl⟩ := (ofBytes_eq_ok _ _).mp accepted
  refine ⟨?_, get_eq_malformed _, ?_, ?_, ?_⟩
  · intro index blob
    rw [get_eq_ok]
    exact ⟨fun stands => ⟨stands.index_lt, stands⟩, And.right⟩
  · intro index fault refused
    exact (fault_of_get refused).imp_right fun ⟨lead, _, _, fault_eq⟩ => ⟨_, fault_eq⟩
  · intro blob bound
    refine ⟨(Compressed.encodes_encode bound).denotes, ?_⟩
    intro marked denotes
    exact ⟨_, ofBytes_append accepted _, (get_eq_ok _ _ _).mpr (stands_behind denotes data)⟩
  · intro more index blob found
    have stands := ((get_eq_ok _ _ _).mp found).append more
    exact ⟨_, ofBytes_append accepted more, (get_eq_ok _ _ _).mpr stands⟩

theorem blob_within_blob_read :
    let data : Bytes := [0, 4, 0x80, 2, 0xAA, 0xBB, 0xE1]
    ofBytes data = .ok ⟨data⟩ ∧ get ⟨data⟩ 1 = .ok [0x80, 2, 0xAA, 0xBB] ∧
      get ⟨data⟩ 2 = .ok [0xAA, 0xBB] ∧
      get ⟨data⟩ 6 = .error (.malformed (.compressedLead 0xE1)) := by
  intro data
  obtain ⟨found, malformed, -⟩ := counted_blobs_read (rfl : ofBytes data = .ok ⟨data⟩)
  refine ⟨rfl, (found _ _).mpr ⟨by decide, [4], ?_, by decide⟩,
    (found _ _).mpr ⟨by decide, [0x80, 2], ?_, by decide⟩,
    (malformed _ _).mpr ⟨0xE1, by decide, by decide, rfl⟩⟩
  · exact .inl (by decide)
  · exact .inr (.inl (by decide))

end Managed.Metadata.BlobHeap
