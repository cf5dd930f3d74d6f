import Managed.Proofs.IdentityRoundTrip
import Managed.Proofs.SafeLoading

namespace Managed.Identity

open Metadata

variable {tables : TablesStream} {row : AssemblyRow} {strings : StringsHeap}
  {blobs : Option BlobHeap} {identity : Identity} {key : Bytes}

theorem publicKey_of_heap (signed : row.publicKey ≠ 0) (heap : BlobHeap) :
    publicKey row (some heap) = heap.get row.publicKey := if_neg signed

/-- The token of an identity that is read from an assembly row. -/
theorem ofAssemblyRow_token (read : ofAssemblyRow row strings blobs = .ok identity) :
    ∃ key, publicKey row blobs = .ok key ∧ (identity.token = none ↔ key = []) := by
  obtain ⟨name, -, read⟩ := bind_eq_ok.mp read
  obtain ⟨culture, -, read⟩ := bind_eq_ok.mp read
  obtain ⟨key, key_read, read⟩ := bind_eq_ok.mp read
  cases pure_eq_ok.mp read
  refine ⟨key, key_read, ?_⟩
  cases key with
  | nil => simp
  | cons byte rest => simp

/-- An assembly row is read just if its name, its culture and its key are. -/
theorem ofAssemblyRow_exists :
    (∃ identity, ofAssemblyRow row strings blobs = .ok identity) ↔
      (∃ name, strings.get row.name = .ok name) ∧
        (∃ culture, strings.get row.culture = .ok culture) ∧
          ∃ key, publicKey row blobs = .ok key := by
  constructor
  · intro read
    obtain ⟨identity, read⟩ := read
    obtain ⟨name, name_read, read⟩ := bind_eq_ok.mp read
    obtain ⟨culture, culture_read, read⟩ := bind_eq_ok.mp read
    obtain ⟨key, key_read, read⟩ := bind_eq_ok.mp read
    exact ⟨⟨name, name_read⟩, ⟨culture, culture_read⟩, ⟨key, key_read⟩⟩
  · intro parts
    obtain ⟨⟨name, name_read⟩, ⟨culture, culture_read⟩, ⟨key, key_read⟩⟩ := parts
    exact ⟨_, bind_eq_ok.mpr ⟨name, name_read, bind_eq_ok.mpr ⟨culture, culture_read,
      bind_eq_ok.mpr ⟨key, key_read, rfl⟩⟩⟩⟩

theorem read_assembly (found : tables.assemblyRow = .ok (some row)) (strings : StringsHeap)
    (blobs : Option BlobHeap) : read tables strings blobs = ofAssemblyRow row strings blobs := by
  rw [read, found]
  rfl

/-- What an identity owes to an assembly row with a key: the key is in a heap, and it shows in the
    token unless it has no bytes. If there is no such key, then there is no identity. -/
structure KeepsKey (tables : TablesStream) (row : AssemblyRow) (strings : StringsHeap)
    (blobs : Option BlobHeap) : Prop where
  kept : ∀ identity, read tables strings blobs = .ok identity →
    ∃ heap key, blobs = some heap ∧ heap.get row.publicKey = .ok key ∧
      (identity.token = none ↔ key = [])
  refused : (∀ heap key, blobs = some heap → heap.get row.publicKey ≠ .ok key) →
    ∃ fault, read tables strings blobs = .error fault

theorem keepsKey_of_heap (found : tables.assemblyRow = .ok (some row)) (signed : row.publicKey ≠ 0)
    (strings : StringsHeap) (heap : BlobHeap) : KeepsKey tables row strings (some heap) where
  kept := by
    intro identity read
    rw [read_assembly found] at read
    obtain ⟨key, key_read, shown⟩ := ofAssemblyRow_token read
    rw [publicKey_of_heap signed] at key_read
    exact ⟨heap, key, rfl, key_read, shown⟩
  refused := by
    intro no_key
    cases outcome : read tables strings (some heap) with
    | error fault => exact ⟨fault, rfl⟩
    | ok identity =>
      rw [read_assembly found] at outcome
      obtain ⟨-, -, key, key_read⟩ := ofAssemblyRow_exists.mp ⟨identity, outcome⟩
      rw [publicKey_of_heap signed] at key_read
      exact absurd key_read (no_key heap key rfl)

/-- The key of an assembly row is kept just if there is a heap of blobs, or if the name or the
    culture cannot be read. -/
theorem keepsKey_iff (found : tables.assemblyRow = .ok (some row)) (signed : row.publicKey ≠ 0)
    (strings : StringsHeap) (blobs : Option BlobHeap) :
    KeepsKey tables row strings blobs ↔
      (blobs = none → ∀ name culture, strings.get row.name = .ok name →
        strings.get row.culture ≠ .ok culture) := by
  constructor
  · intro keeps absent name culture name_read culture_read
    subst absent
    obtain ⟨identity, read⟩ := ofAssemblyRow_exists.mpr
      ⟨⟨name, name_read⟩, ⟨culture, culture_read⟩, ⟨[], (rfl : publicKey row none = .ok [])⟩⟩
    rw [← read_assembly found] at read
    obtain ⟨heap, -, nothing, -⟩ := keeps.kept identity read
    cases nothing
  · intro unread
    cases blobs with
    | some heap => exact keepsKey_of_heap found signed strings heap
    | none =>
      have no_identity : ∀ identity, read tables strings none ≠ .ok identity := by
        intro identity read
        rw [read_assembly found] at read
        obtain ⟨⟨name, name_read⟩, ⟨culture, culture_read⟩, -⟩ :=
          ofAssemblyRow_exists.mp ⟨identity, read⟩
        exact unread rfl name culture name_read culture_read
      refine ⟨fun identity read => absurd read (no_identity identity), fun _ => ?_⟩
      cases outcome : read tables strings none with
      | error fault => exact ⟨fault, rfl⟩
      | ok identity => exact absurd outcome (no_identity identity)

theorem small_key_kept :
    ∃ tables strings heap, TablesStream.ofBytes Draft.small.bytes = .ok tables ∧
      StringsHeap.ofBytes Draft.smallStrings = .ok strings ∧
      BlobHeap.ofBytes Draft.smallBlobs = .ok heap ∧
      ∃ row, tables.assemblyRow = .ok (some row) ∧ row.publicKey ≠ 0 ∧
        KeepsKey tables row strings (some heap) := by
  obtain ⟨tables, accepted, reading⟩ := Draft.small.stream_read Draft.small_over.countable
  have placed := Draft.small_over.manifest _ rfl
  have found := Draft.assemblyRow_read reading rfl placed.row_fits
  refine ⟨tables, _, _, accepted, rfl, rfl, _, found, by decide, ?_⟩
  exact (keepsKey_iff found (by decide) _ _).mpr nofun

/-- An assembly with a key is read without a heap of blobs as one that is not signed, which
    satisfies requests for any token. -/
theorem key_dropped_without_heap :
    ∃ tables strings row identity, TablesStream.ofBytes Draft.small.bytes = .ok tables ∧
      StringsHeap.ofBytes Draft.smallStrings = .ok strings ∧
      tables.assemblyRow = .ok (some row) ∧ row.publicKey ≠ 0 ∧
      read tables strings none = .ok identity ∧ identity.token = none ∧
      (∀ token, Request.Allows { name := "Lib", token } identity) ∧
      ¬ KeepsKey tables row strings none := by
  obtain ⟨tables, accepted, reading⟩ := Draft.small.stream_read Draft.small_over.countable
  have placed := Draft.small_over.manifest _ rfl
  have found := Draft.assemblyRow_read reading rfl placed.row_fits
  let identity : Identity := { name := "Lib", version := some ⟨1, 2, 3, 4⟩, flags := 1 }
  have unsigned : read tables ⟨Draft.smallStrings⟩ none = .ok identity := by
    rw [read_assembly found]
    decide +kernel
  refine ⟨tables, _, _, identity, accepted, rfl, found, by decide, unsigned, rfl, ?_, ?_⟩
  · exact fun token => ⟨rfl, True.intro, by cases token <;> exact True.intro⟩
  · intro keeps
    obtain ⟨heap, -, nothing, -⟩ := keeps.kept identity unsigned
    cases nothing

end Managed.Identity
