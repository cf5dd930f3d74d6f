import Managed.Catalog.PathTable

namespace Managed

theorem SimpleName.key_ofText_text (name : SimpleName) : (ofText name.text).key = name.key :=
  name.key_eq.symm

namespace PathTable

theorem find?_congr (table : PathTable) {left right : String}
    (same : (SimpleName.ofText left).key = (SimpleName.ofText right).key) :
    table.find? left = table.find? right := by
  simp only [find?, SimpleName.isSame, same]

theorem key_of_find? {table : PathTable} {name : String} {entry : SimpleName × List Path}
    (found : table.find? name = some entry) : entry.1.key = (SimpleName.ofText name).key := by
  rw [find?] at found
  have matched := List.find?_some found
  exact of_decide_eq_true matched

structure IsProper (table : PathTable) : Prop where
  distinct : (table.entries.map (·.1.key)).Nodup
  nonempty : ∀ entry ∈ table.entries, entry.2 ≠ []

theorem mem_keys_insert {entries : List (SimpleName × List Path)} {name : SimpleName} {path : Path}
    {key : String} :
    key ∈ (insert entries name path).map (·.1.key) ↔
      key ∈ entries.map (·.1.key) ∨ key = name.key := by
  induction entries with
  | nil => simp [insert]
  | cons entry rest ih =>
    rw [insert]
    split
    · rename_i same
      have same_key : entry.1.key = name.key := of_decide_eq_true same
      simp only [List.map_cons, List.mem_cons, same_key]
      exact ⟨.inl, fun either => either.elim id .inl⟩
    · rw [List.map_cons, List.mem_cons, ih, List.map_cons, List.mem_cons, or_assoc]

theorem distinct_insert {entries : List (SimpleName × List Path)} {name : SimpleName} {path : Path}
    (distinct : (entries.map (·.1.key)).Nodup) :
    ((insert entries name path).map (·.1.key)).Nodup := by
  induction entries with
  | nil => simp [insert]
  | cons entry rest ih =>
    obtain ⟨new, rest_distinct⟩ := List.nodup_cons.mp distinct
    rw [insert]
    split
    · exact distinct
    · rename_i differs
      have apart : entry.1.key ≠ name.key := fun same => differs (decide_eq_true same)
      rw [List.map_cons, List.nodup_cons, mem_keys_insert]
      exact ⟨not_or.mpr ⟨new, apart⟩, ih rest_distinct⟩

theorem nonempty_insert {entries : List (SimpleName × List Path)} {name : SimpleName} {path : Path}
    (nonempty : ∀ entry ∈ entries, entry.2 ≠ []) :
    ∀ entry ∈ insert entries name path, entry.2 ≠ [] := by
  induction entries with
  | nil => simp [insert]
  | cons entry rest ih =>
    obtain ⟨first, others⟩ := List.forall_mem_cons.mp nonempty
    rw [insert]
    split
    · exact List.forall_mem_cons.mpr
        ⟨List.append_ne_nil_of_right_ne_nil _ (List.cons_ne_nil _ _), others⟩
    · exact List.forall_mem_cons.mpr ⟨first, ih others⟩

theorem proper_ofRegistrations (registrations : List (String × Path)) :
    (ofRegistrations registrations).IsProper := by
  suffices kept : ∀ table : PathTable, table.IsProper →
      (registrations.foldl (fun table entry => table.register entry.1 entry.2) table).IsProper from
    kept {} ⟨List.nodup_nil, nofun⟩
  induction registrations with
  | nil => exact fun _ proper => proper
  | cons entry rest ih =>
    intro table proper
    exact ih _ ⟨distinct_insert proper.distinct, nonempty_insert proper.nonempty⟩

variable {table : PathTable}

def registered (registrations : List (String × Path)) (name : String) : List Path :=
  (registrations.filter fun entry =>
    (SimpleName.ofText entry.1).key = (SimpleName.ofText name).key).map (·.2)

theorem paths_cons (entry : SimpleName × List Path) (rest : List (SimpleName × List Path))
    (wanted : String) : paths ⟨entry :: rest⟩ wanted =
      if entry.1.key = (SimpleName.ofText wanted).key then entry.2 else paths ⟨rest⟩ wanted := by
  rw [paths, paths, find?, find?, List.find?_cons, SimpleName.isSame]
  by_cases same : entry.1.key = (SimpleName.ofText wanted).key <;> simp [same]

theorem paths_insert (entries : List (SimpleName × List Path)) (name : SimpleName) (path : Path)
    (wanted : String) : paths ⟨insert entries name path⟩ wanted = paths ⟨entries⟩ wanted ++
      if name.key = (SimpleName.ofText wanted).key then [path] else [] := by
  induction entries with
  | nil =>
    rw [insert, paths_cons]
    rfl
  | cons entry rest ih =>
    rw [insert]
    split
    · rename_i same
      have same_key : entry.1.key = name.key := of_decide_eq_true same
      rw [paths_cons, paths_cons, same_key]
      split
      · rfl
      · rw [List.append_nil]
    · rename_i differs
      have apart : entry.1.key ≠ name.key := fun same => differs (decide_eq_true same)
      rw [paths_cons, paths_cons, ih]
      by_cases here : entry.1.key = (SimpleName.ofText wanted).key
      · rw [if_pos here, if_pos here, if_neg fun same => apart (here.trans same.symm),
          List.append_nil]
      · rw [if_neg here, if_neg here]

theorem paths_ofRegistrations (registrations : List (String × Path)) (name : String) :
    (ofRegistrations registrations).paths name = registered registrations name := by
  suffices added : ∀ table : PathTable,
      (registrations.foldl (fun table entry => table.register entry.1 entry.2) table).paths name =
        table.paths name ++ registered registrations name from added {}
  induction registrations with
  | nil => exact fun table => (List.append_nil _).symm
  | cons entry rest ih =>
    intro table
    have first := paths_insert table.entries (.ofText entry.1) entry.2 name
    rw [List.foldl_cons, ih, register, first, List.append_assoc, registered, registered]
    by_cases same : (SimpleName.ofText entry.1).key = (SimpleName.ofText name).key <;> simp [same]

end PathTable

end Managed
