import Managed.Context.Builder
import Managed.Proofs.Outcomes
import Managed.Proofs.RegisteredNames
import Managed.Proofs.TrimmedText

namespace Managed

namespace PathTable

theorem contains_iff {table : PathTable} (proper : table.IsProper) (name : String) :
    table.contains name = true ↔ table.paths name ≠ [] := by
  rw [contains, paths]
  cases found : table.find? name with
  | none => simp
  | some entry => simpa using proper.nonempty entry (List.mem_of_find?_eq_some found)

def isSpelling (name spelling : String) : Bool :=
  (SimpleName.ofText spelling).isSame (SimpleName.ofText name)

theorem isSpelling_text {name : SimpleName} {wanted : String} :
    isSpelling wanted name.text = true ↔ name.key = (SimpleName.ofText wanted).key := by
  rw [isSpelling, SimpleName.isSame, decide_eq_true_iff, SimpleName.key_ofText_text]

/-- A name that is registered again in another spelling keeps the first. -/
theorem spellings_insert (entries : List (SimpleName × List Path)) (name : SimpleName)
    (path : Path) (wanted : String) :
    (names ⟨insert entries name path⟩).filter (isSpelling wanted) =
      if (names ⟨entries⟩).filter (isSpelling wanted) = [] ∧ isSpelling wanted name.text = true then
        [name.text] else (names ⟨entries⟩).filter (isSpelling wanted) := by
  induction entries with
  | nil => simp [insert, names, List.filter_cons]
  | cons entry rest ih =>
    rw [insert]
    split
    · rename_i same
      have same_key : entry.1.key = name.key := of_decide_eq_true same
      rw [if_neg]
      · rfl
      · rintro ⟨none_there, spelled⟩
        have kept : isSpelling wanted entry.1.text = true :=
          isSpelling_text.mpr (same_key.trans (isSpelling_text.mp spelled))
        simp [names, kept] at none_there
    · rename_i differs
      have apart : entry.1.key ≠ name.key := fun same => differs (decide_eq_true same)
      have front : ∀ others : List (SimpleName × List Path),
          names ⟨entry :: others⟩ = entry.1.text :: names ⟨others⟩ := fun _ => rfl
      rw [front, front, List.filter_cons, List.filter_cons, ih]
      by_cases here : isSpelling wanted entry.1.text = true
      · have other : ¬ isSpelling wanted name.text = true := fun spelled =>
          apart ((isSpelling_text.mp here).trans (isSpelling_text.mp spelled).symm)
        simp [here, other]
      · simp [here]

/-- Of the spellings of a name that are registered, the first stays. -/
theorem spellings_ofRegistrations (registrations : List (String × Path)) (name : String) :
    (ofRegistrations registrations).names.filter (isSpelling name) =
      ((registrations.map (·.1)).find? (isSpelling name)).toList := by
  induction registrations using List.reverseRecOn with
  | nil => rfl
  | append_singleton registrations entry ih =>
    have last : ofRegistrations (registrations ++ [entry]) =
        (ofRegistrations registrations).register entry.1 entry.2 := by
      rw [ofRegistrations, List.foldl_append]
      rfl
    have text : (SimpleName.ofText entry.1).text = entry.1 := rfl
    rw [last, register, spellings_insert, ih, text, List.map_append, List.find?_append]
    cases (registrations.map (·.1)).find? (isSpelling name) with
    | some spelling => simp
    | none => by_cases spelled : isSpelling name entry.1 = true <;> simp [spelled]

end PathTable

theorem PathTables.contains_iff {tables : PathTables} (inputs_proper : tables.inputs.IsProper)
    (references_proper : tables.references.IsProper) (name : String) :
    tables.contains name = true ↔ tables.paths name ≠ [] := by
  rw [contains, paths, Bool.or_eq_true, PathTable.contains_iff inputs_proper,
    PathTable.contains_iff references_proper, ne_eq, ne_eq, ne_eq, List.append_eq_nil_iff,
    not_and_or]

inductive Registration where
  | inputFile (name : String) (path : Path)
  | referenceFile (name : String) (path : Path)
  | inputTable (table : List (String × List Path))
  | referenceTable (table : List (String × List Path))

namespace Registration

def apply (builder : Builder) : Registration → Builder
  | inputFile name path => builder.inputFile name path
  | referenceFile name path => builder.referenceFile name path
  | inputTable table => builder.inputTable table
  | referenceTable table => builder.referenceTable table

def inputs : Registration → List (String × Path)
  | inputFile name path => [(name, path)]
  | inputTable table => table.flatMap fun entry => entry.2.map (entry.1, ·)
  | referenceFile _ _ | referenceTable _ => []

def references : Registration → List (String × Path)
  | referenceFile name path => [(name, path)]
  | referenceTable table => table.flatMap fun entry => entry.2.map (entry.1, ·)
  | inputFile _ _ | inputTable _ => []

end Registration

namespace Builder

def after (builder : Builder) (calls : List Registration) : Builder :=
  calls.foldl Registration.apply builder

theorem after_eq (builder : Builder) (calls : List Registration) :
    builder.after calls = { builder with
      inputs := builder.inputs ++ calls.flatMap Registration.inputs
      references := builder.references ++ calls.flatMap Registration.references } := by
  induction calls generalizing builder with
  | nil => simp [after]
  | cons call rest ih =>
    have step : builder.after (call :: rest) = (call.apply builder).after rest := rfl
    rw [step, ih]
    cases call <;> simp [Registration.apply, inputFile, referenceFile, inputTable, referenceTable,
      flatten, Registration.inputs, Registration.references]

theorem isBlankName_iff (name : String) : isBlankName name = true ↔ Text.IsGap name.toList :=
  List.all_eq_true

def IsFirstBlank (registrations : List (String × Path)) (path : Path) : Prop :=
  ∃ before name after, registrations = before ++ (name, path) :: after ∧
    (∀ entry ∈ before, ¬ Text.IsGap entry.1.toList) ∧ Text.IsGap name.toList

theorem isFirstBlank_iff {registrations : List (String × Path)} {path : Path} :
    IsFirstBlank registrations path ↔
      ∃ name, registrations.find? (fun entry => isBlankName entry.1) = some (name, path) := by
  simp only [List.find?_eq_some_iff_append, Bool.not_eq_true', ← Bool.not_eq_true,
    isBlankName_iff]
  constructor
  · rintro ⟨before, name, after, listed, shown, blank⟩
    exact ⟨name, blank, before, after, listed, shown⟩
  · rintro ⟨name, blank, before, after, listed, shown⟩
    exact ⟨before, name, after, listed, shown, blank⟩

theorem find?_eq_none {registrations : List (String × Path)} :
    registrations.find? (fun entry => isBlankName entry.1) = none ↔
      ∀ entry ∈ registrations, ¬ Text.IsGap entry.1.toList := by
  simp only [List.find?_eq_none, isBlankName_iff]

theorem table_eq_ok {registrations : List (String × Path)} {table : PathTable} :
    Builder.table registrations = .ok table ↔
      (∀ entry ∈ registrations, ¬ Text.IsGap entry.1.toList) ∧
        PathTable.ofRegistrations registrations = table := by
  rw [Builder.table, ← find?_eq_none]
  cases registrations.find? fun entry => isBlankName entry.1 <;> simp

theorem table_eq_error {registrations : List (String × Path)} {error : BuildError} :
    Builder.table registrations = .error error ↔
      ∃ path, IsFirstBlank registrations path ∧ error = .emptyModuleName path := by
  simp only [Builder.table, isFirstBlank_iff]
  cases registrations.find? fun entry => isBlankName entry.1 with
  | none => simp
  | some entry => simp [Prod.ext_iff, eq_comm]

inductive Refuses (extension : String) (inputs references : List (String × Path)) :
    BuildError → Prop where
  | extension (empty : extension = "") : Refuses extension inputs references .emptySymbolExtension
  | input {path : Path} (given : extension ≠ "") (blank : IsFirstBlank inputs path) :
    Refuses extension inputs references (.emptyModuleName path)
  | reference {path : Path} (given : extension ≠ "")
    (shown : ∀ entry ∈ inputs, ¬ Text.IsGap entry.1.toList)
    (blank : IsFirstBlank references path) :
    Refuses extension inputs references (.emptyModuleName path)

section Building

variable {builder : Builder}

theorem build_refused {error : BuildError}
    (refused : Refuses builder.config.symbolExtension builder.inputs builder.references error) :
    builder.build = .error error := by
  cases refused with
  | extension empty =>
    rw [build, empty]
    rfl
  | input given blank =>
    have stopped := table_eq_error.mpr ⟨_, blank, rfl⟩
    rw [build, if_neg (by simpa using given), stopped]
    rfl
  | reference given shown blank =>
    have made := table_eq_ok.mpr ⟨shown, rfl⟩
    have stopped := table_eq_error.mpr ⟨_, blank, rfl⟩
    rw [build, if_neg (by simpa using given), made, stopped]
    rfl

def context (builder : Builder) : Context where
  config := builder.config
  catalog := { tables := ⟨.ofRegistrations builder.inputs, .ofRegistrations builder.references⟩ }
  factory := builder.factory
  strategies := builder.strategies

theorem build_shown (given : builder.config.symbolExtension ≠ "")
    (shown : ∀ entry ∈ builder.inputs ++ builder.references, ¬ Text.IsGap entry.1.toList) :
    builder.build = .ok builder.context := by
  obtain ⟨inputs_shown, references_shown⟩ := List.forall_mem_append.mp shown
  have made := table_eq_ok.mpr ⟨inputs_shown, rfl⟩
  have references_made := table_eq_ok.mpr ⟨references_shown, rfl⟩
  rw [build, if_neg (by simpa using given), made, references_made]
  rfl

theorem exists_firstBlank {registrations : List (String × Path)} {entry : String × Path}
    (member : entry ∈ registrations) (blank : Text.IsGap entry.1.toList) :
    ∃ path, IsFirstBlank registrations path := by
  cases found : registrations.find? fun entry => isBlankName entry.1 with
  | none => exact absurd blank (find?_eq_none.mp found entry member)
  | some first => exact ⟨first.2, isFirstBlank_iff.mpr ⟨first.1, found⟩⟩

theorem refused_iff {extension : String} {inputs references : List (String × Path)} :
    (∃ error, Refuses extension inputs references error) ↔
      extension = "" ∨ ∃ entry ∈ inputs ++ references, Text.IsGap entry.1.toList := by
  constructor
  · rintro ⟨error, refused⟩
    cases refused with
    | extension empty => exact .inl empty
    | @input path _ blank =>
      obtain ⟨before, name, after, rfl, -, gap⟩ := blank
      exact .inr ⟨(name, path), by simp, gap⟩
    | @reference path _ _ blank =>
      obtain ⟨before, name, after, rfl, -, gap⟩ := blank
      exact .inr ⟨(name, path), by simp, gap⟩
  · intro wrong
    by_cases empty : extension = ""
    · exact ⟨_, .extension empty⟩
    · obtain ⟨entry, member, gap⟩ := wrong.resolve_left empty
      by_cases shown : ∀ entry ∈ inputs, ¬ Text.IsGap entry.1.toList
      · have later := (List.mem_append.mp member).resolve_left fun early => shown entry early gap
        obtain ⟨path, blank⟩ := exists_firstBlank later gap
        exact ⟨_, .reference empty shown blank⟩
      · simp only [not_forall, not_not] at shown
        obtain ⟨first, early, first_gap⟩ := shown
        obtain ⟨path, blank⟩ := exists_firstBlank early first_gap
        exact ⟨_, .input empty blank⟩

theorem settled_build (builder : Builder) :
    Settled builder.build
      (fun context => builder.config.symbolExtension ≠ "" ∧
        (∀ entry ∈ builder.inputs ++ builder.references, ¬ Text.IsGap entry.1.toList) ∧
          context = builder.context)
      (Refuses builder.config.symbolExtension builder.inputs builder.references) where
  value := by
    rintro _ ⟨given, shown, rfl⟩
    exact build_shown given shown
  fault := fun _ => build_refused
  total := by
    by_cases wrong : ∃ error,
        Refuses builder.config.symbolExtension builder.inputs builder.references error
    · exact .inr wrong
    · rw [refused_iff, not_or] at wrong
      exact .inl ⟨_, wrong.1, fun entry member gap => wrong.2 ⟨entry, member, gap⟩, rfl⟩

end Building

/-- A context is built unless the symbol extension is empty or there is a name with nothing to show.
    A name then has the paths that it is registered for in whatever spelling, those of the modules
    to compile first, and the modules to compile are listed in the spelling that came first. -/
theorem built_as_registered (config : Config) (factory : SymbolFactory) (strategies : StrategySet)
    (calls : List Registration) :
    let builder : Builder := { config, factory, strategies }
    let inputs := calls.flatMap Registration.inputs
    let references := calls.flatMap Registration.references
    (∀ error, (builder.after calls).build = .error error ↔
      Refuses config.symbolExtension inputs references error) ∧
    ((∃ error, (builder.after calls).build = .error error) ↔
      config.symbolExtension = "" ∨
        ∃ entry ∈ inputs ++ references, Text.IsGap entry.1.toList) ∧
    ∀ context, (builder.after calls).build = .ok context → ∀ name,
      context.catalog.tables.paths name =
        PathTable.registered inputs name ++ PathTable.registered references name ∧
      (context.catalog.tables.contains name = true ↔ context.catalog.tables.paths name ≠ []) ∧
      context.catalog.tables.inputs.names.filter (PathTable.isSpelling name) =
        ((inputs.map (·.1)).find? (PathTable.isSpelling name)).toList := by
  intro builder inputs references
  have whole : builder.after calls = { builder with inputs, references } := after_eq builder calls
  have failed : ∀ error, (builder.after calls).build = .error error ↔
      Refuses config.symbolExtension inputs references error := by
    rw [whole]
    exact fun error => (settled_build _).eq_error
  refine ⟨failed, ?_, ?_⟩
  · simp only [failed, refused_iff]
  · intro context built name
    rw [whole] at built
    obtain ⟨-, -, context_eq⟩ := (settled_build _).eq_ok.mp built
    have tables : context.catalog.tables = ⟨.ofRegistrations inputs, .ofRegistrations references⟩ :=
      congrArg (·.catalog.tables) context_eq
    have proper := PathTable.proper_ofRegistrations
    rw [tables]
    refine ⟨?_, PathTables.contains_iff (proper inputs) (proper references) name,
      PathTable.spellings_ofRegistrations inputs name⟩
    rw [PathTables.paths, PathTable.paths_ofRegistrations, PathTable.paths_ofRegistrations]

end Builder

end Managed
