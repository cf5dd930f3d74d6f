import Managed.Identity.Version
import Managed.Proofs.TrimmedText

namespace Managed

namespace Text.Decimal

theorem digitValue?_digit {value : Nat} (below : value < 10) :
    digitValue? (digit value) = some value := by
  revert value
  decide

theorem render_small {number : Nat} (small : number < 10) : render number = [digit number] := by
  rw [render, if_pos small]

theorem render_large {number : Nat} (large : ¬ number < 10) :
    render number = render (number / 10) ++ [digit (number % 10)] := by
  rw [render, if_neg large]

theorem mem_render {number : Nat} {char : Char} (member : char ∈ render number) :
    ∃ value < 10, char = digit value := by
  induction number using render.induct with
  | case1 number small =>
    rw [render_small small, List.mem_singleton] at member
    exact ⟨number, small, member⟩
  | case2 number large ih =>
    rw [render_large large, List.mem_append, List.mem_singleton] at member
    rcases member with early | last
    · exact ih early
    · exact ⟨number % 10, Nat.mod_lt _ (by decide), last⟩

theorem render_ne_nil (number : Nat) : render number ≠ [] := by
  rw [render]
  split
  · exact List.cons_ne_nil _ _
  · exact List.append_ne_nil_of_right_ne_nil _ (List.cons_ne_nil _ _)

theorem isBlank_digit {value : Nat} (below : value < 10) : isBlank (digit value) = false := by
  revert value
  decide

theorem notMem_render {char : Char} (other : digitValue? char = none) (number : Nat) :
    char ∉ render number := by
  intro member
  obtain ⟨value, below, rfl⟩ := mem_render member
  rw [digitValue?_digit below] at other
  cases other

theorem readDigits_append_digit {limit number value : Nat} (below : value < 10)
    (digits : List Char) :
    readDigits limit number (digits ++ [digit value]) =
      (readDigits limit number digits).bind fun read =>
        if read * 10 + value < limit then some (read * 10 + value) else none := by
  induction digits generalizing number with
  | nil => simp only [List.nil_append, readDigits, digitValue?_digit below, Option.bind_some]
  | cons char rest ih =>
    rw [List.cons_append, readDigits, readDigits]
    cases digitValue? char with
    | none => rfl
    | some first =>
      dsimp only
      split
      · exact ih
      · rfl

theorem readDigits_render {limit number : Nat} (below : number < limit) :
    readDigits limit 0 (render number) = some number := by
  induction number using render.induct with
  | case1 number small =>
    rw [render_small small, ← List.nil_append [_], readDigits_append_digit small, readDigits,
      Option.bind_some, Nat.zero_mul, Nat.zero_add, if_pos below]
  | case2 number large ih =>
    have whole : number / 10 * 10 + number % 10 = number := by omega
    rw [render_large large, readDigits_append_digit (Nat.mod_lt _ (by decide)),
      ih (by omega), Option.bind_some, whole, if_pos below]

theorem read?_render {limit number : Nat} (below : number < limit) :
    read? limit (render number) = some number := by
  obtain ⟨first, rest, text_eq⟩ := List.exists_cons_of_ne_nil (render_ne_nil number)
  have unsigned : first ≠ '+' := by
    intro sign
    have no_sign : '+' ∉ render number := notMem_render (by decide) number
    rw [text_eq, sign] at no_sign
    exact no_sign List.mem_cons_self
  have read := readDigits_render below
  rw [text_eq] at read ⊢
  simpa [read?, unsigned] using read

end Text.Decimal

namespace Version

open Text

theorem readComponents_render (components : List UInt16) :
    readComponents (components.map fun component => Decimal.render component.toNat) =
      .ok components := by
  induction components with
  | nil => rfl
  | cons component rest ih =>
    rw [List.map_cons, readComponents, readComponent?, Decimal.read?_render component.toNat_lt,
      Option.map_some, ih, UInt16.ofNat_toNat]
    rfl

theorem mem_displayChars {version : Version} {char : Char} (member : char ∈ version.displayChars) :
    char = '.' ∨ ∃ value < 10, char = Decimal.digit value := by
  rw [displayChars, components, List.map_cons, intercalate_cons, List.mem_append,
    List.mem_flatMap] at member
  rcases member with first | ⟨part, later, member⟩
  · exact .inr (Decimal.mem_render first)
  · obtain ⟨component, -, rfl⟩ := List.mem_map.mp later
    rcases List.mem_cons.mp member with point | digit
    · exact .inl point
    · exact .inr (Decimal.mem_render digit)

theorem displayChars_ne_nil (version : Version) : version.displayChars ≠ [] := by
  rw [displayChars, components, List.map_cons, intercalate_cons]
  exact List.append_ne_nil_of_left_ne_nil (Decimal.render_ne_nil _) _

theorem isTrimmed_displayChars (version : Version) : IsTrimmed version.displayChars := by
  apply isTrimmed_of_forall
  intro char member
  rcases mem_displayChars member with rfl | ⟨value, below, rfl⟩
  · decide
  · exact Decimal.isBlank_digit below

theorem parseChars_displayChars (version : Version) :
    parseChars version.displayChars = .ok version := by
  have parts : version.displayChars.splitOn '.' =
      version.components.map fun component => Decimal.render component.toNat := by
    apply List.splitOn_intercalate
    · intro part member
      obtain ⟨component, -, rfl⟩ := List.mem_map.mp member
      exact Decimal.notMem_render (by decide) _
    · exact List.cons_ne_nil _ _
  rw [parseChars, version.isTrimmed_displayChars.trim_eq_self, parts,
    if_neg (by simp [components]), readComponents_render]
  exact congrArg Except.ok (ofComponents_components version)

end Version

end Managed
