import Mathlib.Data.List.DropRight
import Managed.Text.Blank
import Managed.Text.Split

namespace Managed.Text

structure IsTrimmed (text : List Char) : Prop where
  first : ∀ char ∈ text.head?, isBlank char = false
  last : ∀ char ∈ text.getLast?, isBlank char = false

theorem trim_eq (text : List Char) : trim text = (text.dropWhile isBlank).rdropWhile isBlank := rfl

theorem trim_cons_blank {char : Char} (blank : isBlank char = true) (text : List Char) :
    trim (char :: text) = trim text := by
  rw [trim_eq, List.dropWhile_cons_of_pos blank, trim_eq]

theorem trim_sublist (text : List Char) : (trim text).Sublist text :=
  (List.rdropWhile_prefix _ _).sublist.trans (List.dropWhile_sublist _)

theorem isTrimmed_trim (text : List Char) : IsTrimmed (trim text) where
  first := by
    intro char first
    obtain ⟨behind, dropped⟩ := List.rdropWhile_prefix isBlank (text.dropWhile isBlank)
    have kept := List.head?_dropWhile_not isBlank text
    have head : (text.dropWhile isBlank).head? = some char := by
      rw [← dropped]
      exact List.mem_head?_append_of_mem_head? first
    rwa [head] at kept
  last := by
    intro char last
    obtain ⟨before, text_eq⟩ := List.getLast?_eq_some_iff.mp last
    have some_char : (text.dropWhile isBlank).rdropWhile isBlank ≠ [] := by
      rw [← trim_eq, text_eq]
      simp
    have kept := List.rdropWhile_last_not isBlank (text.dropWhile isBlank) some_char
    simp only [← trim_eq, text_eq, List.getLast_concat, Bool.not_eq_true] at kept
    exact kept

theorem IsTrimmed.trim_eq_self {text : List Char} (trimmed : IsTrimmed text) :
    trim text = text := by
  rcases List.eq_nil_or_concat' text with rfl | ⟨before, last, rfl⟩
  · rfl
  · have last_kept := trimmed.last last (by simp)
    have first_kept : (before ++ [last]).dropWhile isBlank = before ++ [last] := by
      cases before with
      | nil => exact List.dropWhile_cons_of_neg (by simp [last_kept])
      | cons first rest => exact List.dropWhile_cons_of_neg (by simp [trimmed.first first rfl])
    rw [trim_eq, first_kept, List.rdropWhile_concat_neg _ _ _ (by simp [last_kept])]

theorem isTrimmed_iff {text : List Char} : IsTrimmed text ↔ trim text = text :=
  ⟨IsTrimmed.trim_eq_self, fun same => same ▸ isTrimmed_trim text⟩

instance (text : List Char) : Decidable (IsTrimmed text) :=
  decidable_of_iff (trim text = text) isTrimmed_iff.symm

def IsGap (text : List Char) : Prop := ∀ char ∈ text, isBlank char = true

instance (text : List Char) : Decidable (IsGap text) :=
  List.decidableBAll (isBlank · = true) text

theorem notMem_gap {gap : List Char} (blank : IsGap gap) {char : Char}
    (mark : isBlank char = false) : char ∉ gap := by
  intro member
  rw [blank char member] at mark
  cases mark

theorem trim_gap_append {gap : List Char} (blank : IsGap gap) (text : List Char) :
    trim (gap ++ text) = trim text := by
  rw [trim_eq, List.dropWhile_append_of_pos blank, trim_eq]

theorem trim_append_gap {gap : List Char} (blank : IsGap gap) (text : List Char) :
    trim (text ++ gap) = trim text := by
  rw [trim_eq, trim_eq, List.dropWhile_append]
  split
  · rename_i nothing
    rw [List.isEmpty_iff.mp nothing, List.dropWhile_eq_nil_iff.mpr blank]
  · have reversed : ∀ char ∈ gap.reverse, isBlank char = true := fun char member =>
      blank char (List.mem_reverse.mp member)
    rw [List.rdropWhile, List.reverse_append, List.dropWhile_append_of_pos reversed,
      List.rdropWhile]

section Padding

variable {before after : List Char}

theorem trim_padded (before_blank : IsGap before) (after_blank : IsGap after) (text : List Char) :
    trim (before ++ text ++ after) = trim text := by
  rw [trim_append_gap after_blank, trim_gap_append before_blank]

theorem notMem_padded {char : Char} {text : List Char} (before_blank : IsGap before)
    (after_blank : IsGap after) (mark : isBlank char = false) (free : char ∉ text) :
    char ∉ before ++ text ++ after := by
  have before_free := notMem_gap before_blank mark
  have after_free := notMem_gap after_blank mark
  simp [before_free, free, after_free]

end Padding

theorem exists_gaps (text : List Char) :
    ∃ before after, IsGap before ∧ IsGap after ∧ text = before ++ trim text ++ after := by
  refine ⟨text.takeWhile isBlank, (text.dropWhile isBlank).rtakeWhile isBlank, ?_, ?_, ?_⟩
  · exact fun char member => List.mem_takeWhile_imp member
  · exact fun char member => List.mem_rtakeWhile_imp member
  · rw [trim_eq, List.append_assoc, List.rdropWhile_append_rtakeWhile,
      List.takeWhile_append_dropWhile]

theorem isTrimmed_of_forall {text : List Char} (kept : ∀ char ∈ text, isBlank char = false) :
    IsTrimmed text where
  first := fun char member => kept char (List.mem_of_mem_head? member)
  last := fun char member => kept char (List.mem_of_mem_getLast? member)

theorem IsTrimmed.append {front back : List Char} (front_trimmed : IsTrimmed front)
    (back_trimmed : IsTrimmed back) (some_front : front ≠ []) (some_back : back ≠ []) :
    IsTrimmed (front ++ back) where
  first := by
    rw [List.head?_append_of_ne_nil _ some_front]
    exact front_trimmed.first
  last := by
    rw [List.getLast?_append_of_ne_nil _ some_back]
    exact back_trimmed.last

/-- The separator that divides a text is the first. -/
theorem splitOnce_append {separator : Char} {key : List Char} (free : separator ∉ key)
    (value : List Char) :
    splitOnce separator (key ++ separator :: value) = some (key, value) := by
  have before : ∀ char ∈ key, decide (char ≠ separator) = true := fun char member =>
    decide_eq_true fun same => free (same ▸ member)
  rw [splitOnce, if_pos (by simp), List.takeWhile_append_of_pos before,
    List.dropWhile_append_of_pos before]
  simp

theorem splitOnce_absent {separator : Char} {text : List Char} (free : separator ∉ text) :
    splitOnce separator text = none := by
  rw [splitOnce, if_neg]
  simpa using free

theorem splitOnce_sublist {separator : Char} {text key value : List Char}
    (divided : splitOnce separator text = some (key, value)) : value.Sublist text := by
  unfold splitOnce at divided
  split at divided
  · cases divided
    exact (List.tail_sublist _).trans (List.dropWhile_sublist _)
  · cases divided

theorem intercalate_cons (separator : Char) (first : List Char) (rest : List (List Char)) :
    [separator].intercalate (first :: rest) = first ++ rest.flatMap (separator :: ·) := by
  induction rest generalizing first with
  | nil => simp
  | cons second rest ih =>
    rw [List.intercalate_cons_cons, ih, List.flatMap_cons, List.append_assoc]
    rfl

theorem notMem_of_mem_splitOn {separator : Char} {text part : List Char}
    (member : part ∈ text.splitOn separator) : separator ∉ part := by
  induction text generalizing part with
  | nil =>
    rw [List.splitOn_nil, List.mem_singleton] at member
    rw [member]
    exact List.not_mem_nil
  | cons char rest ih =>
    rw [List.splitOn_cons_eq_if_modifyHead] at member
    split at member
    · rcases List.mem_cons.mp member with rfl | later
      · exact List.not_mem_nil
      · exact ih later
    · rename_i other
      obtain ⟨first, behind, parts_eq⟩ :=
        List.exists_cons_of_ne_nil (List.splitOn_ne_nil separator rest)
      rw [parts_eq, List.modifyHead_cons] at member
      rcases List.mem_cons.mp member with rfl | later
      · have unmet : separator ∉ first := ih (parts_eq ▸ List.mem_cons_self)
        intro present
        rcases List.mem_cons.mp present with same | later
        · exact other (beq_iff_eq.mpr same.symm)
        · exact unmet later
      · exact ih (parts_eq ▸ List.mem_cons_of_mem _ later)

end Managed.Text
