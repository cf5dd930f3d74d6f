import Mathlib.Logic.Relation
import Managed.Proofs.RequestMeaning

namespace Managed.Request

open Text

inductive Padded : List Char → List Char → Prop where
  | bare {before text after : List Char} (before_blank : IsGap before) (after_blank : IsGap after)
      (free : '=' ∉ text) : Padded text (before ++ text ++ after)
  | keyed {before key behind ahead value after : List Char} (before_blank : IsGap before)
      (behind_blank : IsGap behind) (ahead_blank : IsGap ahead) (after_blank : IsGap after)
      (free : '=' ∉ key) :
    Padded (key ++ '=' :: value)
      (before ++ key ++ behind ++ '=' :: (ahead ++ value ++ after))

/-- One change of the parts of a display name: of their order, of the blanks at a part, or by a part
    that says nothing. -/
inductive Respelled : List (List Char) → List (List Char) → Prop where
  | reordered {parts others : List (List Char)} (perm : parts.Perm others) : Respelled parts others
  | padded {part other : List Char} (before after : List (List Char)) (padded : Padded part other) :
    Respelled (before ++ part :: after) (before ++ other :: after)
  | silent {part : List Char} (before after : List (List Char)) (silent : IsSilent part) :
    Respelled (before ++ after) (before ++ part :: after)

theorem Padded.keyValue?_eq {part other : List Char} (padded : Padded part other) :
    keyValue? other = keyValue? part := by
  cases padded with
  | bare before_blank after_blank free => exact keyValue?_gaps before_blank after_blank part
  | @keyed before key behind ahead value after before_blank behind_blank ahead_blank after_blank
      free =>
    have whole_free : '=' ∉ before ++ key ++ behind :=
      notMem_padded before_blank behind_blank (by decide) free
    rw [keyValue?_append whole_free, keyValue?_append free, trim_padded before_blank behind_blank,
      trim_padded ahead_blank after_blank]

theorem Respelled.said_perm {parts others : List (List Char)} (respelled : Respelled parts others)
    {key : String} (read : key ∈ readKeys) : (said key parts).Perm (said key others) := by
  cases respelled with
  | reordered perm => exact perm.filterMap _
  | @padded part other before after padded =>
    have same : said key (part :: after) = said key (other :: after) := by
      simp only [said, List.filterMap_cons, padded.keyValue?_eq]
    rw [said_append, said_append, same]
  | @silent part before after silent =>
    rw [said_append, said_append, ← List.singleton_append, said_append, said_silent silent read,
      List.nil_append]

theorem said_perm {parts others : List (List Char)}
    (respelled : Relation.EqvGen Respelled parts others) {key : String} (read : key ∈ readKeys) :
    (said key parts).Perm (said key others) := by
  induction respelled with
  | rel parts others step => exact step.said_perm read
  | refl parts => exact .refl _
  | symm parts others _ ih => exact ih.symm
  | trans parts middle others _ _ first second => exact first.trans second

/-- A value that is given once is the same in any order. -/
theorem said_eq {parts others : List (List Char)}
    (respelled : Relation.EqvGen Respelled parts others) {key : String} (read : key ∈ readKeys)
    (once : (said key parts).length ≤ 1) : said key parts = said key others := by
  have perm := said_perm respelled read
  match values : said key parts, once with
  | [], _ =>
    rw [values] at perm
    exact perm.nil_eq
  | [value], _ =>
    rw [values] at perm
    exact List.singleton_perm.mp perm

/-- What is read of a display name are the values of the three keys: the last that count of those
    that are given for a key, none of which may be unreadable. If no key is given twice, then the
    order of the parts, the blanks at them and the parts that say nothing do not matter. -/
theorem layout_ignored {name : List Char} {parts : List (List Char)} (name_free : ',' ∉ name)
    (parts_free : ∀ part ∈ parts, ',' ∉ part) :
    (∀ request, parse (spell name parts) = .ok request ↔
      trim name ≠ [] ∧ IsValid parts ∧ asked (String.ofList (trim name)) parts = request) ∧
    ((∀ key ∈ readKeys, (said key parts).length ≤ 1) →
      ∀ before after others, IsGap before → IsGap after →
        Relation.EqvGen Respelled parts others → (∀ other ∈ others, ',' ∉ other) →
          ∀ request, parse (spell (before ++ name ++ after) others) = .ok request ↔
            parse (spell name parts) = .ok request) := by
  have meaning := parse_spell_eq_ok name_free parts_free
  refine ⟨meaning, ?_⟩
  intro once before after others before_blank after_blank respelled others_free request
  have same : ∀ key ∈ readKeys, said key parts = said key others := fun key read =>
    said_eq respelled read (once key read)
  have whole_free : ',' ∉ before ++ name ++ after :=
    notMem_padded before_blank after_blank (by decide) name_free
  have same_name : trim (before ++ name ++ after) = trim name :=
    trim_padded before_blank after_blank name
  have valid : IsValid others ↔ IsValid parts :=
    ⟨fun valid => valid.congr fun key read => (same key read).symm, fun valid => valid.congr same⟩
  rw [meaning, parse_spell_eq_ok whole_free others_free, same_name, valid, asked_congr _ same]

theorem shuffled_parts_read :
    let parts := ["Version=1.2".toList, "PublicKeyToken=AB".toList]
    let others := ["Custom=null".toList, "\tPublicKeyToken = AB ".toList, "Version=1.2".toList]
    let request : Request :=
      { name := "Lib", version := some ⟨1, 2, 0, 0⟩, token := some ⟨[0xAB]⟩ }
    parse (spell "Lib".toList parts) = .ok request ∧
      parse (spell " Lib ".toList others) = .ok request := by
  intro parts others request
  have read : parse (spell "Lib".toList parts) = .ok request := by decide +kernel
  have turned : Respelled parts parts.reverse := .reordered (List.reverse_perm parts).symm
  have tab : IsGap ['\t'] := by decide
  have space : IsGap [' '] := by decide
  have moved : Padded "PublicKeyToken=AB".toList "\tPublicKeyToken = AB ".toList :=
    @Padded.keyed ['\t'] "PublicKeyToken".toList [' '] [' '] "AB".toList [' '] tab space space space
      (by decide)
  have padded : Respelled parts.reverse others.tail := .padded [] ["Version=1.2".toList] moved
  have widened : Respelled others.tail others := .silent [] others.tail (by decide)
  have respelled : Relation.EqvGen Respelled parts others :=
    .trans _ _ _ (.rel _ _ turned) (.trans _ _ _ (.rel _ _ padded) (.rel _ _ widened))
  have law := @layout_ignored "Lib".toList parts (by decide) (by decide)
  exact ⟨read, (law.2 (by decide) [' '] [' '] others space space respelled (by decide)
    request).mpr read⟩

end Managed.Request
