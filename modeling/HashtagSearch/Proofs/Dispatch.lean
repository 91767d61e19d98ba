import HashtagSearch.Proofs.Flat.Reading
import HashtagSearch.Proofs.Text.Parts

/-!
# Single conditions and the colon

A text without groups and joins goes to the reader of single conditions or to that of the
shorthand `#column:value`, depending on whether there is a colon anywhere in it. Since a
condition may have a colon in its value, the two readers do not part the texts between them:
what is typed for such a condition is sent to the shorthand, which does not know it.
-/

namespace HashtagSearch

open Text

variable {catalog : Catalog} {defaultColumn : Option Column} {t name g rest : Text}
  {c : Condition}

/-! ## The word at the start -/

theorem Condition.exists_value_of_ofText? (h : ofText? defaultColumn catalog t = some c) :
    ∃ v, (Segment.ofText (Confirmation.strip t)).value? = some v := by
  unfold ofText? at h
  split at h
  · next hs => exact ⟨_, by rw [hs]; rfl⟩
  · next hs => exact ⟨_, by rw [hs]; rfl⟩
  · cases h

/-- What is read as a condition starts with a word that has a `#` and a gap behind it. -/
theorem Condition.exists_tag_of_ofText? (h : ofText? defaultColumn catalog t = some c) :
    ∃ name g rest, Segment.IsName name ∧ Segment.IsGap g ∧
      trim t = '#' :: name ++ (g ++ rest) := by
  obtain ⟨v, hv⟩ := exists_value_of_ofText? h
  obtain ⟨name, g, rest, hname, hgap, -, hstrip, -⟩ := Segment.exists_afterColumn hv
  obtain ⟨marks, hmarks⟩ := Confirmation.strip_isPrefix t
  refine ⟨name, g, rest ++ marks, hname, hgap, ?_⟩
  rw [← hmarks, hstrip, List.append_assoc, List.append_assoc]

theorem Segment.head?_words_tag (hname : IsName name) (hgap : IsGap g) (rest : Text) :
    (words ('#' :: name ++ (g ++ rest))).head? = some ('#' :: name) := by
  obtain ⟨b, g, rfl⟩ := List.exists_cons_of_ne_nil hgap.1
  have hb : isBlank b = true := hgap.2 b List.mem_cons_self
  have hwords : words ('#' :: name ++ b :: (g ++ rest)) = ('#' :: name) :: words (g ++ rest) := by
    rw [words_append_blank hb, words_of_no_blank (List.cons_ne_nil '#' name) hname.no_blank]
    rfl
  exact congrArg List.head? hwords

theorem Segment.head?_words_of_prefix {s : Text} (hname : IsName name) (hgap : IsGap g)
    (hs : trim s = '#' :: name ++ (g ++ rest)) (hp : s <+: t) :
    (words t).head? = some ('#' :: name) := by
  obtain ⟨more, rfl⟩ := hp
  obtain ⟨blanks, hblanks⟩ := trimEnd_isPrefix (trimStart s)
  have hne : trim s ≠ [] := by simp [hs]
  have ht : trimStart (s ++ more) = '#' :: name ++ (g ++ (rest ++ (blanks ++ more))) := by
    rw [trimStart_append (trimStart_ne_nil hne), ← hblanks, ← trim, hs]
    simp only [List.append_assoc]
  rw [← words_trimStart, ht, head?_words_tag hname hgap]

/-! ## The shorthand -/

theorem Shorthand.isFieldChar_of_name (hname : Segment.IsName name) (hcolon : ':' ∉ name) :
    ∀ x ∈ name, isFieldChar x = true := by
  intro x hx
  have hne : x ≠ ':' := fun heq => hcolon (heq ▸ hx)
  simp [isFieldChar, hname.2 x hx, hne]

theorem Shorthand.parts?_tag (hname : Segment.IsName name) (hcolon : ':' ∉ name)
    (hgap : Segment.IsGap g) (rest : Text) : parts? ('#' :: name ++ (g ++ rest)) = none := by
  have hfield := isFieldChar_of_name hname hcolon
  obtain ⟨b, g, rfl⟩ := List.exists_cons_of_ne_nil hgap.1
  have hb : isBlank b = true := hgap.2 b List.mem_cons_self
  have hend : isFieldChar b = false := by
    rw [isFieldChar, Segment.isNameChar_of_isBlank hb, Bool.false_and]
  have hdrop : (name ++ (b :: g ++ rest)).dropWhile isFieldChar = b :: g ++ rest := by
    rw [List.dropWhile_append_of_pos hfield, List.cons_append]
    exact List.dropWhile_cons_of_neg (by simp [hend])
  rw [List.cons_append, parts?, hdrop]
  split
  · next heq =>
    obtain ⟨rfl, -⟩ := List.cons.inj heq
    exact absurd hb (by decide)
  · rfl

/-- A text that is read as a condition is no shorthand if no colon is in its first word. -/
theorem Shorthand.read?_eq_none_of_condition
    (hread : Condition.ofText? defaultColumn catalog t = some c)
    (hword : ∀ w ∈ (words t).head?, ':' ∉ w) : read? catalog t = none := by
  obtain ⟨name, g, rest, hname, hgap, ht⟩ := Condition.exists_tag_of_ofText? hread
  have hcolon : ':' ∉ name := by
    rw [← words_trim, ht, Segment.head?_words_tag hname hgap] at hword
    exact fun hx => hword _ rfl (List.mem_cons_of_mem '#' hx)
  rw [read?, ht, parts?_tag hname hcolon hgap]
  rfl

/-! ## Dispatch -/

namespace Outcome

theorem ofText_of_colon (hhash : (trim t).head? = some '#') (hgroup : Ungrouped (trim t))
    (hcount : countJoins t = 0) (hword : ∀ w ∈ (words t).head?, ':' ∉ w) (hcolon : ':' ∈ trim t)
    (hread : Condition.ofText? defaultColumn catalog t = some c) :
    ofText catalog defaultColumn t = .unresolved := by
  obtain ⟨r, hr⟩ := List.head?_eq_some_iff.1 hhash
  have hform : Confirmation.isConditionForm t = false := by
    have hne : trim t ≠ ['#'] := by
      intro h
      rw [h] at hcolon
      exact absurd hcolon (by decide)
    simp [Confirmation.isConditionForm, hne, hcolon]
  rw [ofText_of_trim hr, ofTagged, hgroup, if_neg Bool.false_ne_true, if_neg (not_not.2 hcount),
    hform, if_neg Bool.false_ne_true, Shorthand.read?_eq_none_of_condition hread hword]
  rfl

/-- A text without groups and joins that is read as a condition gives the filter with that
condition, unless it holds a colon: then it is unresolved. -/
theorem ofText_eq_single_unless_colon (hhash : (trim t).head? = some '#')
    (hgroup : Ungrouped (trim t)) (hcount : countJoins t = 0)
    (hword : ∀ w ∈ (words t).head?, ':' ∉ w)
    (hread : Condition.ofText? defaultColumn catalog t = some c) :
    ofText catalog defaultColumn t =
      if ':' ∈ trim t then .unresolved else .filter (Filter.single c) := by
  by_cases hcolon : ':' ∈ trim t
  · rw [if_pos hcolon]
    exact ofText_of_colon hhash hgroup hcount hword hcolon hread
  · rw [if_neg hcolon]
    exact ofText_of_condition hhash hgroup hcount hcolon hread

/-- The column is left out, the value is a range with a hyphen, and both marks stand at the
end. -/
theorem ofText_eq_single_unless_colon_continued :
    (trim " #inRange 5-9 ## #".toList).head? = some '#' ∧
    Ungrouped (trim " #inRange 5-9 ## #".toList) ∧
    countJoins " #inRange 5-9 ## #".toList = 0 ∧
    (∀ w ∈ (words " #inRange 5-9 ## #".toList).head?, ':' ∉ w) ∧
    Condition.ofText? (some ⟨"price".toList, [], true, .number⟩) [] " #inRange 5-9 ## #".toList =
      some (.on ⟨"price".toList, [], true, .number⟩ .inRange "5".toList (some "9".toList)) ∧
    ofText [] (some ⟨"price".toList, [], true, .number⟩) " #inRange 5-9 ## #".toList =
      .filter (Filter.single
        (.on ⟨"price".toList, [], true, .number⟩ .inRange "5".toList (some "9".toList))) := by
  have hhash : (trim " #inRange 5-9 ## #".toList).head? = some '#' := by decide
  have hgroup : Ungrouped (trim " #inRange 5-9 ## #".toList) := by rfl
  have hcount : countJoins " #inRange 5-9 ## #".toList = 0 := by decide +kernel
  have hword : ∀ w ∈ (words " #inRange 5-9 ## #".toList).head?, ':' ∉ w := by decide
  have hread : Condition.ofText? (some ⟨"price".toList, [], true, .number⟩) []
      " #inRange 5-9 ## #".toList = some (.on ⟨"price".toList, [], true, .number⟩ .inRange
        "5".toList (some "9".toList)) := by decide +kernel
  have hcases := ofText_eq_single_unless_colon hhash hgroup hcount hword hread
  rw [if_neg (by decide)] at hcases
  exact ⟨hhash, hgroup, hcount, hword, hread, hcases⟩

/-- A time of day is a value that is read as a condition and lost. -/
theorem exists_lost_condition :
    (trim "#time #equals 10:30##".toList).head? = some '#' ∧
    Ungrouped (trim "#time #equals 10:30##".toList) ∧
    countJoins "#time #equals 10:30##".toList = 0 ∧
    (∀ w ∈ (words "#time #equals 10:30##".toList).head?, ':' ∉ w) ∧
    Condition.ofText? none [⟨"time".toList, [], true, .text⟩] "#time #equals 10:30##".toList =
      some (.on ⟨"time".toList, [], true, .text⟩ .equals "10:30".toList) ∧
    ofText [⟨"time".toList, [], true, .text⟩] none "#time #equals 10:30##".toList ≠
      .filter (Filter.single (.on ⟨"time".toList, [], true, .text⟩ .equals "10:30".toList)) := by
  have hhash : (trim "#time #equals 10:30##".toList).head? = some '#' := by decide
  have hgroup : Ungrouped (trim "#time #equals 10:30##".toList) := by rfl
  have hcount : countJoins "#time #equals 10:30##".toList = 0 := by decide +kernel
  have hword : ∀ w ∈ (words "#time #equals 10:30##".toList).head?, ':' ∉ w := by decide
  have hread : Condition.ofText? none [⟨"time".toList, [], true, .text⟩]
      "#time #equals 10:30##".toList =
        some (.on ⟨"time".toList, [], true, .text⟩ .equals "10:30".toList) := by decide +kernel
  refine ⟨hhash, hgroup, hcount, hword, hread, ?_⟩
  rw [ofText_of_colon hhash hgroup hcount hword (by decide) hread]
  nofun

end Outcome

end HashtagSearch
