import HashtagSearch.Pattern
import HashtagSearch.Proofs.Dispatch
import HashtagSearch.Proofs.Values.Typed

/-!
# Reading a pattern back

The text that repeats a filter with another value, once it is confirmed, is read as the same
search with that value. Neither the hashes at the end of a value nor the colons in it are taken
for marks, as only the confirmation is taken off and only the first colon ends a field.
-/

namespace HashtagSearch

open Text

variable {catalog : Catalog} {column : Column} {operator : Operator} {v low : Text}
  {high : Option Text}

theorem Text.valueStart_of_no_tags (hv : Filled v) (htags : ∀ w ∈ words v, w.head? ≠ some '#') :
    ValueStart v := by
  obtain ⟨c, r, rfl, hc⟩ := (solid_of_trim_eq hv.1 hv.2).1
  refine ⟨c, r, rfl, hc, ?_⟩
  rintro rfl
  obtain ⟨r', ws, hwords⟩ := exists_words_cons hc r
  exact htags ('#' :: r') (by simp [hwords]) rfl

theorem Confirmation.holdsTag_of_no_tags (htags : ∀ w ∈ words v, w.head? ≠ some '#')
    (inRange : Bool) : holdsTag v inRange = false := by
  rw [holdsTag, List.any_eq_false]
  intro w hw
  simp [htags w hw]

/-! ## Behind an operator -/

/-- The texts that stand for the values of a condition behind its operator: one value, or both
ends of a range. -/
inductive Operator.Operand : Operator → Text → Text → Option Text → Prop
  | whole {o : Operator} {v : Text} : o ≠ .inRange → Filled v → '\n' ∉ v →
      (∀ w ∈ words v, w.head? ≠ some '#') → Operand o v v none
  | ends {low high : Text} : low.Plain → high.Plain →
      Operand .inRange (ValueRange.display ⟨low, high⟩) low (some high)
  | lowEnd {v : Text} : v.Plain → ValueRange.read? v true = none → Operand .inRange v v none

namespace Operator.Operand

theorem fitsValue (h : operator.Operand v low high) : Segment.FitsValue v := by
  cases h with
  | whole _ hv hline htags => exact ⟨valueStart_of_no_tags hv htags, hline⟩
  | ends hlow hhigh => exact ValueRange.fitsValue_display hlow hhigh
  | lowEnd hv _ => exact hv.fitsValue

theorem trim_eq (h : operator.Operand v low high) : trim v = v := by
  cases h with
  | whole _ hv _ _ => exact hv.2
  | ends hlow hhigh => exact ValueRange.trim_display hlow hhigh
  | lowEnd hv _ => exact hv.trim_eq

theorem ofTrimmed? (h : operator.Operand v low high) (column : Column) :
    Condition.ofTrimmed? column operator v = some (.on column operator low high) := by
  have hne : v ≠ [] := h.fitsValue.start.solidStart.ne_nil
  cases h with
  | whole ho _ _ htags =>
    exact Condition.ofTrimmed?_of_whole hne (Confirmation.holdsTag_of_no_tags htags _)
      fun hrange => absurd (isRange_iff.1 hrange) ho
  | ends hlow hhigh =>
    exact Condition.ofTrimmed?_of_read? (ValueRange.holdsTag_display hlow hhigh) rfl
      (ValueRange.read?_display hlow hhigh true)
  | lowEnd hv hread =>
    exact Condition.ofTrimmed?_of_whole hne (Confirmation.holdsTag_of_no_hash hv.no_hash _)
      fun _ => hread

end Operator.Operand

/-- Behind the field of a column and an operator the values are read as they were meant. -/
theorem Condition.ofText?_pattern (hresolve : catalog.resolve? column.field = some column)
    (hname : Segment.IsName column.field) (ho : operator.supports column.valueType = true)
    (hv : operator.Operand v low high) (old : Text) (oldTo : Option Text)
    (defaultColumn : Option Column) :
    ofText? defaultColumn catalog
        ((Filter.single (.on column operator old oldTo)).pattern v ++ Confirmation.mark) =
      some (.on column operator low high) := by
  have hpattern : (Filter.single (.on column operator old oldTo)).pattern v =
      (on column operator v).display := by
    simp [Filter.pattern, Filter.single, display, operand, on, hv.trim_eq]
  rw [hpattern, ofText?_display_on_mark hresolve hname ho hv.fitsValue hv.trim_eq,
    hv.ofTrimmed?]

/-! ## Behind a colon -/

namespace Shorthand

/-- The filter that the shorthand with a value stands for. -/
def search (column : Column) (v : Text) : Filter :=
  { Filter.single (.on column (Shorthand.operator column) v) with isExplicitOperator := false }

theorem parts?_field (hname : Segment.IsName column.field) (hcolon : ':' ∉ column.field)
    (hline : '\n' ∉ v) : parts? ('#' :: column.field ++ ':' :: v) = some (column.field, v) := by
  have hfield := isFieldChar_of_name hname hcolon
  have hend : isFieldChar ':' = false := by decide
  have hstop : ∀ c ∈ (':' :: v).head?, isFieldChar c = false := by simpa using hend
  obtain ⟨htake, hdrop⟩ := takeWhile_append_of_head hfield hstop
  rw [List.cons_append, parts?, hdrop]
  simp only [htake]
  simp [hname.1, hline]

theorem read?_pattern (hresolve : catalog.resolve? column.field = some column)
    (hname : Segment.IsName column.field) (hcolon : ':' ∉ column.field) (hv : Filled v)
    (hline : '\n' ∉ v) (old : Text) :
    read? catalog ((search column old).pattern v ++ Confirmation.mark) =
      some (search column v) := by
  have hpattern : (search column old).pattern v ++ Confirmation.mark =
      '#' :: column.field ++ ':' :: (v ++ Confirmation.mark) := by
    simp [Filter.pattern, search, Filter.single, Condition.on, hv.2]
  have hmark : SolidEnd (':' :: (v ++ Confirmation.mark)) :=
    Confirmation.solidEnd_append_mark (':' :: v)
  have htrim : trim ('#' :: column.field ++ ':' :: (v ++ Confirmation.mark)) =
      '#' :: column.field ++ ':' :: (v ++ Confirmation.mark) :=
    trim_of_solid ⟨'#', _, rfl, by decide⟩ (hmark.append _)
  have hstrip : Confirmation.strip (v ++ Confirmation.mark) = v := by
    rw [Confirmation.strip_append_mark, hv.2]
  have hone : '\n' ∉ v ++ Confirmation.mark := by simp [hline, Confirmation.mark]
  rw [read?, hpattern, htrim, parts?_field hname hcolon hone]
  simp [hresolve, hstrip, hv.1, search]

end Shorthand

/-! ## Both forms -/

/-- A column that its own field names is read back from the pattern of a condition with any
operand of its operator, and from that of the shorthand if there is no colon in its field. -/
theorem Filter.read_pattern_append_mark (hresolve : catalog.resolve? column.field = some column)
    (hname : Segment.IsName column.field) :
    (∀ (operator : Operator) (old v low : Text) (oldTo high : Option Text)
        (defaultColumn : Option Column), operator.supports column.valueType = true →
      operator.Operand v low high →
      Condition.ofText? defaultColumn catalog
          ((single (.on column operator old oldTo)).pattern v ++ Confirmation.mark) =
        some (.on column operator low high)) ∧
    (':' ∉ column.field → ∀ old v : Text, Filled v → '\n' ∉ v →
      Shorthand.read? catalog
          ((Shorthand.search column old).pattern v ++ Confirmation.mark) =
        some (Shorthand.search column v)) := by
  constructor
  · intro operator old v low oldTo high defaultColumn ho hv
    exact Condition.ofText?_pattern hresolve hname ho hv old oldTo defaultColumn
  · intro hcolon old v hv hline
    exact Shorthand.read?_pattern hresolve hname hcolon hv hline old

/-- The value behind the operator ends with hashes and holds a colon, as does the one behind the
colon. -/
theorem Filter.read_pattern_append_mark_hashes :
    Catalog.resolve? [⟨"tag".toList, [], true, .text⟩] "tag".toList =
      some ⟨"tag".toList, [], true, .text⟩ ∧
    Segment.IsName "tag".toList ∧
    Operator.contains.Operand "a:b c##".toList "a:b c##".toList none ∧
    Condition.ofText? none [⟨"tag".toList, [], true, .text⟩]
        ((single (.on ⟨"tag".toList, [], true, .text⟩ .contains "old".toList)).pattern
          "a:b c##".toList ++ Confirmation.mark) =
      some (.on ⟨"tag".toList, [], true, .text⟩ .contains "a:b c##".toList) ∧
    Shorthand.read? [⟨"tag".toList, [], true, .text⟩]
        ((Shorthand.search ⟨"tag".toList, [], true, .text⟩ "old".toList).pattern
          "10:30 ##".toList ++ Confirmation.mark) =
      some (Shorthand.search ⟨"tag".toList, [], true, .text⟩ "10:30 ##".toList) := by
  have hresolve : Catalog.resolve? [⟨"tag".toList, [], true, .text⟩]
      (Column.field ⟨"tag".toList, [], true, .text⟩) = some ⟨"tag".toList, [], true, .text⟩ := by
    decide +kernel
  have hname : Segment.IsName (Column.field ⟨"tag".toList, [], true, .text⟩) :=
    ⟨by decide, List.all_eq_true.1 (by decide)⟩
  have hvalue : Operator.contains.Operand "a:b c##".toList "a:b c##".toList none :=
    .whole (by decide) ⟨by decide, by decide⟩ (by decide) (by decide)
  have hboth := read_pattern_append_mark hresolve hname
  exact ⟨hresolve, hname, hvalue, hboth.1 .contains "old".toList _ _ none none none rfl hvalue,
    hboth.2 (by decide) "old".toList _ ⟨by decide, by decide⟩ (by decide)⟩

end HashtagSearch
