import HashtagSearch.Proofs.Dispatch
import HashtagSearch.Proofs.Filters.Tags

/-!
# A tag that is still being typed

When a further word with a `#` is typed behind a condition, it may become a join, an operator
or the mark of a range. Until then the text is applied on no way through the dispatch: it is
not confirmed, it is no condition as the tag is in the value, and it is no shorthand as the
first word has no colon.
-/

namespace HashtagSearch

open Text

variable {catalog : Catalog} {defaultColumn : Option Column} {c : Condition} {t w : Text}

/-- The text with one more tag at its end. -/
def Text.withTag (t w : Text) : Text := t ++ ' ' :: '#' :: w

/-! ## The end of the text -/

theorem Segment.IsName.exists_last (hw : Segment.IsName w) :
    ∃ r x, w = r ++ [x] ∧ isBlank x = false ∧ x ≠ '#' := by
  obtain ⟨r, x, rfl⟩ := List.eq_nil_or_concat w |>.resolve_left hw.1
  have hx : Token.isNameChar x = true := hw.2 x (by simp)
  simp only [Token.isNameChar, Bool.and_eq_true, Bool.not_eq_true', bne_iff_ne] at hx
  exact ⟨r, x, List.concat_eq_append, hx⟩

theorem Text.exists_last_withTag (hw : Segment.IsName w) (t : Text) :
    ∃ r x, withTag t w = r ++ [x] ∧ isBlank x = false ∧ x ≠ '#' := by
  obtain ⟨r, x, rfl, hx⟩ := hw.exists_last
  exact ⟨t ++ ' ' :: '#' :: r, x, by simp [withTag], hx⟩

theorem Text.solidStart_of_hash (ht : t.head? = some '#') : SolidStart t := by
  obtain ⟨r, rfl⟩ := List.head?_eq_some_iff.1 ht
  exact ⟨'#', r, rfl, by decide⟩

theorem Text.solidStart_withTag (ht : t.head? = some '#') (w : Text) : SolidStart (withTag t w) := by
  obtain ⟨r, rfl⟩ := List.head?_eq_some_iff.1 ht
  exact ⟨'#', _, rfl, by decide⟩

theorem Text.trim_withTag (ht : t.head? = some '#') (hw : Segment.IsName w) :
    trim (withTag t w) = withTag t w := by
  obtain ⟨r, x, hr, hx, -⟩ := exists_last_withTag hw t
  exact trim_of_solid (solidStart_withTag ht w) ⟨r, x, hr, hx⟩

namespace Confirmation

theorem strip_withTag (ht : t.head? = some '#') (hw : Segment.IsName w) :
    strip (withTag t w) = withTag t w := by
  obtain ⟨r, x, hr, hb, hx⟩ := exists_last_withTag hw t
  have hstart := solidStart_withTag ht w
  rw [hr] at hstart ⊢
  exact strip_of_end hstart hb hx

theorem isConfirmed_withTag (hw : Segment.IsName w) (t : Text) :
    isConfirmed (withTag t w) = false := by
  obtain ⟨r, x, hr, hb, hx⟩ := exists_last_withTag hw t
  rw [isConfirmed, hr, trimEnd_of_solidEnd ⟨r, x, rfl, hb⟩, ← Bool.not_eq_true,
    List.isSuffixOf_iff_suffix]
  exact IsMark.not_suffix (.inr rfl) hx r

/-- The tag is found in a value, unless it is the mark of the range that the value is. -/
theorem holdsTag_withTag (hw : Segment.IsName w) {inRange : Bool}
    (hto : inRange = true → sameIgnoringCase w "to".toList = false) (v : Text) :
    holdsTag (withTag v w) inRange = true := by
  have hmark : (inRange && sameIgnoringCase ('#' :: w) "#to".toList) = false := by
    cases inRange with
    | false => rfl
    | true => simpa [sameIgnoringCase] using hto rfl
  have htag : holdsTag ('#' :: w) inRange = true := by
    rw [holdsTag, words_of_no_blank (List.cons_ne_nil '#' w) hw.no_blank]
    simp only [List.any_cons, List.any_nil, List.head?_cons, hmark]
    rfl
  rw [withTag, holdsTag_append_blank (by decide), htag, Bool.or_true]

theorem holdsTag_trim (v : Text) (inRange : Bool) :
    holdsTag (trim v) inRange = holdsTag v inRange := by
  rw [holdsTag, words_trim, ← holdsTag]

end Confirmation

/-! ## The readers -/

theorem Condition.ofValue?_withTag (hw : Segment.IsName w) {operator : Operator}
    (hto : operator = .inRange → sameIgnoringCase w "to".toList = false) (column : Column)
    (v : Text) : ofValue? column operator (withTag v w) = none := by
  have htag : Confirmation.holdsTag (trim (withTag v w)) operator.isRange = true := by
    rw [Confirmation.holdsTag_trim]
    exact Confirmation.holdsTag_withTag hw (fun h => hto (Operator.isRange_iff.1 h)) v
  rw [ofValue?, ofTrimmed?, htag, Bool.or_true, if_pos rfl]

theorem Condition.operator_of_ofValue? {column : Column} {operator : Operator} {v : Text}
    (h : ofValue? column operator v = some c) : c.operator = operator := by
  obtain ⟨-, hread⟩ := read_of_ofTrimmed? h
  cases hread <;> rfl

/-- The tag is in the value of the condition, or marks in front of it run over several lines. -/
theorem Condition.ofText?_withTag (ht : t.head? = some '#')
    (hread : ofText? defaultColumn catalog t = some c) (hw : Segment.IsName w)
    (hto : c.operator = .inRange → sameIgnoringCase w "to".toList = false) :
    ofText? defaultColumn catalog (withTag t w) = none := by
  have hstart : SolidStart t := solidStart_of_hash ht
  obtain ⟨marks, hmarks⟩ : Confirmation.strip t <+: t := by
    have hp := Confirmation.strip_isPrefix t
    rw [trim_of_solidStart hstart] at hp
    exact hp.trans (trimEnd_isPrefix t)
  obtain ⟨v, hv⟩ : ∃ v, (Segment.ofText (Confirmation.strip t)).value? = some v :=
    exists_value_of_ofText? hread
  obtain ⟨front, -, hfront, hfits, hall⟩ := Segment.exists_front hv
  have hvalue : ValueStart (withTag (v ++ marks) w) := by
    obtain ⟨x, r, rfl, hx⟩ := hfits.start
    exact ⟨x, _, rfl, hx⟩
  have hsplit : withTag t w = front ++ withTag (v ++ marks) w := by
    rw [← hmarks, hfront]
    simp only [withTag, List.append_assoc]
  have hshape := hall _ hvalue
  rw [← hsplit] at hshape
  rw [ofText?, Confirmation.strip_withTag ht hw, hshape]
  by_cases hline : '\n' ∈ withTag (v ++ marks) w
  · rw [if_pos hline]
  · rw [if_neg hline]
    unfold ofText? at hread
    cases hs : Segment.ofText (Confirmation.strip t) with
    | explicit column operator value =>
      simp only [hs] at hread
      obtain ⟨⟨k, o⟩, hresolve, hc⟩ := Option.bind_eq_some_iff.1 hread
      have ho : o = .inRange → sameIgnoringCase w "to".toList = false :=
        fun h => hto ((operator_of_ofValue? hc).trans h)
      simp only [Segment.withValue, hresolve, Option.bind_some, ofValue?_withTag hw ho]
    | continued operator value =>
      simp only [hs] at hread
      obtain ⟨k, hk, hread⟩ := Option.bind_eq_some_iff.1 hread
      obtain ⟨o, hresolve, hc⟩ := Option.bind_eq_some_iff.1 hread
      have ho : o = .inRange → sameIgnoringCase w "to".toList = false :=
        fun h => hto ((operator_of_ofValue? hc).trans h)
      simp only [Segment.withValue, hk, hresolve, Option.bind_some, ofValue?_withTag hw ho]
    | _ => simp [hs] at hread

/-- No colon stands behind the first word, wherever another one may be. -/
theorem Shorthand.read?_withTag (ht : t.head? = some '#') (hcolon : ':' ∉ t)
    (hread : Condition.ofText? defaultColumn catalog t = some c) (hw : Segment.IsName w) :
    read? catalog (withTag t w) = none := by
  have hstart : SolidStart t := solidStart_of_hash ht
  obtain ⟨name, g, rest, hname, hgap, htrim⟩ := Condition.exists_tag_of_ofText? hread
  obtain ⟨blanks, hblanks⟩ : trim t <+: t := by
    rw [trim_of_solidStart hstart]
    exact trimEnd_isPrefix t
  have hnone : ':' ∉ name := by
    intro hx
    have hmem : ':' ∈ trim t := by simp [htrim, hx]
    exact hcolon (mem_of_mem_trim hmem)
  have hsplit : withTag t w = '#' :: name ++ (g ++ (rest ++ blanks ++ ' ' :: '#' :: w)) := by
    rw [withTag, ← hblanks, htrim]
    simp only [List.append_assoc]
  rw [read?, trim_withTag ht hw, hsplit, parts?_tag hname hnone hgap]
  rfl

/-! ## Dispatch -/

namespace Outcome

theorem ofState?_ne_filter (s : Option TypingState) (f : Filter) : ofState? s ≠ .filter f := by
  cases s <;> simp [ofState?]

/-- A condition with a further tag behind it is no filter to apply, whatever the tag becomes;
only `#to` behind a range would be a part of the condition. -/
theorem ofText_withTag_ne_filter (ht : t.head? = some '#') (hcolon : ':' ∉ t)
    (hread : Condition.ofText? defaultColumn catalog t = some c) (hw : Segment.IsName w)
    (hto : c.operator = .inRange → sameIgnoringCase w "to".toList = false) (f : Filter) :
    ofText catalog defaultColumn (withTag t w) ≠ .filter f := by
  have htrim : ∃ r, trim (withTag t w) = '#' :: r := by
    rw [trim_withTag ht hw]
    obtain ⟨r, rfl⟩ := List.head?_eq_some_iff.1 ht
    exact ⟨_, rfl⟩
  obtain ⟨r, hr⟩ := htrim
  have hconfirmed := Confirmation.isConfirmed_withTag hw t
  rw [ofText_of_trim hr, ofTagged]
  split
  · have hgroup : Grouped.read? catalog (withTag t w) = none := by
      rw [Grouped.read?, hconfirmed, Bool.and_false, if_neg Bool.false_ne_true]
    rw [hgroup]
    simp [ofFilter?]
  · split
    · rw [hconfirmed, if_neg Bool.false_ne_true]
      exact ofState?_ne_filter _ f
    · split
      · rw [Condition.ofText?_withTag ht hread hw hto]
        simp [ofFilter?]
      · rw [Shorthand.read?_withTag ht hcolon hread hw]
        simp [ofFilter?]

/-- Both marks stand behind the range, and the colon in the tag sends the text to the shorthand. -/
theorem ofText_withTag_ne_filter_range :
    "#price #inRange 5-9 ## #".toList.head? = some '#' ∧ ':' ∉ "#price #inRange 5-9 ## #".toList ∧
    Condition.ofText? none [⟨"price".toList, [], true, .number⟩]
        "#price #inRange 5-9 ## #".toList =
      some (.on ⟨"price".toList, [], true, .number⟩ .inRange "5".toList (some "9".toList)) ∧
    Segment.IsName "an:d".toList ∧ sameIgnoringCase "an:d".toList "to".toList = false ∧
    ∀ f, ofText [⟨"price".toList, [], true, .number⟩] none
      "#price #inRange 5-9 ## # #an:d".toList ≠ .filter f := by
  have hread : Condition.ofText? none [⟨"price".toList, [], true, .number⟩]
      "#price #inRange 5-9 ## #".toList = some (.on ⟨"price".toList, [], true, .number⟩ .inRange
        "5".toList (some "9".toList)) := by decide +kernel
  have hname : Segment.IsName "an:d".toList := ⟨by decide, List.all_eq_true.1 (by decide)⟩
  have hto : sameIgnoringCase "an:d".toList "to".toList = false := by decide
  exact ⟨by decide, by decide, hread, hname, hto,
    ofText_withTag_ne_filter (by decide) (by decide) hread hname fun _ => hto⟩

end Outcome

end HashtagSearch
