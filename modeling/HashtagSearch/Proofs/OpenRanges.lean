import HashtagSearch.Proofs.Flat.Writing
import HashtagSearch.Proofs.Typing.Valuing
import HashtagSearch.Proofs.Values.Ends

/-!
# Ranges that are open at their end

Behind the low end of a range and the mark the high end may still be missing. While it is typed,
such a range has its low end for value and waits for the other one. The reader of finished
conditions does not look for an open end: to it the low end and the mark are one value.
-/

namespace HashtagSearch

open Text

/-! ## The low end with the mark behind it -/

namespace ValueRange

variable {v e : Text}

/-- The low end of a range and the mark, with nothing behind them. -/
def displayOpen (low : Text) : Text := low ++ " #to".toList

theorem solidEnd_displayOpen (v : Text) : SolidEnd (displayOpen v) :=
  SolidEnd.append ⟨" #t".toList, 'o', rfl, by decide⟩ v

theorem fitsValue_displayOpen (hv : Plain v) : Segment.FitsValue (displayOpen v) := by
  obtain ⟨c, r, rfl, hblank, hne⟩ := hv.valueStart
  exact ⟨⟨c, _, rfl, hblank, hne⟩, by simpa [displayOpen] using hv.one_line⟩

theorem trim_displayOpen (hv : Plain v) : trim (displayOpen v) = displayOpen v :=
  trim_of_solid (hv.solid.1.append _) (solidEnd_displayOpen v)

theorem strip_displayOpen (hv : Plain v) :
    Confirmation.strip (displayOpen v) = displayOpen v := by
  have hsplit : displayOpen v = (v ++ " #t".toList) ++ ['o'] := by simp [displayOpen]
  have hstart : SolidStart (displayOpen v) := hv.solid.1.append _
  rw [hsplit] at hstart ⊢
  exact Confirmation.strip_of_end hstart (by decide) (by decide)

theorem displayOpen_append (hv : Plain v) (he : e = [] ∨ e = Confirmation.mark) :
    Segment.FitsValue (displayOpen v ++ e) ∧ SolidEnd (displayOpen v ++ e) ∧
      Confirmation.strip (displayOpen v ++ e) = displayOpen v := by
  rcases he with rfl | rfl
  · rw [List.append_nil]
    exact ⟨fitsValue_displayOpen hv, solidEnd_displayOpen v, strip_displayOpen hv⟩
  · refine ⟨(fitsValue_displayOpen hv).append_mark, Confirmation.solidEnd_append_mark _, ?_⟩
    rw [Confirmation.strip_append_mark, trim_displayOpen hv]

theorem holdsTag_displayOpen (hv : Plain v) :
    Confirmation.holdsTag (displayOpen v) true = false := by
  have hmark : Confirmation.holdsTag "#to".toList true = false := by decide
  have hsplit : displayOpen v = v ++ ' ' :: "#to".toList := rfl
  rw [hsplit, Confirmation.holdsTag_append_blank (by decide),
    Confirmation.holdsTag_of_no_hash hv.no_hash, hmark]
  rfl

theorem splitAtMark?_displayOpen (hv : Plain v) :
    splitAtMark? [] (displayOpen v) = some (v ++ [' '], []) := by
  have hcut := splitAtMark?_mark hv (show Option.all isBlank (List.head? []) = true from rfl)
    List.not_mem_nil
  rwa [List.append_nil] at hcut

/-- There is nothing behind the mark, and no hyphen to cut at instead. -/
theorem read?_displayOpen (hv : Plain v) (hhyphen : '-' ∉ v.tail) (confirmed : Bool) :
    read? (displayOpen v) confirmed = none := by
  obtain ⟨c, r, rfl⟩ := List.exists_cons_of_ne_nil hv.ne_nil
  have htail : '-' ∉ (displayOpen (c :: r)).tail := by simpa [displayOpen] using hhyphen
  have hends : ofEnds? (c :: r ++ [' '], []) = none := by simp [ofEnds?, trim, trimStart, trimEnd]
  rw [read?, trim_displayOpen hv, splitAtMark?_displayOpen hv, splitAtHyphen?_eq_none htail,
    Option.bind_some, hends, Option.bind_none, ite_self]
  rfl

theorem openEnd?_displayOpen (hv : Plain v) : openEnd? (displayOpen v) = some v := by
  have hdrop : dropWord? "#to".toList.reverse (displayOpen v).reverse =
      some (v ++ [' ']).reverse := by
    simp [displayOpen, dropWord?]
  rw [openEnd?, trim_displayOpen hv, hdrop]
  simp [hv.trimEnd_append_space, hv.ne_nil, hv.one_line]

end ValueRange

/-! ## Drafts -/

namespace Draft

variable {catalog : Catalog} {base running column : Column} {v e : Text}

/-- The draft of a range with its low end, to which the high end is still missing. -/
def waiting (column : Column) (low : Text) : Draft :=
  { valued column .inRange low with waitingForValueTo := true }

theorem ofValue_displayOpen (hv : Plain v) (hhyphen : '-' ∉ v.tail)
    (he : e = [] ∨ e = Confirmation.mark) (confirmed : Bool) :
    ofValue column .inRange (ValueRange.displayOpen v ++ e) confirmed = waiting column v := by
  rw [ofValue, (ValueRange.displayOpen_append hv he).2.2, ofStripped, Operator.isRange,
    ValueRange.holdsTag_displayOpen hv, if_neg Bool.false_ne_true, if_pos rfl, ofRange,
    ValueRange.read?_displayOpen hv hhyphen, ValueRange.openEnd?_displayOpen hv]
  rfl

theorem exists_getElem?_ofSegments {triggered : Bool} {tail : List (Join × Text)} {i : Nat}
    {join : Join} {t : Text} (h : tail[i]? = some (join, t)) :
    ∃ running' confirmed, (ofSegments catalog base triggered running tail)[i]? =
      some (join, ofSegment catalog base running' confirmed (Segment.ofText (trim t))) := by
  induction tail generalizing running i with
  | nil => cases h
  | cons p rest ih =>
    cases i with
    | zero =>
      cases h
      exact ⟨running, _, rfl⟩
    | succ i => exact ih h

end Draft

/-- The draft of a whole condition is that of its column, its operator and its value, wherever
it stands in a search. -/
theorem TypingState.exists_draft {catalog : Catalog} {t y name operatorName value : Text}
    {s : TypingState} {i : Nat} {column : Column} {operator : Operator}
    (h : ofText? catalog t = some s) (hy : (Joined.ofText t).items[i]? = some y)
    (hsegment : Segment.ofText (trim y) = .explicit name operatorName value)
    (hresolve : Condition.resolve? catalog name operatorName = some (column, operator)) :
    ∃ confirmed, s.drafts.items[i]? = some (Draft.ofValue column operator value confirmed) := by
  obtain ⟨-, base, first, hfirst, rfl⟩ := ofText?_eq_some h
  rw [drafts_ofDrafts]
  cases i with
  | zero =>
    obtain rfl := Option.some.inj hy
    simp only [Draft.ofFirst?, hsegment, hresolve, Option.map_some] at hfirst
    cases hfirst
    exact ⟨true, rfl⟩
  | succ i =>
    rw [Joined.items, List.getElem?_cons_succ, List.getElem?_map] at hy
    obtain ⟨⟨join, y⟩, hp, rfl⟩ := Option.map_eq_some_iff.1 hy
    obtain ⟨running, confirmed, hdraft⟩ := Draft.exists_getElem?_ofSegments hp
    refine ⟨confirmed, ?_⟩
    rw [Joined.items, List.getElem?_cons_succ, List.getElem?_map, hdraft, Option.map_some,
      hsegment]
    simp only [Draft.ofSegment, hresolve]

/-! ## Both readers -/

/-- What is typed for a range with a low end only is read as one value by the reader of finished
conditions, the mark included. In every search that is being typed it is a draft with the low
end for value that waits for the high one. -/
theorem Condition.ofText?_displayOpen {catalog : Catalog} {column : Column} {v e : Text}
    (hresolve : catalog.resolve? column.field = some column)
    (hname : Segment.IsName column.field)
    (ho : Operator.inRange.supports column.valueType = true)
    (hv : Plain v) (hhyphen : '-' ∉ v.tail) (he : e = [] ∨ e = Confirmation.mark) :
    (∀ defaultColumn, ofText? defaultColumn catalog
        (on column .inRange (ValueRange.displayOpen v ++ e)).display =
      some (.on column .inRange (ValueRange.displayOpen v))) ∧
    ∀ (t : Text) (s : TypingState) (i : Nat) (y : Text),
      TypingState.ofText? catalog t = some s → (Joined.ofText t).items[i]? = some y →
      trim y = (on column .inRange (ValueRange.displayOpen v ++ e)).display →
      s.drafts.items[i]? = some (Draft.waiting column v) := by
  obtain ⟨hfits, hend, hstrip⟩ := ValueRange.displayOpen_append hv he
  constructor
  · intro defaultColumn
    have hne : ValueRange.displayOpen v ≠ [] := by simp [ValueRange.displayOpen]
    have htag : Confirmation.holdsTag (ValueRange.displayOpen v) Operator.inRange.isRange =
        false := ValueRange.holdsTag_displayOpen hv
    rw [ofText?_display_on hresolve hname ho hfits hend, hstrip,
      ofTrimmed?_of_whole hne htag fun _ => ValueRange.read?_displayOpen hv hhyphen true]
  · intro t s i y hs hy hyt
    have hsegment : Segment.ofText (trim y) = .explicit column.field
        Operator.inRange.name.toList (ValueRange.displayOpen v ++ e) := by
      rw [hyt, ofText_display_on hname hfits]
    obtain ⟨confirmed, hdraft⟩ := TypingState.exists_draft hs hy hsegment
      (resolve?_field hresolve ho)
    rw [hdraft, Draft.ofValue_displayOpen hv hhyphen he]

/-- The high end is missing in a confirmed condition and in one in the midst of a search. -/
theorem Condition.ofText?_displayOpen_price : ∃ s,
    Catalog.resolve? [⟨"price".toList, [], true, .number⟩] "price".toList =
      some ⟨"price".toList, [], true, .number⟩ ∧
    Segment.IsName "price".toList ∧ Plain "-500".toList ∧ '-' ∉ "-500".toList.tail ∧
    ofText? none [⟨"price".toList, [], true, .number⟩] "#price #inRange -500 #to##".toList =
      some (.on ⟨"price".toList, [], true, .number⟩ .inRange "-500 #to".toList) ∧
    TypingState.ofText? [⟨"price".toList, [], true, .number⟩]
      "#price #gt 3 #or  #price #inRange -500 #to## #and #lt 9".toList = some s ∧
    s.drafts.items[1]? = some (Draft.waiting ⟨"price".toList, [], true, .number⟩ "-500".toList) := by
  have hresolve : Catalog.resolve? [⟨"price".toList, [], true, .number⟩]
      (Column.field ⟨"price".toList, [], true, .number⟩) =
        some ⟨"price".toList, [], true, .number⟩ := by decide +kernel
  have hname : Segment.IsName (Column.field ⟨"price".toList, [], true, .number⟩) :=
    ⟨by decide, List.all_eq_true.1 (by decide)⟩
  have hv : Plain "-500".toList := by decide
  have hhyphen : '-' ∉ "-500".toList.tail := by decide
  obtain ⟨s, hs⟩ := Option.isSome_iff_exists.1
    (show (TypingState.ofText? [⟨"price".toList, [], true, .number⟩]
      "#price #gt 3 #or  #price #inRange -500 #to## #and #lt 9".toList).isSome = true by
        decide +kernel)
  obtain ⟨hread, hdraft⟩ := ofText?_displayOpen hresolve hname (by decide) hv hhyphen (.inr rfl)
  exact ⟨s, hresolve, hname, hv, hhyphen, hread none, hs,
    hdraft _ s 1 _ hs (by decide +kernel : _ = some "  #price #inRange -500 #to##".toList)
      (by decide +kernel)⟩

/-- The low end alone is the value of the draft, and not that of the condition. -/
theorem Condition.exists_value_with_mark :
    ofText? none [⟨"price".toList, [], true, .number⟩] "#price #inRange 500 #to##".toList ≠
      some (.on ⟨"price".toList, [], true, .number⟩ .inRange "500".toList) ∧
    ((TypingState.ofText? [⟨"price".toList, [], true, .number⟩]
      "#price #gt 3 #or #price #inRange 500 #to".toList).map (·.drafts.last.value)) =
        some (some "500".toList) := by
  decide +kernel

end HashtagSearch
