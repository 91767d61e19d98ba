import HashtagSearch.Proofs.Typing.Committing
import HashtagSearch.Proofs.Typing.Extending

/-!
# Typing a value

A value that is typed behind an operator changes the shape of the last segment and nothing in
front of it. Behind `#column #operator` it goes to that column and operator. An operator alone
is one of the column in use, but with a value it is one of the column of the first segment, so
there the value keeps the column only if the two are the same.
-/

namespace HashtagSearch

open Text

/-! ## Marks behind a plain value -/

namespace Text.Plain

variable {v : Text}

theorem isConfirmed_append (h : Plain v) (s : Text) :
    Confirmation.isConfirmed (s ++ v) = false := by
  rw [Confirmation.isConfirmed, trimEnd_of_solidEnd (h.solid.2.append s), ← Bool.not_eq_true,
    List.isSuffixOf_iff_suffix]
  exact h.not_suffix (.inr rfl) s

theorem isTriggered_append (h : Plain v) (s : Text) :
    Confirmation.isTriggered (s ++ v) = false := by
  have htrigger : Confirmation.trigger.isSuffixOf (s ++ v) = false := by
    rw [← Bool.not_eq_true, List.isSuffixOf_iff_suffix]
    exact h.not_suffix (.inl rfl) s
  rw [Confirmation.isTriggered, htrigger, Bool.false_and]

end Text.Plain

/-! ## The last segment -/

namespace Segment

variable {t v name column : Text}

theorem exists_gap_trim_append (h : trim t ≠ []) (hv : Plain v) :
    ∃ g, IsGap g ∧ trim (t ++ ' ' :: v) = trim t ++ (g ++ v) := by
  obtain ⟨gap, hgap, hsplit⟩ := exists_trimEnd_append (trimStart t)
  have hend : SolidEnd (trimStart t ++ ' ' :: v) := (hv.solid.2.append [' ']).append _
  refine ⟨gap ++ [' '], ⟨by simp, ?_⟩, ?_⟩
  · intro c hc
    rcases List.mem_append.1 hc with hc | hc
    · exact hgap c hc
    · exact allBlank_space c hc
  · calc trim (t ++ ' ' :: v) = trimStart t ++ ' ' :: v := by
          rw [trim, trimStart_append (trimStart_ne_nil h), trimEnd_of_solidEnd hend]
      _ = trim t ++ gap ++ ' ' :: v := by rw [trim, hsplit]
      _ = trim t ++ (gap ++ [' '] ++ v) := by
          simp only [List.append_assoc, List.singleton_append]

theorem ofText_append_of_tag (h : ofText (trim t) = .tag name) (hv : Plain v) :
    ofText (trim (t ++ ' ' :: v)) = .continued name v := by
  obtain ⟨hname, ht⟩ := exists_of_ofText_tag h
  have hne : trim t ≠ [] := by simp [ht]
  obtain ⟨g, hg, htrim⟩ := exists_gap_trim_append hne hv
  rw [htrim, ht]
  exact ofText_continued hname hg hv.fitsValue

theorem ofText_append_of_named (h : ofText (trim t) = .named column name) (hv : Plain v) :
    ofText (trim (t ++ ' ' :: v)) = .explicit column name v := by
  obtain ⟨g, hcolumn, hg, hname, ht⟩ := exists_of_ofText_named h
  have hne : trim t ≠ [] := by simp [ht]
  obtain ⟨g', hg', htrim⟩ := exists_gap_trim_append hne hv
  rw [htrim, ht, List.append_assoc, List.append_assoc]
  exact ofText_explicit hcolumn hg hname hg' hv.fitsValue

end Segment

/-! ## The last draft -/

namespace Draft

variable {catalog : Catalog} {base running c : Column} {o : Operator} {t v name column : Text}
  {confirmed : Bool}

def valued (column : Column) (operator : Operator) (value : Text) : Draft :=
  { ofOperator column operator with value := some value }

theorem ofValue_plain (hv : Plain v) : ofValue c o v false = valued c o v := by
  have htag : Confirmation.holdsTag v o.isRange = false :=
    Confirmation.holdsTag_of_no_hash hv.no_hash _
  have hvalue : (ofOperator c o).withValue v = valued c o v := by
    rw [withValue, if_neg (by simpa using hv.ne_nil)]
    rfl
  rw [ofValue, hv.strip_eq, ofStripped, htag, if_neg Bool.false_ne_true]
  split
  · rw [ofRange, ValueRange.read?_of_no_hash hv.no_hash, ValueRange.openEnd?_of_no_hash hv.no_hash]
    exact hvalue
  · exact hvalue

theorem resolve?_of_named
    (hc : (ofSegment catalog base running confirmed (.named column name)).column = some c)
    (ho : (ofSegment catalog base running confirmed (.named column name)).operator = some o) :
    Condition.resolve? catalog column name = some (c, o) := by
  simp only [ofSegment] at hc ho
  cases hr : catalog.resolve? column with
  | none => simp [hr, empty] at hc
  | some d =>
    simp only [hr] at hc ho
    obtain rfl : d = c := Option.some.inj hc
    rw [Condition.resolve?, hr, Option.bind_some, ho, Option.map_some]

theorem resolve?_of_tag
    (hc : (ofSegment catalog base running confirmed (.tag name)).column = some c)
    (ho : (ofSegment catalog base running confirmed (.tag name)).operator = some o) :
    Operator.resolve? c.valueType name = some o := by
  simp only [ofSegment] at hc ho
  cases hr : Operator.resolve? running.valueType name with
  | some o' =>
    simp only [hr] at hc ho
    obtain rfl : running = c := Option.some.inj hc
    exact hr.trans ho
  | none =>
    simp only [hr] at ho
    cases hk : catalog.resolve? name <;> simp [hk, empty, ofColumn] at ho

theorem ofSegment_append_of_named (hs : Segment.ofText (trim t) = .named column name)
    (hr : Condition.resolve? catalog column name = some (c, o)) (hv : Plain v) :
    ofSegment catalog base running false (Segment.ofText (trim (t ++ ' ' :: v))) =
      valued c o v := by
  rw [Segment.ofText_append_of_named hs hv]
  simp only [ofSegment, hr]
  exact ofValue_plain hv

theorem ofSegment_append_of_tag (hs : Segment.ofText (trim t) = .tag name) (hv : Plain v) :
    ofSegment catalog base running false (Segment.ofText (trim (t ++ ' ' :: v))) =
      (Operator.resolve? base.valueType name).elim empty (valued base · v) := by
  rw [Segment.ofText_append_of_tag hs hv]
  simp only [ofSegment]
  cases Operator.resolve? base.valueType name with
  | none => rfl
  | some o => exact ofValue_plain hv

/-- The drafts of the segments in front do not depend on the last segment, and neither does
the column in use at their end. -/
theorem exists_ofSegments_concat (catalog : Catalog) (base running : Column)
    (init : List (Join × Text)) : ∃ front running', ∀ triggered join t,
      ofSegments catalog base triggered running (init ++ [(join, t)]) =
        front ++ [(join, ofSegment catalog base running' (triggered || Confirmation.isConfirmed t)
          (Segment.ofText (trim t)))] := by
  induction init generalizing running with
  | nil => exact ⟨[], running, fun triggered join t => rfl⟩
  | cons p init ih =>
    obtain ⟨j, x⟩ := p
    -- Further segments follow, which confirms this one.
    let d := ofSegment catalog base running true (Segment.ofText (trim x))
    obtain ⟨front, running', hfront⟩ := ih (d.column.getD base)
    refine ⟨(j, d) :: front, running', fun triggered join t => ?_⟩
    have hrest : (!(init ++ [(join, t)]).isEmpty) = true := by simp
    rw [List.cons_append, ofSegments, hrest, Bool.true_or, Bool.true_or, hfront]
    rfl

end Draft

namespace Joined

/-- What is typed behind a blank goes to the last segment if there is no `#` in it. -/
theorem ofText_append_space {t v x y : Text} {init : List (Join × Text)} {join : Join}
    (ht : ofText t = ⟨x, init ++ [(join, y)]⟩) (hv : '#' ∉ v) :
    ofText (t ++ ' ' :: v) = ⟨x, init ++ [(join, y ++ ' ' :: v)]⟩ := by
  have hwhole : Whole (' ' :: v) := whole_of_no_hash (by simp [hv])
  rw [ofText_append (apart_space v), ht, hwhole, concat_append]

end Joined

/-! ## The state -/

namespace TypingState

variable {catalog : Catalog} {t v name : Text} {s : TypingState} {c : Column} {o : Operator}

/-- A plain value behind a text with joins changes the last draft only, to that of the longer
segment behind the same column in use. -/
theorem exists_last_draft (h : ofText? catalog t = some s) (hv : Plain v) :
    ∃ s' base running confirmed, ofText? catalog (t ++ ' ' :: v) = some s' ∧
      s.drafts.head.column = some base ∧ s'.drafts.joins = s.drafts.joins ∧
      s.drafts.last = Draft.ofSegment catalog base running confirmed
        (Segment.ofText (trim (Joined.ofText t).last)) ∧
      s'.drafts.items = s.drafts.items.dropLast ++ [Draft.ofSegment catalog base running false
        (Segment.ofText (trim ((Joined.ofText t).last ++ ' ' :: v)))] := by
  obtain ⟨hcount, base, first, hfirst, rfl⟩ := ofText?_eq_some h
  obtain ⟨init, join, htail⟩ := Joined.exists_init (Joined.countJoins_ne_zero_iff.1 hcount)
  have hcut' := Joined.ofText_append_space (congrArg (Joined.mk (Joined.ofText t).head) htail)
    hv.no_hash
  obtain ⟨front, running, hfront⟩ := Draft.exists_ofSegments_concat catalog base base init
  -- The longer text is still being typed.
  have hcount' : countJoins (t ++ ' ' :: v) ≠ 0 := by
    rw [Joined.countJoins_ne_zero_iff, hcut']
    simp
  have hmark : ¬ Confirmation.mark <:+ t ++ ' ' :: v := by
    rw [List.append_cons]
    exact hv.not_suffix (.inr rfl) (t ++ [' '])
  have hfirst' : Draft.ofFirst? catalog (Joined.ofText (t ++ ' ' :: v)).head =
      some (base, first) := by
    rw [hcut']
    exact hfirst
  obtain ⟨s', hs', hdrafts⟩ := exists_of_ofFirst? hcount' hmark hfirst'
  have hopen : (Confirmation.isTriggered (t ++ ' ' :: v) ||
      Confirmation.isConfirmed ((Joined.ofText t).last ++ ' ' :: v)) = false := by
    rw [List.append_cons, hv.isTriggered_append, List.append_cons, hv.isConfirmed_append]
    rfl
  rw [hcut', hfront, hopen] at hdrafts
  refine ⟨s', base, running, Confirmation.isTriggered t ||
    Confirmation.isConfirmed (Joined.ofText t).last, hs', ?_, ?_, ?_, ?_⟩
  · rw [drafts_ofDrafts]
    exact Draft.column_ofFirst? hfirst
  · rw [drafts_ofDrafts, hdrafts, htail, hfront, Joined.joins_concat, Joined.joins_concat]
  · rw [drafts_ofDrafts, htail, hfront, Joined.last_concat]
  · rw [drafts_ofDrafts, hdrafts, htail, hfront, Joined.items_concat, Joined.items_concat,
      List.dropLast_concat]

/-- A plain value behind an operator gives the last draft that value and leaves all others as
they are. The last draft keeps its column and operator if both were typed, or if its column is
that of the first one; otherwise the operator and the value go to the column of the first. -/
theorem ofText?_append_value (h : ofText? catalog t = some s)
    (hshape : (∃ column, Segment.ofText (trim (Joined.ofText t).last) = .named column name) ∨
      Segment.ofText (trim (Joined.ofText t).last) = .tag name)
    (hcolumn : s.drafts.last.column = some c) (hoperator : s.drafts.last.operator = some o)
    (hv : Plain v) :
    ∃ s' base d, ofText? catalog (t ++ ' ' :: v) = some s' ∧ s.drafts.head.column = some base ∧
      s'.drafts.joins = s.drafts.joins ∧ s'.drafts.items = s.drafts.items.dropLast ++ [d] ∧
      ((∃ column, Segment.ofText (trim (Joined.ofText t).last) = .named column name) ∨ base = c →
        d = .valued c o v) ∧
      (Segment.ofText (trim (Joined.ofText t).last) = .tag name → base ≠ c →
        d = (Operator.resolve? base.valueType name).elim .empty (.valued base · v)) := by
  obtain ⟨s', base, running, confirmed, hs', hbase, hjoins, hlast, hitems⟩ := exists_last_draft h hv
  refine ⟨s', base, _, hs', hbase, hjoins, hitems, ?_, ?_⟩
  · intro hkeep
    rcases hshape with ⟨column, hs⟩ | hs
    · rw [hlast, hs] at hcolumn hoperator
      exact Draft.ofSegment_append_of_named hs (Draft.resolve?_of_named hcolumn hoperator) hv
    · obtain rfl : base = c := by
        rcases hkeep with ⟨column, hs'⟩ | hbase
        · rw [hs] at hs'
          cases hs'
        · exact hbase
      rw [hlast, hs] at hcolumn hoperator
      rw [Draft.ofSegment_append_of_tag hs hv, Draft.resolve?_of_tag hcolumn hoperator]
      rfl
  · intro hs _
    exact Draft.ofSegment_append_of_tag hs hv

/-- The operator of the fourth condition belongs to the column of the first, which is in use
again. -/
theorem ofText?_append_value_again : ∃ s s',
    ofText? [⟨"stock".toList, [], true, .number⟩, ⟨"name".toList, [], true, .text⟩]
      "#stock #gt 10 #or #name #contains a #and #stock #lt 90 #or #eq ".toList = some s ∧
    Segment.ofText (trim (Joined.ofText
      "#stock #gt 10 #or #name #contains a #and #stock #lt 90 #or #eq ".toList).last) =
        .tag "eq".toList ∧
    s.drafts.last = Draft.ofOperator ⟨"stock".toList, [], true, .number⟩ .equals ∧
    Plain "7".toList ∧
    ofText? [⟨"stock".toList, [], true, .number⟩, ⟨"name".toList, [], true, .text⟩]
      ("#stock #gt 10 #or #name #contains a #and #stock #lt 90 #or #eq ".toList ++
        ' ' :: "7".toList) = some s' ∧
    s'.drafts.joins = s.drafts.joins ∧
    s'.drafts.items = s.drafts.items.dropLast ++
      [.valued ⟨"stock".toList, [], true, .number⟩ .equals "7".toList] := by
  obtain ⟨s, hs, hdrafts⟩ := Option.map_eq_some_iff.1 (show (ofText?
    [⟨"stock".toList, [], true, .number⟩, ⟨"name".toList, [], true, .text⟩]
    "#stock #gt 10 #or #name #contains a #and #stock #lt 90 #or #eq ".toList).map
      (fun s => (s.drafts.head.column, s.drafts.last)) =
        some (some ⟨"stock".toList, [], true, .number⟩,
          Draft.ofOperator ⟨"stock".toList, [], true, .number⟩ .equals) by decide +kernel)
  obtain ⟨hhead, hlast⟩ := Prod.mk.inj hdrafts
  have hshape : Segment.ofText (trim (Joined.ofText
      "#stock #gt 10 #or #name #contains a #and #stock #lt 90 #or #eq ".toList).last) =
        .tag "eq".toList := by decide +kernel
  have hv : Plain "7".toList := by decide
  obtain ⟨s', base, d, hs', hbase, hjoins, hitems, hkeep, -⟩ := ofText?_append_value hs
    (.inr hshape) (congrArg Draft.column hlast) (congrArg Draft.operator hlast) hv
  rw [hkeep (.inr (Option.some.inj (hbase.symm.trans hhead)))] at hitems
  exact ⟨s, s', hs, hshape, hlast, hv, hs', hjoins, hitems⟩

/-- A value takes an operator of the column in use to the column of the first condition, which
may not know it. -/
theorem exists_moved_operator :
    Segment.ofText (trim (Joined.ofText
      "#stock #gt 10 #or #name #contains a #and #equals".toList).last) = .tag "equals".toList ∧
    (ofText? [⟨"stock".toList, [], true, .number⟩, ⟨"name".toList, [], true, .text⟩]
      "#stock #gt 10 #or #name #contains a #and #equals".toList).map (·.drafts.last) =
        some (.ofOperator ⟨"name".toList, [], true, .text⟩ .equals) ∧
    (ofText? [⟨"stock".toList, [], true, .number⟩, ⟨"name".toList, [], true, .text⟩]
      ("#stock #gt 10 #or #name #contains a #and #equals".toList ++ ' ' :: "x".toList)).map
        (·.drafts.last) = some (.valued ⟨"stock".toList, [], true, .number⟩ .equals "x".toList) ∧
    (ofText? [⟨"stock".toList, [], true, .number⟩, ⟨"name".toList, [], true, .text⟩]
      "#stock #gt 10 #or #name #contains a #and #has".toList).map (·.drafts.last) =
        some (.ofOperator ⟨"name".toList, [], true, .text⟩ .contains) ∧
    (ofText? [⟨"stock".toList, [], true, .number⟩, ⟨"name".toList, [], true, .text⟩]
      ("#stock #gt 10 #or #name #contains a #and #has".toList ++ ' ' :: "x".toList)).map
        (·.drafts.last) = some .empty := by
  decide +kernel

end TypingState

end HashtagSearch
