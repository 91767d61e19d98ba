import HashtagSearch.Proofs.Finished
import HashtagSearch.Proofs.Typing.Invariant

/-!
# Asking for a join and confirming

A trigger at the end of a search asks for the next join, the confirmation ends it. When
all drafts are complete and no range waits for its high end, both give the same filter:
segment by segment, a complete draft is the condition that the confirmed search reads.
-/

namespace HashtagSearch

open Confirmation

variable {catalog : Catalog} {base running column : Column} {operator : Operator}

namespace Draft

variable {d : Draft}

/-! ## Complete drafts -/

theorem condition?_of_isComplete (h : d.isComplete = true) :
    ∃ c, d.condition? = some c ∧ d.column = some c.column := by
  obtain ⟨field, column, operator, value, valueTo, waiting⟩ := d
  cases column with
  | none => simp [isComplete] at h
  | some column =>
    cases operator with
    | none => simp [isComplete] at h
    | some operator =>
      rcases value with - | - | ⟨c, value⟩
      · simp [isComplete, hasValue] at h
      · simp [isComplete, hasValue] at h
      · exact ⟨_, rfl, rfl⟩

theorem not_isComplete_ofOperator : (ofOperator column operator).isComplete = false := by
  simp [isComplete, hasValue, ofOperator, ofColumn]

theorem not_holdsTag_of_isComplete {v : Text} {confirmed : Bool}
    (h : (ofStripped column operator v confirmed).isComplete = true) :
    holdsTag v operator.isRange = false := by
  by_contra ht
  rw [Bool.not_eq_false] at ht
  rw [ofStripped, if_pos ht, not_isComplete_ofOperator] at h
  cases h

theorem ne_nil_of_isComplete_withValue {v : Text}
    (h : ((ofOperator column operator).withValue v).isComplete = true) : v ≠ [] := by
  rintro rfl
  change (ofOperator column operator).isComplete = true at h
  rw [not_isComplete_ofOperator] at h
  cases h

theorem condition?_withValue {v : Text} (hv : v ≠ []) :
    ((ofOperator column operator).withValue v).condition? =
      some (Condition.on column operator v) := by
  obtain ⟨c, v, rfl⟩ := List.exists_cons_of_ne_nil hv
  rfl

theorem ofTrimmed?_eq_condition? {v : Text}
    (hc : (ofStripped column operator v true).isComplete = true)
    (hw : (ofStripped column operator v true).waitingForValueTo = false) :
    Condition.ofTrimmed? column operator v = (ofStripped column operator v true).condition? := by
  have ht := not_holdsTag_of_isComplete hc
  cases hr : operator.isRange with
  | true =>
    have hd : ofStripped column operator v true = (ofOperator column operator).ofRange v true := by
      rw [ofStripped, ht, if_neg Bool.false_ne_true, if_pos hr]
    rw [hd] at hc hw ⊢
    cases hread : ValueRange.read? v true with
    | some range =>
      obtain ⟨c, low, hlow⟩ := List.exists_cons_of_ne_nil (ValueRange.ends_ne_nil hread).1
      rw [Condition.ofTrimmed?_of_read? ht hr hread]
      simp [ofRange, condition?, ofOperator, ofColumn, hread, hlow]
    | none =>
      cases hopen : ValueRange.openEnd? v with
      | some low => simp [ofRange, hread, hopen] at hw
      | none =>
        have hplain : (ofOperator column operator).ofRange v true =
            (ofOperator column operator).withValue v := by
          simp only [ofRange, hread, hopen]
        rw [hplain] at hc ⊢
        have hv := ne_nil_of_isComplete_withValue hc
        rw [condition?_withValue hv, Condition.ofTrimmed?_of_whole hv ht fun _ => hread]
  | false =>
    have hd : ofStripped column operator v true = (ofOperator column operator).withValue v := by
      rw [ofStripped, ht, if_neg Bool.false_ne_true, if_neg (by simp [hr])]
    rw [hd] at hc ⊢
    have hv := ne_nil_of_isComplete_withValue hc
    rw [condition?_withValue hv, Condition.ofTrimmed?_of_whole hv ht (by simp [hr])]

theorem column_ofStripped (v : Text) (confirmed : Bool) :
    (ofStripped column operator v confirmed).column = some column := by
  unfold ofStripped ofRange withValue
  split
  · rfl
  · split
    · split
      · rfl
      · rfl
      · split <;> rfl
    · split <;> rfl

theorem column_ofFirst? {t : Text} (h : ofFirst? catalog t = some (base, d)) :
    d.column = some base := by
  unfold ofFirst? at h
  split at h
  · obtain ⟨⟨c, o⟩, -, heq⟩ := Option.map_eq_some_iff.1 h
    cases heq
    exact column_ofStripped _ _
  · cases h

/-! ## Segments of complete drafts -/

theorem exists_ofValue_of_isComplete {confirmed : Bool} {s : Segment}
    (h : (ofSegment catalog base running confirmed s).isComplete = true) :
    ∃ c o v, s.value? = some v ∧
      ofSegment catalog base running confirmed s = ofValue c o v confirmed := by
  cases s with
  | explicit name operatorName value =>
    cases hr : Condition.resolve? catalog name operatorName with
    | none => simp [ofSegment, hr, isComplete, empty] at h
    | some p => exact ⟨p.1, p.2, value, rfl, by simp only [ofSegment, hr]⟩
  | continued operatorName value =>
    cases ho : Operator.resolve? base.valueType operatorName with
    | none => simp [ofSegment, ho, isComplete, empty] at h
    | some o => exact ⟨base, o, value, rfl, by simp only [ofSegment, ho]⟩
  | named name operatorName =>
    simp only [ofSegment] at h
    split at h <;> simp [isComplete, hasValue, ofColumn, empty] at h
  | opened name =>
    simp only [ofSegment] at h
    split at h <;> simp [isComplete, ofColumn, empty] at h
  | tag name =>
    simp only [ofSegment] at h
    split at h <;> simp [isComplete, hasValue, ofOperator, ofColumn, empty] at h
  | blank => simp [ofSegment, isComplete, empty] at h
  | other => simp [ofSegment, isComplete, empty] at h

/-- The column in use does not matter to a segment with a value. -/
theorem ofSegment_running {confirmed : Bool} {s : Segment} {v : Text} (h : s.value? = some v)
    (running' : Column) :
    ofSegment catalog base running confirmed s = ofSegment catalog base running' confirmed s := by
  cases s with
  | explicit name operatorName value => rfl
  | continued operatorName value => rfl
  | _ => cases h

theorem not_trigger_of_isComplete {confirmed : Bool} {s : Segment} {v : Text}
    (h : (ofSegment catalog base running confirmed s).isComplete = true)
    (hv : s.value? = some v) : ¬ trigger <:+ strip v := by
  obtain ⟨c, o, v', hv', hd⟩ := exists_ofValue_of_isComplete h
  obtain rfl : v' = v := Option.some.inj (hv'.symm.trans hv)
  intro ht
  rw [hd] at h
  have htag := not_holdsTag_of_isComplete h
  rw [holdsTag_of_trigger ht] at htag
  cases htag

def ofFinished (catalog : Catalog) (base : Column) (t : Text) : Draft :=
  ofSegment catalog base base true (Segment.ofText (Text.trim t))

theorem ofSegments_eq_map {tail : List (Join × Text)}
    (h : ∀ p ∈ ofSegments catalog base true running tail, p.2.isComplete = true) :
    ofSegments catalog base true running tail =
      tail.map fun p => (p.1, ofFinished catalog base p.2) := by
  induction tail generalizing running with
  | nil => rfl
  | cons p rest ih =>
    obtain ⟨hp, hrest⟩ := List.forall_mem_cons.1 h
    simp only [Bool.or_true, Bool.true_or] at hp
    obtain ⟨c, o, v, hv, -⟩ := exists_ofValue_of_isComplete hp
    rw [ofSegments, ih hrest]
    simp only [Bool.or_true, Bool.true_or, ofSegment_running hv base]
    rfl

/-- A complete draft that waits for nothing is the condition that its segment writes. -/
theorem ofText?_eq_condition? {t : Text} (hc : (ofFinished catalog base t).isComplete = true)
    (hw : (ofFinished catalog base t).waitingForValueTo = false) :
    Condition.ofText? (some base) catalog t = (ofFinished catalog base t).condition? := by
  unfold ofFinished at hc hw ⊢
  cases hs : Segment.ofText (Text.trim t) with
  | explicit name operatorName value =>
    simp only [hs, ofSegment] at hc hw ⊢
    rw [Condition.ofText?_explicit hs]
    cases hr : Condition.resolve? catalog name operatorName with
    | none => simp [hr, isComplete, empty] at hc
    | some p =>
      simp only [hr] at hc hw ⊢
      exact ofTrimmed?_eq_condition? hc hw
  | continued operatorName value =>
    simp only [hs, ofSegment] at hc hw ⊢
    rw [Condition.ofText?_continued hs]
    cases ho : Operator.resolve? base.valueType operatorName with
    | none => simp [ho, isComplete, empty] at hc
    | some o =>
      simp only [ho] at hc hw ⊢
      exact ofTrimmed?_eq_condition? hc hw
  | _ =>
    obtain ⟨c, o, v, hv, -⟩ := exists_ofValue_of_isComplete hc
    rw [hs] at hv
    cases hv

theorem ofText?_eq_condition?_of_first {t : Text} (h : ofFirst? catalog t = some (base, d))
    (hc : d.isComplete = true) (hw : d.waitingForValueTo = false) (defaultColumn : Option Column) :
    Condition.ofText? defaultColumn catalog t = d.condition? := by
  unfold ofFirst? at h
  split at h
  · next name operatorName value hs =>
    obtain ⟨⟨c, o⟩, hr, heq⟩ := Option.map_eq_some_iff.1 h
    cases heq
    rw [Condition.ofText?_explicit hs, hr]
    exact ofTrimmed?_eq_condition? hc hw
  · cases h

/-- The column of the first condition is the default of the others. -/
theorem column_of_first {t : Text} (h : ofFirst? catalog t = some (base, d))
    (hd : d.isComplete = true ∧ d.waitingForValueTo = false) :
    (Condition.ofText? none catalog t).map (·.column) = some base := by
  obtain ⟨c, hc, hcc⟩ := condition?_of_isComplete hd.1
  rw [ofText?_eq_condition?_of_first h hd.1 hd.2 none, hc, Option.map_some, ← hcc,
    column_ofFirst? h]

/-- The trigger behind the last segment of complete drafts is the only one there. -/
theorem strip_append_trigger_of_isComplete {t : Text}
    (h : (ofFinished catalog base (t ++ trigger)).isComplete = true) :
    strip (t ++ trigger) = strip t := by
  obtain ⟨c, o, v, hv, -⟩ := exists_ofValue_of_isComplete h
  have hne : Text.trim t ≠ [] := by
    intro ht
    rw [Text.trim_append_of_allBlank (Text.trim_eq_nil_iff.1 ht)] at hv
    cases hv
  rw [strip_append_trigger hne]
  split
  · next ht =>
    -- A second trigger would be left over in the value, as a tag that no draft takes.
    have hshape := Segment.ofText_strip hv
    rw [strip_append_trigger hne, if_pos ht] at hshape
    have hvalue : (Segment.ofText (Text.trim t)).value? = some (strip v) := by
      rw [hshape]
      cases hs : Segment.ofText (Text.trim (t ++ trigger)) with
      | explicit name operatorName value => rfl
      | continued operatorName value => rfl
      | _ => rw [hs] at hv; cases hv
    obtain ⟨front, -, hfront, hfits, -⟩ := Segment.exists_front hvalue
    rw [hfront] at ht
    have hsuffix := (IsMark.suffix_append_iff (.inl rfl) front hfits.start).1 ht
    exact absurd hsuffix (not_trigger_of_isComplete h hv)
  · rfl

end Draft

namespace TypingState

/-! ## The two filters -/

theorem ofDrafts_of_join {drafts : Joined Draft} {triggered : Bool} {last : Text}
    (h : (ofDrafts drafts triggered last).selector = some .join) :
    triggered = true ∧ ofDrafts drafts triggered last = withPreview drafts (some .join) true := by
  unfold ofDrafts at h ⊢
  split
  · next hv => exact ⟨(Bool.and_eq_true_iff.1 hv).1, rfl⟩
  · next hv =>
    rw [if_neg hv] at h
    split at h
    · cases h
    · exact absurd h (selectorFor_ne_join _)

/-- With a trigger behind it, a text with joins has the same segments, the last of them
with the trigger. -/
theorem ofText_append_trigger {t : Text} (h : countJoins (t ++ trigger) ≠ 0) :
    ∃ x init join y, Joined.ofText t = ⟨x, init ++ [(join, y)]⟩ ∧
      Joined.ofText (t ++ trigger) = ⟨x, init ++ [(join, y ++ trigger)]⟩ := by
  have hcut : Joined.ofText (t ++ trigger) = (Joined.ofText t).append ⟨trigger, []⟩ := by
    rw [Joined.ofText_append apart_trigger, Joined.whole_trigger]
  rw [countJoins, hcut] at h
  rw [hcut]
  rcases hx : Joined.ofText t with ⟨x, tail⟩
  rw [hx] at h
  rcases List.eq_nil_or_concat tail with rfl | ⟨init, ⟨join, y⟩, rfl⟩
  · exact (h rfl).elim
  · rw [List.concat_eq_append, Joined.concat_append]
    exact ⟨x, init, join, y, rfl, by simp⟩

/-- The segments of the text without a trigger are the conditions of the drafts. -/
theorem conditions_eq_map {x y : Text} {init : List (Join × Text)} {join : Join} {first : Draft}
    (hfirst : Draft.ofFirst? catalog x = some (base, first))
    (hd : ∀ d ∈ Joined.items ⟨first,
        Draft.ofSegments catalog base true base (init ++ [(join, y ++ trigger)])⟩,
      d.isComplete = true ∧ d.waitingForValueTo = false) :
    Joined.map (Condition.ofText? (some base) catalog) ⟨x, init ++ [(join, y)]⟩ =
      Joined.map Draft.condition? ⟨first,
        Draft.ofSegments catalog base true base (init ++ [(join, y ++ trigger)])⟩ := by
  obtain ⟨hhead, htail⟩ := List.forall_mem_cons.1 hd
  have hmap : Draft.ofSegments catalog base true base (init ++ [(join, y ++ trigger)]) =
      (init ++ [(join, y ++ trigger)]).map fun p => (p.1, Draft.ofFinished catalog base p.2) :=
    Draft.ofSegments_eq_map fun p hp => (htail p.2 (List.mem_map_of_mem hp)).1
  rw [hmap] at htail ⊢
  have hdraft : ∀ p ∈ init ++ [(join, y ++ trigger)],
      (Draft.ofFinished catalog base p.2).isComplete = true ∧
      (Draft.ofFinished catalog base p.2).waitingForValueTo = false := by
    rw [List.map_map, List.forall_mem_map] at htail
    exact htail
  have hinit : ∀ p ∈ init, Condition.ofText? (some base) catalog p.2 =
      (Draft.ofFinished catalog base p.2).condition? := by
    intro p hp
    obtain ⟨hc, hw⟩ := hdraft p (List.mem_append_left _ hp)
    exact Draft.ofText?_eq_condition? hc hw
  have hlast : Condition.ofText? (some base) catalog y =
      (Draft.ofFinished catalog base (y ++ trigger)).condition? := by
    obtain ⟨hc, hw⟩ := hdraft (join, y ++ trigger) (by simp)
    rw [← Draft.ofText?_eq_condition? hc hw]
    exact Condition.ofText?_congr (Draft.strip_append_trigger_of_isComplete hc).symm _
  have hx := Draft.ofText?_eq_condition?_of_first hfirst hhead.1 hhead.2 (some base)
  simp only [Joined.map, List.map_append, List.map_map, List.map_cons, List.map_nil, hx, hlast,
    Joined.mk.injEq, List.append_cancel_right_eq, true_and, Function.comp_def]
  exact List.map_congr_left fun p hp => by rw [hinit p hp]

theorem exists_conditions {drafts : Joined Draft}
    (hd : ∀ d ∈ drafts.items, d.isComplete = true ∧ d.waitingForValueTo = false) :
    ∃ r : Joined Condition, drafts.map Draft.condition? = r.map some := by
  apply Joined.exists_map_some
  intro d hmem
  obtain ⟨c, hc, -⟩ := Draft.condition?_of_isComplete (hd d hmem).1
  exact ⟨c, hc⟩

theorem preview_of_confirmed {drafts : Joined Draft} {selector : Option Selector}
    {r : Joined Condition} (hr : drafts.map Draft.condition? = r.map some) :
    (withPreview drafts selector true).preview = Filter.ofJoined? r := by
  simp only [withPreview, Bool.true_or, settledConditions?, if_true, Joined.filterMap_eq_some hr,
    Option.bind_some]

/-- When the trigger asks for a join and every draft is complete, the confirmation gives
the filter that the preview shows. -/
theorem read?_eq_preview {t : Text} {s : TypingState} (h : ofText? catalog (t ++ trigger) = some s)
    (hjoin : s.selector = some .join)
    (hd : ∀ d ∈ s.drafts.items, d.isComplete = true ∧ d.waitingForValueTo = false) :
    ∃ f, Confirmed.read? catalog (t ++ mark) = some f ∧ s.preview = some f := by
  obtain ⟨hcount, base, first, hfirst, rfl⟩ := ofText?_eq_some h
  obtain ⟨htriggered, hs⟩ := ofDrafts_of_join hjoin
  rw [drafts_ofDrafts] at hd
  rw [hs]
  obtain ⟨x, init, join, y, ht, htt⟩ := ofText_append_trigger hcount
  rw [htt] at hfirst
  rw [htriggered, htt] at hd ⊢
  dsimp only at hfirst hd ⊢
  have hmap := conditions_eq_map hfirst hd
  obtain ⟨r, hr⟩ := exists_conditions hd
  have hbase := Draft.column_of_first hfirst (hd first List.mem_cons_self)
  have htail : r.tail ≠ [] := by
    rw [← List.length_pos_iff, ← Joined.length_tail_of_map (hmap.trans hr)]
    simp
  obtain ⟨f, hf⟩ : ∃ f, Filter.ofJoined? r = some f := ⟨_, rfl⟩
  refine ⟨f, ?_, ?_⟩
  · rw [Confirmed.read?_append_mark (by rwa [ht]) (by rw [ht, hmap, hr]) htail, hf]
  · rw [preview_of_confirmed hr, hf]

/-- A segment without a column, whose range is written with a hyphen, before a trigger. -/
theorem read?_eq_preview_range : ∃ s f,
    ofText? [⟨"price".toList, [], true, .number⟩]
      ("#price #gt 3 #or #inRange 2-5".toList ++ trigger) = some s ∧
    s.selector = some .join ∧
    (∀ d ∈ s.drafts.items, d.isComplete = true ∧ d.waitingForValueTo = false) ∧
    Confirmed.read? [⟨"price".toList, [], true, .number⟩]
      ("#price #gt 3 #or #inRange 2-5".toList ++ mark) = some f ∧
    s.preview = some f := by
  have hstate : ((ofText? [⟨"price".toList, [], true, .number⟩]
      ("#price #gt 3 #or #inRange 2-5".toList ++ trigger)).any fun s =>
        s.selector = some .join ∧
          ∀ d ∈ s.drafts.items, d.isComplete = true ∧ d.waitingForValueTo = false) = true := by
    decide +kernel
  obtain ⟨s, hs, hp⟩ := (Option.any_eq_true _ _).1 hstate
  obtain ⟨hjoin, hd⟩ := of_decide_eq_true hp
  obtain ⟨f, hread, hpreview⟩ := read?_eq_preview hs hjoin hd
  exact ⟨s, f, hs, hjoin, hd, hread, hpreview⟩

end TypingState

end HashtagSearch
