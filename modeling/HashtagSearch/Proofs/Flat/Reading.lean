import HashtagSearch.Outcome
import HashtagSearch.Proofs.Flat.Writing

/-!
# Reading the flat form

Writable conditions with joins between them are written one after the other. The text is
cut at the joins again, each segment is read as its condition, and no mark in it is taken
for that of another form.
-/

namespace HashtagSearch

open Text

variable {catalog : Catalog}

/-! ## One condition -/

namespace Condition.Writable

variable {c : Condition}

theorem isName_field (h : c.Writable catalog) : Segment.IsName c.field :=
  h.field_eq ▸ h.column.is_name

theorem display_eq (h : c.Writable catalog) :
    c.display = (on c.column c.operator c.operand).display := by
  rw [display, h.field_eq]
  rfl

theorem solidEnd_operand (h : c.Writable catalog) : SolidEnd c.operand := by
  obtain ⟨r, x, hr, hb, -⟩ := h.exists_last_operand
  exact ⟨r, x, hr, hb⟩

theorem trim_display (h : c.Writable catalog) : trim c.display = c.display := by
  rw [h.display_eq, trim_display_on h.solidEnd_operand]

theorem ofText?_display (h : c.Writable catalog) (defaultColumn : Option Column) :
    Condition.ofText? defaultColumn catalog c.display = some c := by
  rw [h.display_eq, ofText?_display_on h.column.resolve h.column.is_name h.supported
    h.fitsValue_operand h.solidEnd_operand, h.strip_operand, h.ofTrimmed?_operand]

theorem ofText?_space_display (h : c.Writable catalog) (defaultColumn : Option Column) :
    Condition.ofText? defaultColumn catalog (' ' :: c.display) = some c := by
  have hstrip : Confirmation.strip (' ' :: c.display) = Confirmation.strip c.display := by
    rw [← Confirmation.strip_trim, ← List.singleton_append,
      trim_append_of_allBlank Segment.isGap_space.2, Confirmation.strip_trim]
  rw [ofText?_congr hstrip, h.ofText?_display]

end Condition.Writable

/-! ## Keywords -/

theorem Segment.IsName.no_blank {t : Text} (h : Segment.IsName t) :
    ∀ x ∈ '#' :: t, isBlank x = false := by
  intro x hx
  rcases List.mem_cons.1 hx with rfl | hx
  · decide
  · have := h.2 x hx
    simp_all [Token.isNameChar]

theorem Segment.IsName.whole {t : Text} (h : Segment.IsName t) : Joined.Whole ('#' :: t) :=
  Joined.whole_of_no_blank h.no_blank

theorem Join.read?_of_countJoins {t : Text} (h : countJoins t = 0) : read? t = none := by
  unfold countJoins Joined.ofText at h
  cases hread : read? t with
  | none => rfl
  | some p => simp [hread, Joined.cons] at h

theorem Column.Typeable.read?_field {c : Column} (h : c.Typeable catalog) :
    Join.read? ('#' :: c.field) = none :=
  Join.read?_of_countJoins h.not_join

namespace Condition.Writable

variable {c : Condition}

theorem read?_display (h : c.Writable catalog) : Join.read? c.display = none := by
  have hfield : Join.read? ('#' :: c.field) = none := h.field_eq ▸ h.column.read?_field
  rw [display, Join.read?_append (apart_space _), hfield, Option.map_none]

theorem whole_operand (h : c.Writable catalog) : Joined.Whole (' ' :: c.operand) := by
  have hvalue : Joined.Whole (' ' :: c.value) :=
    Joined.whole_of_no_hash (by simp [h.value.no_hash])
  cases hto : c.valueTo with
  | none =>
    rw [Condition.operand_of_none hto]
    exact hvalue
  | some high =>
    have hhigh : Joined.Whole (' ' :: high) := by
      apply Joined.whole_of_no_hash
      simp [(h.valueTo high hto).1.no_hash]
    have hmark : Joined.Whole [' ', '#', 't', 'o'] :=
      Joined.Whole.cons (Joined.whole_of_no_blank (by simp [isBlank])) rfl
    rw [Condition.operand_of_some hto]
    exact hvalue.append (apart_space _) (hmark.append (apart_space _) hhigh)

theorem whole_display (h : c.Writable catalog) : Joined.Whole c.display := by
  have hname : Joined.Whole (' ' :: '#' :: c.operator.name.toList) :=
    (Operator.isName_name c.operator).whole.cons (Operator.read?_name c.operator)
  exact h.isName_field.whole.append (apart_space _) (hname.append (apart_space _) h.whole_operand)

end Condition.Writable

/-! ## Several conditions -/

namespace Joined

/-- The conditions after the first, each behind its join. -/
def displayTail : List (Join × Condition) → Text
  | [] => []
  | (join, c) :: rest =>
    ' ' :: ('#' :: join.keyword.toList ++ (' ' :: c.display ++ displayTail rest))

/-- The conditions as they are typed, with the joins between them. -/
def display (s : Joined Condition) : Text := s.head.display ++ displayTail s.tail

theorem apart_displayTail (tail : List (Join × Condition)) : Apart (displayTail tail) := by
  cases tail with
  | nil => exact apart_nil
  | cons p rest => exact apart_space _

theorem ofTextAfter_displayTail {tail : List (Join × Condition)}
    (h : ∀ p ∈ tail, p.2.Writable catalog) :
    ofTextAfter (displayTail tail) = ⟨[], tail.map fun p => (p.1, ' ' :: p.2.display)⟩ := by
  induction tail with
  | nil => exact ofTextAfter_nil
  | cons p rest ih =>
    obtain ⟨join, c⟩ := p
    obtain ⟨hc, hrest⟩ := List.forall_mem_cons.1 h
    have hwhole : Whole (' ' :: c.display) := hc.whole_display.cons hc.read?_display
    have hread : readJoin? (displayTail ((join, c) :: rest)) =
        some (join, ' ' :: c.display ++ displayTail rest) := Join.read?_keyword join rfl
    rw [ofTextAfter_of_join hread, ofTextAfter_append (apart_displayTail rest), hwhole, ih hrest,
      single_append, List.append_nil]
    rfl

theorem ofText_display {s : Joined Condition} (h : ∀ c ∈ s.items, c.Writable catalog) :
    ofText s.display = ⟨s.head.display, s.tail.map fun p => (p.1, ' ' :: p.2.display)⟩ := by
  obtain ⟨hhead, htail⟩ := List.forall_mem_cons.1 h
  have hcut : ofText s.head.display = ⟨s.head.display, []⟩ :=
    ofText_of_whole hhead.whole_display hhead.read?_display
  have hrest : ∀ p ∈ s.tail, p.2.Writable catalog := by
    intro p hp
    exact htail p.2 (List.mem_map_of_mem hp)
  rw [display, ofText_append (apart_displayTail _), hcut, ofTextAfter_displayTail hrest,
    single_append, List.append_nil]

end Joined

/-! ## No groups -/

/-- The text holds no mark that opens a group. -/
def Text.Ungrouped (t : Text) : Prop := hasPart (Token.display .groupOpen) t = false

namespace Text.Ungrouped

theorem of_no_hash {t : Text} (h : '#' ∉ t) : Ungrouped t := hasPart_of_not_mem h

theorem of_infix {s t : Text} (h : Ungrouped t) (hs : s <:+: t) : Ungrouped s := by
  unfold Ungrouped at h ⊢
  rw [← Bool.not_eq_true, hasPart_iff] at h ⊢
  exact fun hpart => h (hpart.trans hs)

theorem append {s t : Text} (hs : Ungrouped s) (ht : Ungrouped t) (h : t.head? ≠ some '(') :
    Ungrouped (s ++ t) :=
  hasPart_append hs ht h

end Text.Ungrouped

theorem Condition.Writable.ungrouped_operand {c : Condition} (h : c.Writable catalog) :
    Ungrouped (' ' :: c.operand) := by
  have hvalue : Ungrouped (' ' :: c.value) := Ungrouped.of_no_hash (by simp [h.value.no_hash])
  cases hto : c.valueTo with
  | none =>
    rw [Condition.operand_of_none hto]
    exact hvalue
  | some high =>
    have hhigh : Ungrouped (' ' :: high) := by
      apply Ungrouped.of_no_hash
      simp [(h.valueTo high hto).1.no_hash]
    have hmark : Ungrouped [' ', '#', 't', 'o'] := rfl
    have hrest : Ungrouped (' ' :: '#' :: 't' :: 'o' :: ' ' :: high) :=
      hmark.append hhigh (by simp)
    rw [Condition.operand_of_some hto]
    exact hvalue.append hrest (by simp)

theorem Condition.Writable.ungrouped_display {c : Condition} (h : c.Writable catalog) :
    Ungrouped c.display := by
  have hhash : '#' ∉ c.field := by
    intro hx
    have := h.isName_field.2 '#' hx
    simp [Token.isNameChar] at this
  have hhead : c.field.head? ≠ some '(' := h.field_eq ▸ h.column.not_group
  have hfield : Ungrouped ('#' :: c.field) :=
    Ungrouped.append (s := ['#']) rfl (.of_no_hash hhash) hhead
  have hname : Ungrouped (' ' :: '#' :: c.operator.name.toList) := by
    cases c.operator <;> rfl
  exact hfield.append (hname.append h.ungrouped_operand (by simp)) (by simp)

/-! ## The filter of one condition -/

theorem Outcome.ofText_of_trim {t r : Text} (h : trim t = '#' :: r)
    (defaultColumn : Option Column) :
    Outcome.ofText catalog defaultColumn t = Outcome.ofTagged catalog defaultColumn t := by
  unfold Outcome.ofText
  rw [h]
  rfl

/-- Without groups, joins and colons a text is read as one condition. -/
theorem Outcome.ofText_of_condition {t : Text} {defaultColumn : Option Column} {c : Condition}
    (hhash : (trim t).head? = some '#') (hgroup : Ungrouped (trim t)) (hcount : countJoins t = 0)
    (hcolon : ':' ∉ trim t) (hread : Condition.ofText? defaultColumn catalog t = some c) :
    Outcome.ofText catalog defaultColumn t = .filter (Filter.single c) := by
  obtain ⟨r, hr⟩ := List.head?_eq_some_iff.1 hhash
  have hform : Confirmation.isConditionForm t = true := by
    simp [Confirmation.isConditionForm, hhash, hcolon]
  rw [Outcome.ofText_of_trim hr, Outcome.ofTagged, hgroup, if_neg Bool.false_ne_true,
    if_neg (not_not.2 hcount), if_pos hform, hread]
  rfl

namespace Condition.Writable

variable {c : Condition}

theorem strip_display (h : c.Writable catalog) : Confirmation.strip c.display = c.display := by
  obtain ⟨r, x, hr, hb, hx⟩ := h.exists_last_operand
  have hdisplay : c.display =
      ('#' :: c.field ++ (' ' :: ('#' :: c.operator.name.toList ++ (' ' :: r)))) ++ [x] := by
    simp [Condition.display, hr]
  rw [hdisplay]
  exact Confirmation.strip_of_end ⟨'#', _, rfl, by decide⟩ hb hx

theorem ofText_single (h : c.Writable catalog) (hcolon : ':' ∉ c.display)
    (defaultColumn : Option Column) :
    Outcome.ofText catalog defaultColumn (c.display ++ Confirmation.mark) =
      .filter (Filter.single c) := by
  have hstart : SolidStart c.display := ⟨'#', _, rfl, by decide⟩
  have htrim : trim (c.display ++ Confirmation.mark) = c.display ++ Confirmation.mark := by
    rw [Confirmation.trim_append_mark, trimStart_of_solidStart hstart]
  apply Outcome.ofText_of_condition
  · rw [htrim]
    rfl
  · rw [htrim]
    exact h.ungrouped_display.append rfl (by decide)
  · rw [countJoins_append_mark, Joined.countJoins_of_whole h.whole_display h.read?_display]
  · rw [htrim]
    simp [hcolon, Confirmation.mark]
  · have hstrip : Confirmation.strip (c.display ++ Confirmation.mark) =
        Confirmation.strip c.display := by
      rw [Confirmation.strip_append_mark, h.trim_display, h.strip_display]
    rw [Condition.ofText?_congr hstrip, h.ofText?_display]

end Condition.Writable

namespace Joined

theorem ungrouped_displayTail {tail : List (Join × Condition)}
    (h : ∀ p ∈ tail, p.2.Writable catalog) : Ungrouped (displayTail tail) := by
  induction tail with
  | nil => rfl
  | cons p rest ih =>
    obtain ⟨join, c⟩ := p
    obtain ⟨hc, hrest⟩ := List.forall_mem_cons.1 h
    have hjoin : Ungrouped (' ' :: '#' :: join.keyword.toList) := by cases join <;> rfl
    have hspace : Ungrouped (' ' :: c.display) :=
      Ungrouped.append (s := [' ']) rfl hc.ungrouped_display (by simp)
    have hhead : (displayTail rest).head? ≠ some '(' := by cases rest <;> simp [displayTail]
    exact hjoin.append (hspace.append (ih hrest) hhead) (by simp)

theorem ungrouped_display {s : Joined Condition} (h : ∀ c ∈ s.items, c.Writable catalog) :
    Ungrouped (s.display ++ Confirmation.mark) := by
  obtain ⟨hhead, htail⟩ := List.forall_mem_cons.1 h
  have hrest : Ungrouped (displayTail s.tail) := by
    apply ungrouped_displayTail
    intro p hp
    exact htail p.2 (List.mem_map_of_mem hp)
  have hfront : (displayTail s.tail).head? ≠ some '(' := by
    cases s.tail <;> simp [displayTail]
  exact (hhead.ungrouped_display.append hrest hfront).append rfl (by decide)

/-! ## The filter -/

/-- The conditions with their joins are read back, whatever the default column is. -/
theorem ofText_display_mark {s : Joined Condition} (h : ∀ c ∈ s.items, c.Writable catalog)
    (htail : s.tail ≠ []) (defaultColumn : Option Column) :
    ∃ f, Outcome.ofText catalog defaultColumn (s.display ++ Confirmation.mark) = .filter f ∧
      f.conditions = s.items ∧ f.joins = s.joins := by
  obtain ⟨hhead, hitems⟩ := List.forall_mem_cons.1 h
  have hsegments : (ofText s.display).map
      (Condition.ofText? (some s.head.column) catalog) = s.map some := by
    rw [ofText_display h]
    simp only [map, List.map_map, hhead.ofText?_display, mk.injEq, true_and]
    apply List.map_congr_left
    intro p hp
    have hp' := hitems p.2 (List.mem_map_of_mem hp)
    simp [hp'.ofText?_space_display]
  have hread : Confirmed.read? catalog (s.display ++ Confirmation.mark) = Filter.ofJoined? s := by
    apply Confirmed.read?_append_mark ?_ hsegments htail
    rw [ofText_display h, hhead.ofText?_display, Option.map_some]
  have htrim : trim (s.display ++ Confirmation.mark) = s.display ++ Confirmation.mark :=
    trim_of_solid ⟨'#', _, rfl, by decide⟩ (Confirmation.solidEnd_append_mark _)
  have hcount : countJoins (s.display ++ Confirmation.mark) ≠ 0 := by
    rw [countJoins_append_mark, countJoins, length_tail_of_map hsegments]
    exact mt List.length_eq_zero_iff.1 htail
  have hconfirmed : Confirmation.isConfirmed (s.display ++ Confirmation.mark) = true :=
    Confirmation.isConfirmed_append_mark _
  have htagged : Outcome.ofText catalog defaultColumn (s.display ++ Confirmation.mark) =
      Outcome.ofTagged catalog defaultColumn (s.display ++ Confirmation.mark) := by
    unfold Outcome.ofText
    rw [htrim]
    rfl
  obtain ⟨f, hf⟩ : ∃ f, Filter.ofJoined? s = some f := ⟨_, rfl⟩
  refine ⟨f, ?_, ?_, ?_⟩
  · rw [htagged, Outcome.ofTagged, htrim, ungrouped_display h, if_neg Bool.false_ne_true,
      if_pos hcount, if_pos hconfirmed, hread, hf]
    rfl
  · cases hf
    rfl
  · cases hf
    rfl

/-- Fields, values and keywords that begin alike are told apart. -/
theorem ofText_display_mark_order : ∃ f,
    Outcome.ofText [⟨"order".toList, [], true, .text⟩, ⟨"price".toList, [], true, .number⟩] none
      "#order #contains a and-b #or #price #inRange 2-3 #to 5 #and #price #inRange 7##".toList =
        .filter f ∧
    f.conditions =
      [.on ⟨"order".toList, [], true, .text⟩ .contains "a and-b".toList,
        .on ⟨"price".toList, [], true, .number⟩ .inRange "2-3".toList (some "5".toList),
        .on ⟨"price".toList, [], true, .number⟩ .inRange "7".toList] ∧
    f.joins = [.or, .and] :=
  ofText_display_mark
    (s := ⟨.on ⟨"order".toList, [], true, .text⟩ .contains "a and-b".toList,
      [(.or, .on ⟨"price".toList, [], true, .number⟩ .inRange "2-3".toList (some "5".toList)),
        (.and, .on ⟨"price".toList, [], true, .number⟩ .inRange "7".toList)]⟩)
    (by decide +kernel) (by decide) none

end Joined

end HashtagSearch
