import HashtagSearch.Typing
import HashtagSearch.Proofs.Typing.Drafts

/-!
# States of the search bar

What holds of every state that a text can lead to, whatever its segments look like. The
selector, the draft being edited and the confirmation go together, and a selector asks
for the first part that the last draft lacks.
-/

namespace HashtagSearch

def Selector.all : List Selector := [.column, .operator, .join]

namespace TypingState

variable {catalog : Catalog} {drafts : Joined Draft}

/-- The selectors that are shown. -/
def shown (s : TypingState) : List Selector := Selector.all.filter (s.selector == some ·)

/-- The parts of a state fit together. -/
structure WellFormed (s : TypingState) : Prop where
  length_joins : s.drafts.joins.length = s.drafts.items.length - 1
  length_shown : s.shown.length ≤ 1
  active_confirmed : s.activeIndex = s.drafts.items.length ↔ s.isConfirmed = true
  active_unconfirmed : s.isConfirmed = false → s.activeIndex = s.drafts.items.length - 1
  join_shown : .join ∈ s.shown → s.isConfirmed = true
  confirmed : s.isConfirmed = true → s.drafts.last.hasValue = true
  column_shown : .column ∈ s.shown ↔ s.isConfirmed = false ∧ s.drafts.last.column = none
  operator_shown : .operator ∈ s.shown ↔ s.isConfirmed = false ∧
    s.drafts.last.column.isSome = true ∧ s.drafts.last.operator = none
  drafts_wellFormed : ∀ d ∈ s.drafts.items, d.WellFormed

theorem mem_shown {s : TypingState} {x : Selector} : x ∈ s.shown ↔ s.selector = some x := by
  cases x <;> simp [shown, Selector.all]

theorem length_shown_le (s : TypingState) : s.shown.length ≤ 1 := by
  unfold shown
  cases s.selector with
  | none => decide
  | some x => cases x <;> decide

/-- A confirmed last draft has a value; nothing or a join is asked for. -/
theorem wellFormed_confirmed {selector : Option Selector} (hs : ∀ x ∈ selector, x = .join)
    (hv : drafts.last.hasValue = true) (hd : ∀ d ∈ drafts.items, d.WellFormed) :
    (withPreview drafts selector true).WellFormed where
  length_joins := Nat.eq_sub_of_add_eq drafts.length_joins
  length_shown := length_shown_le _
  active_confirmed := iff_of_true rfl rfl
  active_unconfirmed := nofun
  join_shown _ := rfl
  confirmed _ := hv
  column_shown := by
    refine ⟨fun h => ?_, nofun⟩
    cases hs _ (mem_shown.1 h)
  operator_shown := by
    refine ⟨fun h => ?_, nofun⟩
    cases hs _ (mem_shown.1 h)
  drafts_wellFormed := hd

theorem selectorFor_eq_column {d : Draft} : selectorFor d = some .column ↔ d.column = none := by
  unfold selectorFor
  cases d.column <;> cases d.operator <;> simp

theorem selectorFor_eq_operator {d : Draft} :
    selectorFor d = some .operator ↔ d.column.isSome = true ∧ d.operator = none := by
  unfold selectorFor
  cases d.column <;> cases d.operator <;> simp

theorem selectorFor_ne_join (d : Draft) : selectorFor d ≠ some .join := by
  unfold selectorFor
  cases d.column <;> cases d.operator <;> simp

theorem wellFormed_unconfirmed (hd : ∀ d ∈ drafts.items, d.WellFormed) :
    (withPreview drafts (selectorFor drafts.last) false).WellFormed where
  length_joins := Nat.eq_sub_of_add_eq drafts.length_joins
  length_shown := length_shown_le _
  active_confirmed := by
    refine ⟨fun h => ?_, nofun⟩
    have hlen : drafts.tail.length = drafts.items.length := h
    simp [Joined.items] at hlen
  active_unconfirmed _ := by simp [withPreview, Joined.items]
  join_shown h := absurd (mem_shown.1 h) (selectorFor_ne_join _)
  confirmed := nofun
  column_shown := by
    rw [mem_shown]
    exact selectorFor_eq_column.trans (iff_and_self.2 fun _ => rfl)
  operator_shown := by
    rw [mem_shown]
    exact selectorFor_eq_operator.trans (iff_and_self.2 fun _ => rfl)
  drafts_wellFormed := hd

theorem wellFormed_ofDrafts (triggered : Bool) (last : Text)
    (hd : ∀ d ∈ drafts.items, d.WellFormed) : (ofDrafts drafts triggered last).WellFormed := by
  unfold ofDrafts
  split
  · next h => exact wellFormed_confirmed (by simp) (Bool.and_eq_true_iff.1 h).2 hd
  · split
    · next h => exact wellFormed_confirmed (by simp) (Bool.and_eq_true_iff.1 h).2 hd
    · exact wellFormed_unconfirmed hd

theorem ofText?_eq_some {t : Text} {s : TypingState} (h : ofText? catalog t = some s) :
    countJoins t ≠ 0 ∧
    ∃ base first, Draft.ofFirst? catalog (Joined.ofText t).head = some (base, first) ∧
      s = ofDrafts ⟨first, Draft.ofSegments catalog base (Confirmation.isTriggered t) base
        (Joined.ofText t).tail⟩ (Confirmation.isTriggered t) (Joined.ofText t).last := by
  unfold ofText? at h
  split at h
  · cases h
  · next hne =>
    obtain ⟨⟨base, first⟩, hf, hs⟩ := Option.map_eq_some_iff.1 h
    refine ⟨?_, base, first, hf, hs.symm⟩
    intro hzero
    simp [hzero] at hne

@[simp] theorem drafts_ofDrafts (triggered : Bool) (last : Text) :
    (ofDrafts drafts triggered last).drafts = drafts := by
  unfold ofDrafts
  split
  · rfl
  · split <;> rfl

/-- Every text that is being typed leads to a state whose parts fit together, with the
joins of that text. -/
theorem ofText?_wellFormed {t : Text} {s : TypingState} (h : ofText? catalog t = some s) :
    s.WellFormed ∧ s.drafts.joins = (Joined.ofText t).joins := by
  obtain ⟨-, base, first, hf, rfl⟩ := ofText?_eq_some h
  constructor
  · apply wellFormed_ofDrafts
    intro d hd
    rcases List.mem_cons.1 hd with rfl | hd
    · exact Draft.wellFormed_ofFirst? hf
    · obtain ⟨p, hp, rfl⟩ := List.mem_map.1 hd
      exact Draft.wellFormed_ofSegments p hp
  · rw [drafts_ofDrafts]
    exact Draft.joins_ofSegments _ _

/-- The state of a search whose last range lacks its high end. -/
theorem ofText?_wellFormed_range : ∃ s,
    ofText? [⟨"price".toList, [], true, .number⟩]
      "#price #gt 3 #or #price #inRange 2 #to".toList = some s ∧
    s.WellFormed ∧ s.drafts.joins = [.or] := by
  obtain ⟨s, hs⟩ := Option.isSome_iff_exists.1 (show (ofText? [⟨"price".toList, [], true, .number⟩]
    "#price #gt 3 #or #price #inRange 2 #to".toList).isSome = true by decide +kernel)
  obtain ⟨hw, hj⟩ := ofText?_wellFormed hs
  exact ⟨s, hs, hw, hj.trans (by decide +kernel)⟩

end TypingState

end HashtagSearch
