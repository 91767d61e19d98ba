import HashtagSearch.Draft

/-!
# Searches that are being typed

While a search with joins is not confirmed, its state tells the search bar which
condition is being edited and what to offer next, and gives the filter of what is
finished so far as a preview.
-/

namespace HashtagSearch

inductive Selector
  | column
  | operator
  | join
  deriving DecidableEq, Repr

structure TypingState where
  drafts : Joined Draft
  selector : Option Selector
  /-- The draft being edited, or the next one if the last is confirmed. -/
  activeIndex : Nat
  isConfirmed : Bool
  preview : Option Filter

namespace TypingState

def activeDraft? (s : TypingState) : Option Draft := s.drafts.items[s.activeIndex]?

/-- What is offered while the last draft is not confirmed. -/
def selectorFor (last : Draft) : Option Selector :=
  if last.column.isNone then some .column
  else if last.operator.isNone then some .operator
  else none

/-- The conditions that are complete; the last draft counts only if it is `settled`. -/
def settledConditions? (drafts : Joined Draft) (settled : Bool) : Option (Joined Condition) :=
  if settled then drafts.filterMap Draft.condition?
  else Joined.filterMap Draft.condition? ⟨drafts.head, drafts.tail.dropLast⟩

/-- The state with its preview. An unconfirmed last draft is part of the preview when
nothing is offered and no second value is missing. -/
def withPreview (drafts : Joined Draft) (selector : Option Selector) (isConfirmed : Bool) :
    TypingState where
  drafts := drafts
  selector := selector
  activeIndex := if isConfirmed then drafts.items.length else drafts.tail.length
  isConfirmed := isConfirmed
  preview :=
    (settledConditions? drafts
        (isConfirmed || (selector.isNone && !drafts.last.waitingForValueTo))).bind
      Filter.ofJoined?

/-- The state when the last draft comes from the segment `last`. A last draft with a
value is confirmed by a trigger, which asks for a join, or by its own mark. -/
def ofDrafts (drafts : Joined Draft) (triggered : Bool) (last : Text) : TypingState :=
  if triggered && drafts.last.hasValue then withPreview drafts (some .join) true
  else if Confirmation.isConfirmed last && drafts.last.hasValue then withPreview drafts none true
  else withPreview drafts (selectorFor drafts.last) false

def ofSegments? (catalog : Catalog) (segments : Joined Text) (triggered : Bool) :
    Option TypingState :=
  (Draft.ofFirst? catalog segments.head).map fun (base, first) =>
    ofDrafts ⟨first, Draft.ofSegments catalog base triggered base segments.tail⟩ triggered
      segments.last

/-- The state of a search with joins that does not end with a confirmation. -/
def ofText? (catalog : Catalog) (t : Text) : Option TypingState :=
  if countJoins t = 0 || Confirmation.mark.isSuffixOf t then none
  else ofSegments? catalog (Joined.ofText t) (Confirmation.isTriggered t)

end TypingState

end HashtagSearch
