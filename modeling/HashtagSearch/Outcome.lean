import HashtagSearch.Confirmed
import HashtagSearch.Grouped
import HashtagSearch.Typing

/-!
# What a search text means

A text without a `#` at its start is free text. Otherwise parentheses, joins, the
confirmation and the colon decide how it is read; what cannot be read that way is
unresolved.
-/

namespace HashtagSearch

inductive Outcome
  | empty
  | freeText (text : Text)
  | filter (f : Filter)
  | typing (s : TypingState)
  | unresolved

namespace Outcome

/-- The filter to apply: that of a finished search, or the preview of an unfinished one. -/
def filter? : Outcome → Option Filter
  | filter f => some f
  | typing s => s.preview
  | empty | freeText _ | unresolved => none

def ofFilter? : Option Filter → Outcome
  | some f => filter f
  | none => unresolved

def ofState? : Option TypingState → Outcome
  | some s => typing s
  | none => unresolved

/-- The meaning of a text that starts with `#`, blanks aside. -/
def ofTagged (catalog : Catalog) (defaultColumn : Option Column) (t : Text) : Outcome :=
  if Text.hasPart (Token.display .groupOpen) (Text.trim t) then ofFilter? (Grouped.read? catalog t)
  else if countJoins t ≠ 0 then
    if Confirmation.isConfirmed t then ofFilter? (Confirmed.read? catalog t)
    else ofState? (TypingState.ofText? catalog t)
  else if Confirmation.isConditionForm t then
    ofFilter? ((Condition.ofText? defaultColumn catalog t).map Filter.single)
  else ofFilter? (Shorthand.read? catalog t)

/-- The meaning of a search text. -/
def ofText (catalog : Catalog) (defaultColumn : Option Column) (t : Text) : Outcome :=
  match Text.trim t with
  | [] => empty
  | '#' :: _ => ofTagged catalog defaultColumn t
  | text => freeText text

end Outcome

end HashtagSearch
