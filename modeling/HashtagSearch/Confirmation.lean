import HashtagSearch.Join

/-!
# Marks at the end of a search

`##` at the end confirms what was typed; a blank and a `#` at the end ask for the
next join. Both are taken off before a value is read. A word with a `#` inside a
value is a keyword or an operator that is still being typed, so no such value is
accepted, except that a range may hold `#to`.
-/

namespace HashtagSearch

namespace Confirmation

/-- Confirms a search. -/
def mark : Text := ['#', '#']

/-- Asks for the join with the next condition. -/
def trigger : Text := [' ', '#']

/-- The text, trimmed again if `ending` was taken off its end. -/
def dropEnding (ending t : Text) : Text :=
  match Text.dropEnding? ending t with
  | some rest => Text.trim rest
  | none => t

/-- The trimmed text without a trigger at its end and then without a confirmation. -/
def strip (t : Text) : Text := dropEnding mark (dropEnding trigger (Text.trim t))

def isConfirmed (t : Text) : Bool := mark.isSuffixOf (Text.trimEnd t)

def isJoinTag (word : Text) : Bool :=
  match word with
  | '#' :: name => (Join.ofKeyword? name).isSome
  | _ => false

/-- Whether the text ends with a join keyword and a `#` that begins the next condition. -/
def endsWithOpenJoin (t : Text) : Bool :=
  match t.reverse with
  | '#' :: c :: before => Text.isBlank c && (Text.words before.reverse).getLast?.any isJoinTag
  | _ => false

def isTriggered (t : Text) : Bool := trigger.isSuffixOf t && !endsWithOpenJoin t

/-- Whether a value holds a word with a `#` in front; `#to` is passed over in a range. -/
def holdsTag (value : Text) (inRange : Bool) : Bool :=
  (Text.words value).any fun word =>
    word.head? == some '#' && !(inRange && Text.sameIgnoringCase word "#to".toList)

/-- Whether the text is a condition rather than the shorthand with a colon. -/
def isConditionForm (t : Text) : Bool :=
  Text.trim t == ['#'] || ((Text.trim t).head? == some '#' && !(Text.trim t).contains ':')

end Confirmation

end HashtagSearch
