import HashtagSearch.Token

/-!
# Shapes of a condition

A condition is typed in one of a few shapes: with its column, or without it when the
column is clear, and as long as it is unfinished without value or operator.
`Segment.ofText` tells the shapes apart. Whether the names in it mean anything is decided
elsewhere.
-/

namespace HashtagSearch

/-- What stands between two joins. -/
inductive Segment
  /-- `#column #operator value` -/
  | explicit (column operator value : Text)
  /-- `#operator value` -/
  | continued (operator value : Text)
  /-- `#column #operator` -/
  | named (column operator : Text)
  /-- `#column #` -/
  | opened (column : Text)
  /-- `#name`, which may be a column or an operator -/
  | tag (name : Text)
  /-- nothing, or a `#` alone -/
  | blank
  | other
  deriving DecidableEq, Repr

namespace Segment

/-- The word with a `#` at the head of the text, without the `#`, and what follows it. -/
def readTag? : Text → Option (Text × Text)
  | '#' :: t =>
    if (t.takeWhile Token.isNameChar).isEmpty then none
    else some (t.takeWhile Token.isNameChar, t.dropWhile Token.isNameChar)
  | _ => none

/-- The text after the blanks at its head, of which there has to be one. -/
def afterGap? (t : Text) : Option Text :=
  if t.head?.any Text.isBlank then some (Text.trimStart t) else none

/-- A value is not empty, does not start with `#` and stands on one line. -/
def isValue (t : Text) : Bool := t.head?.any (· != '#') && !t.contains '\n'

/-- The shape of what follows `#column` and a gap. -/
def afterColumn (column rest : Text) : Segment :=
  match readTag? rest with
  | some (operator, []) => named column operator
  | some (operator, rest) =>
    match (afterGap? rest).filter isValue with
    | some value => explicit column operator value
    | none => other
  | none =>
    if rest = ['#'] then opened column
    else if isValue rest then continued column rest
    else other

/-- The shape of a trimmed text. -/
def ofText (t : Text) : Segment :=
  match readTag? t with
  | some (name, []) => tag name
  | some (name, rest) =>
    match afterGap? rest with
    | some rest => afterColumn name rest
    | none => other
  | none => if t = [] ∨ t = ['#'] then blank else other

end Segment

end HashtagSearch
