import HashtagSearch.Text.Basic

/-!
# Ranges of values

A range is written `low #to high`; in a confirmed search `low-high` is read as well.
The mark `#to` has to be followed by a blank or the end, and neither end of the range
may run over several lines. Only the first such mark is looked at.
-/

namespace HashtagSearch

structure ValueRange where
  low : Text
  high : Text
  deriving DecidableEq, Repr

namespace ValueRange

def afterMark? (t : Text) : Option Text :=
  match Text.dropWord? "#to".toList t with
  | some rest => if rest.head?.all Text.isBlank then some rest else none
  | none => none

/-- Whether a mark between the two texts separates ends of a range of one line each. -/
def onOneLine (before after : Text) : Bool :=
  !(Text.trimEnd before).contains '\n' && !(Text.trimStart after).contains '\n'

/-- The text before and after the first mark in `t`, which follows `before`. -/
def splitAtMark? (before : Text) : Text → Option (Text × Text)
  | [] => none
  | c :: t =>
    match (afterMark? (c :: t)).filter (onOneLine before) with
    | some after => some (before, after)
    | none => splitAtMark? (before ++ [c]) t

/-- The range with the two ends trimmed, unless one is blank. -/
def ofEnds? (ends : Text × Text) : Option ValueRange :=
  if (Text.trim ends.1).isEmpty || (Text.trim ends.2).isEmpty then none
  else some ⟨Text.trim ends.1, Text.trim ends.2⟩

/-- The text before and after the first hyphen that is not its first character. -/
def splitAtHyphen? : Text → Option (Text × Text)
  | [] => none
  | c :: t => (Text.splitAtChar? '-' t).map fun (low, high) => (c :: low, high)

/-- The range that a text writes, with a hyphen only if the search is confirmed. -/
def read? (t : Text) (confirmed : Bool) : Option ValueRange :=
  ((splitAtMark? [] (Text.trim t)).bind ofEnds?).or
    (if confirmed then (splitAtHyphen? (Text.trim t)).bind ofEnds? else none)

/-- The low end of a range of which only that and the mark have been typed. -/
def openEnd? (t : Text) : Option Text :=
  match Text.dropWord? "#to".toList.reverse (Text.trim t).reverse with
  | some before =>
    let low := Text.trimEnd before.reverse
    if low.isEmpty || low.contains '\n' then none else some low
  | none => none

end ValueRange

end HashtagSearch
