import HashtagSearch.Condition

/-!
# Where operators are offered

Operators are offered at the end of a text when a `#` there follows a column, or a
join keyword with or without a column between. The part of the name typed after that
`#` narrows the offer; the word before it tells which column is meant.
-/

namespace HashtagSearch

namespace Picker

/-- Whether a word is a `#` with a name that holds no further `#`. -/
def isTag (word : Text) : Bool :=
  match word with
  | '#' :: name => !name.isEmpty && !name.contains '#'
  | _ => false

/-- Whether an operator can follow the words: they are one tag, or end with a join
keyword or with such a keyword and a tag. -/
def admitsOperator (words : List Text) : Bool :=
  match words.reverse with
  | [word] => isTag word || Confirmation.isJoinTag word
  | word :: before :: _ =>
    Confirmation.isJoinTag word || (isTag word && Confirmation.isJoinTag before)
  | [] => false

/-- The part of an operator's name at the end of the text, where one can stand. -/
def operatorTerm? (t : Text) : Option Text :=
  match Text.splitAtLast? '#' (Text.trimStart t) with
  | some (before, term) =>
    if !term.any Text.isBlank && before.getLast?.any Text.isBlank &&
        admitsOperator (Text.words before)
    then some term
    else none
  | none => none

def tagName? : Text → Option Text
  | '#' :: name => some name
  | _ => none

/-- The column that an operator at the end of the text belongs to: that of the word before
it or, if that is a join keyword, that of the first word. -/
def operatorColumn? (catalog : Catalog) (t : Text) : Option Column := do
  let (before, _) ← Text.splitAtLast? '#' (Text.trimStart t)
  let words := Text.words before
  let previous ← words.getLast?.bind tagName?
  if (Join.ofKeyword? previous).isSome then catalog.resolve? (← words.head?.bind tagName?)
  else catalog.resolve? previous

end Picker

end HashtagSearch
