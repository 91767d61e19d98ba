import HashtagSearch.Filter

/-!
# Text that begins or repeats a search

Picking a column puts its field into the search bar; a filter can be typed again with
another value.
-/

namespace HashtagSearch

/-- What follows the field of a picked column. -/
inductive PatternMode
  | colon
  | space
  | bare
  deriving DecidableEq, Repr

def PatternMode.all : List PatternMode := [.colon, .space, .bare]

def PatternMode.ending : PatternMode → Text
  | .colon => [':']
  | .space => [' ']
  | .bare => []

/-- The text that begins a search on a column. -/
def Column.pattern (c : Column) (mode : PatternMode) : Text := '#' :: c.field ++ mode.ending

/-- The text of a filter's primary condition with another value. -/
def Filter.pattern (f : Filter) (value : Text) : Text :=
  if f.isExplicitOperator then
    '#' :: f.primary.field ++ [' ', '#'] ++ f.primary.operator.name.toList ++ [' '] ++
      Text.trim value
  else '#' :: f.primary.field ++ [':'] ++ Text.trim value

end HashtagSearch
