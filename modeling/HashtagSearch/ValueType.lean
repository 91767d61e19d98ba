/-!
# Types of column values
-/

namespace HashtagSearch

inductive ValueType
  | text
  | number
  | date
  | boolean
  deriving DecidableEq, Repr

namespace ValueType

def all : List ValueType := [text, number, date, boolean]

def name : ValueType → String
  | text => "text"
  | number => "number"
  | date => "date"
  | boolean => "boolean"

/-- Numbers and dates are ordered, so ranges and bounds make sense for them. -/
def isOrdered : ValueType → Bool
  | number | date => true
  | text | boolean => false

end ValueType

end HashtagSearch
