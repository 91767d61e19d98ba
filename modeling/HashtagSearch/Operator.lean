import HashtagSearch.Naming
import HashtagSearch.ValueType

/-!
# Operators of conditions

Each operator has a name, a label for people and shorter aliases, all of which can
be typed. Which operators a column takes depends on the type of its values.
-/

namespace HashtagSearch

inductive Operator
  | contains
  | notContains
  | equals
  | notEquals
  | startsWith
  | endsWith
  | greaterThan
  | greaterThanOrEqual
  | lessThan
  | lessThanOrEqual
  | inRange
  deriving DecidableEq, Repr

namespace Operator

/-- All operators in the order in which they are offered. -/
def all : List Operator :=
  [contains, notContains, equals, notEquals, startsWith, endsWith, greaterThan,
    greaterThanOrEqual, lessThan, lessThanOrEqual, inRange]

theorem mem_all (o : Operator) : o ∈ all := by cases o <;> simp [all]

def name : Operator → String
  | contains => "contains"
  | notContains => "notContains"
  | equals => "equals"
  | notEquals => "notEquals"
  | startsWith => "startsWith"
  | endsWith => "endsWith"
  | greaterThan => "greaterThan"
  | greaterThanOrEqual => "greaterThanOrEqual"
  | lessThan => "lessThan"
  | lessThanOrEqual => "lessThanOrEqual"
  | inRange => "inRange"

def label : Operator → String
  | contains => "contains"
  | notContains => "does not contain"
  | equals => "equals"
  | notEquals => "does not equal"
  | startsWith => "starts with"
  | endsWith => "ends with"
  | greaterThan => "greater than"
  | greaterThanOrEqual => "greater than or equal"
  | lessThan => "less than"
  | lessThanOrEqual => "less than or equal"
  | inRange => "between"

def aliases : Operator → List String
  | contains => ["has", "like"]
  | notContains => ["excludes"]
  | equals => ["eq", "is", "="]
  | notEquals => ["neq", "ne", "not", "!="]
  | startsWith => ["begins", "prefix"]
  | endsWith => ["suffix"]
  | greaterThan => ["gt", "after", ">"]
  | greaterThanOrEqual => ["gte", "ge", ">="]
  | lessThan => ["lt", "before", "<"]
  | lessThanOrEqual => ["lte", "le", "<="]
  | inRange => ["between", "range"]

/-- The range operator is the only one that takes two values. -/
def isRange : Operator → Bool
  | inRange => true
  | _ => false

theorem isRange_iff {o : Operator} : o.isRange = true ↔ o = inRange := by
  cases o <;> simp [isRange]

/-- Whether a column with values of the given type takes the operator. -/
def supports : Operator → ValueType → Bool
  | equals, _ | notEquals, _ => true
  | contains, t | notContains, t | startsWith, t | endsWith, t => t == .text
  | greaterThan, t | greaterThanOrEqual, t | lessThan, t | lessThanOrEqual, t | inRange, t =>
    t.isOrdered

/-- Everything the operator may be called. -/
def names (o : Operator) : List Text := (o.name :: o.label :: o.aliases).map String.toList

def ofType (t : ValueType) : List Operator := all.filter (supports · t)

@[simp] theorem mem_ofType {o : Operator} {t : ValueType} : o ∈ ofType t ↔ o.supports t := by
  simp [ofType, mem_all]

def resolve? (t : ValueType) (typed : Text) : Option Operator :=
  Naming.resolve? names (ofType t) typed

def suggestions (t : ValueType) (term : Text) : List Operator :=
  Naming.suggestions names (ofType t) term

theorem supports_of_resolve? {t : ValueType} {typed : Text} {o : Operator}
    (h : resolve? t typed = some o) : o.supports t :=
  mem_ofType.1 (Naming.mem_of_resolve? h)

end Operator

end HashtagSearch
