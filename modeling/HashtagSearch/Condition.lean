import HashtagSearch.Column
import HashtagSearch.Confirmation
import HashtagSearch.Segment
import HashtagSearch.ValueRange

/-!
# Conditions

A condition compares the cells of a column with a value, or with two in the case of a
range. `Condition.ofText?` reads one that is finished; where it names no column, the
default column is meant.
-/

namespace HashtagSearch

structure Condition where
  field : Text
  column : Column
  operator : Operator
  value : Text
  valueTo : Option Text := none
  deriving DecidableEq, Repr

namespace Condition

def on (column : Column) (operator : Operator) (value : Text) (valueTo : Option Text := none) :
    Condition :=
  ⟨column.field, column, operator, value, valueTo⟩

/-- A range that has a lower end only. -/
def isIncompleteRange (c : Condition) : Bool := c.operator.isRange && c.valueTo.isNone

/-- The condition with a trimmed value, which the range operator splits where it can. -/
def ofTrimmed? (column : Column) (operator : Operator) (value : Text) : Option Condition :=
  if value.isEmpty || Confirmation.holdsTag value operator.isRange then none
  else if operator.isRange then
    match ValueRange.read? value true with
    | some range => some (on column operator range.low (some range.high))
    | none => some (on column operator value)
  else some (on column operator value)

def ofValue? (column : Column) (operator : Operator) (raw : Text) : Option Condition :=
  ofTrimmed? column operator (Text.trim raw)

/-- The column and its operator that two names mean. -/
def resolve? (catalog : Catalog) (column operator : Text) : Option (Column × Operator) :=
  (catalog.resolve? column).bind fun c => (Operator.resolve? c.valueType operator).map (c, ·)

theorem known_of_resolve? {catalog : Catalog} {name operatorName : Text} {column : Column}
    {operator : Operator} (h : resolve? catalog name operatorName = some (column, operator)) :
    column ∈ catalog ∧ operator.supports column.valueType = true := by
  obtain ⟨k, hk, h⟩ := Option.bind_eq_some_iff.1 h
  obtain ⟨o, ho, heq⟩ := Option.map_eq_some_iff.1 h
  cases heq
  exact ⟨Catalog.mem_of_resolve? hk, Operator.supports_of_resolve? ho⟩

/-- The condition that a finished segment writes. -/
def ofText? (defaultColumn : Option Column) (catalog : Catalog) (t : Text) : Option Condition :=
  match Segment.ofText (Confirmation.strip t) with
  | .explicit column operator value =>
    (resolve? catalog column operator).bind fun (c, o) => ofValue? c o value
  | .continued operator value =>
    defaultColumn.bind fun c =>
      (Operator.resolve? c.valueType operator).bind fun o => ofValue? c o value
  | _ => none

end Condition

end HashtagSearch
