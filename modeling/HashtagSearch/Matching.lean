import HashtagSearch.Date
import HashtagSearch.Filter
import HashtagSearch.Json.Printer

/-!
# Rows that satisfy a filter

Cells are JSON values. A text column compares cells and values in small letters, the
other types read both first, and what cannot be read compares with nothing. A row
without a cell, or with null in it, satisfies the negated operators only. Conditions
in a list are joined from left to right without precedence; a tree is evaluated by its
groups.
-/

namespace HashtagSearch

namespace Json

mutual

/-- The text of a cell, unless it is null. The items of an array are listed. -/
def cellText? : Json → Option Text
  | null => none
  | string s => some s
  | array items => some (Text.joinWith ", ".toList (cellTexts items))
  | bool b => some (compact (bool b))
  | number n => some (compact (number n))
  | object entries => some (compact (object entries))

def cellTexts : List Json → List Text
  | [] => []
  | v :: items =>
    match v.cellText? with
    | some t => t :: cellTexts items
    | none => cellTexts items

end

end Json

namespace Matching

def numberOfText? (t : Text) : Option Binary64 := Number.read? (Text.trim t)

def numberOfCell? : Json → Option Binary64
  | .number n => some n.toBinary64
  | .string s => numberOfText? s
  | _ => none

def boolOfText? (t : Text) : Option Bool :=
  let word := Text.lower (Text.trim t)
  if ["true".toList, "yes".toList, "1".toList].contains word then some true
  else if ["false".toList, "no".toList, "0".toList].contains word then some false
  else none

/-- The truth value of a cell. Of the numbers, the integers of 64 bits with a sign have
one. -/
def boolOfCell? : Json → Option Bool
  | .bool b => some b
  | .number (.integer n) => if n < Int.pow 2 63 then some (n ≠ 0) else none
  | .string s => boolOfText? s
  | _ => none

def compareBoth? {α : Type} [Ord α] (a b : Option α) : Option Ordering :=
  a.bind fun a => b.map fun b => compare a b

def compare? (type : ValueType) (cell : Json) (value : Text) : Option Ordering :=
  match type with
  | .text => cell.cellText?.map fun t => compare (Text.lower t) (Text.lower value)
  | .number =>
    (numberOfCell? cell).bind fun a => (numberOfText? value).bind fun b => a.compare? b
  | .date => compareBoth? (cell.cellText?.bind Date.read?) (Date.read? value)
  | .boolean => compareBoth? (boolOfCell? cell) (boolOfText? value)

/-- Whether the text of a cell and a value satisfy a test, both in small letters. -/
def testText (test : Text → Text → Bool) (cell : Json) (value : Text) : Bool :=
  cell.cellText?.any fun t => test (Text.lower value) (Text.lower t)

end Matching

open Matching

/-- Whether a cell that is present satisfies the condition. A range without its second
value is bounded below only. -/
def Condition.acceptsCell (c : Condition) (cell : Json) : Bool :=
  let order := compare? c.column.valueType cell
  match c.operator with
  | .contains => testText Text.hasPart cell c.value
  | .notContains => testText (fun part t => !Text.hasPart part t) cell c.value
  | .startsWith => testText List.isPrefixOf cell c.value
  | .endsWith => testText List.isSuffixOf cell c.value
  | .equals => order c.value == some .eq
  | .notEquals => order c.value != some .eq
  | .greaterThan => order c.value == some .gt
  | .greaterThanOrEqual => (order c.value).any Ordering.isGE
  | .lessThan => order c.value == some .lt
  | .lessThanOrEqual => (order c.value).any Ordering.isLE
  | .inRange =>
    (order c.value).any Ordering.isGE && c.valueTo.all fun high => (order high).any Ordering.isLE

/-- Whether the operator holds where there is no cell. -/
def Operator.isNegated : Operator → Bool
  | notContains | notEquals => true
  | _ => false

def Row.cell? (row : Row) (field : Text) : Option Json :=
  (Json.lookup? field row).filter (!·.isNull)

/-- Whether a row satisfies the condition. -/
def Condition.accepts (c : Condition) (row : Row) : Bool :=
  match Row.cell? row c.field with
  | some cell => c.acceptsCell cell
  | none => c.operator.isNegated

mutual

def Expression.accepts (row : Row) : Expression → Bool
  | .condition c => c.accepts row
  | .group g => g.accepts row

/-- Whether a row satisfies all nodes of the group, or one of them. -/
def Group.accepts (row : Row) : Group → Bool
  | ⟨.and, nodes, _⟩ => allAccept row nodes
  | ⟨.or, nodes, _⟩ => anyAccepts row nodes

def allAccept (row : Row) : List Expression → Bool
  | [] => true
  | e :: es => e.accepts row && allAccept row es

def anyAccepts (row : Row) : List Expression → Bool
  | [] => false
  | e :: es => e.accepts row || anyAccepts row es

end

def Join.apply : Join → Bool → Bool → Bool
  | and, a, b => a && b
  | or, a, b => a || b

namespace Filter

/-- Whether a row satisfies a list of conditions, joined from left to right; what has
no join in front of it does not count. -/
def listAccepts (row : Row) (first : Condition) (rest : List Condition) (joins : List Join) :
    Bool :=
  (rest.zip joins).foldl (fun result (c, join) => join.apply result (c.accepts row))
    (first.accepts row)

/-- Whether a row satisfies the filter: its tree if it has one, else its list, else its
primary condition. -/
def accepts (f : Filter) (row : Row) : Bool :=
  match f.group, f.conditions with
  | some g, _ => g.accepts row
  | none, first :: rest => listAccepts row first rest f.joins
  | none, [] => f.primary.accepts row

end Filter

/-- Whether a searchable column of the row holds the text, which is blank or trimmed. -/
def Row.holdsText (catalog : Catalog) (row : Row) (t : Text) : Bool :=
  let part := Text.lower (Text.trim t)
  part.isEmpty ||
    (catalog.filter (·.searchable)).any fun column =>
      ((Json.lookup? column.field row).bind Json.cellText?).any fun cell =>
        Text.hasPart part (Text.lower cell)

end HashtagSearch
