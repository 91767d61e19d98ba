import HashtagSearch.Json.Decoding
import HashtagSearch.Outcome

/-!
# Searches as JSON

Everything that a search is made of has a JSON shape. Values that are missing are left
out of it. The shapes that can also be given to the program are decoded as well, and a
value is what decoding its shape yields.
-/

namespace HashtagSearch

open Json

/-! ## Columns and conditions -/

def ValueType.toJson (t : ValueType) : Json := ofString t.name

def ValueType.ofJson? : Nesting → Json → Option ValueType := named? ValueType.name ValueType.all

def Operator.toJson (o : Operator) : Json := ofString o.name

def Operator.ofJson? : Nesting → Json → Option Operator := named? Operator.name Operator.all

def Join.toJson (j : Join) : Json := ofString j.name

def Join.ofJson? : Nesting → Json → Option Join := named? Join.name [.and, .or]

def Column.toJson (c : Column) : Json :=
  record
    [("field", string c.field), ("displayName", string c.displayName),
      ("searchable", bool c.searchable), ("valueType", c.valueType.toJson)]

def Column.fieldNames : List String := ["field", "displayName", "searchable", "valueType"]

def Column.ofFields? (valueType? : Json → Option ValueType) (get : String → Option Json) :
    Option Column := do
  let field ← (get "field").bind text?
  let displayName ← orDefault? [] text? (get "displayName")
  let searchable ← orDefault? true bool? (get "searchable")
  let valueType ← orDefault? .text valueType? (get "valueType")
  return ⟨field, displayName, searchable, valueType⟩

def Column.ofJson? (nesting : Nesting) (v : Json) : Option Column :=
  (fields? Column.fieldNames v).bind (Column.ofFields? (ValueType.ofJson? nesting))

def Catalog.ofJson? : Json → Option Catalog := list? (Column.ofJson? .outside)

def Condition.entries (c : Condition) : List (String × Json) :=
  [("field", string c.field), ("column", c.column.toJson), ("operator", c.operator.toJson),
    ("value", string c.value)] ++ optional "valueTo" string c.valueTo

def Condition.toJson (c : Condition) : Json := record c.entries

def Condition.ofJson? (nesting : Nesting) (v : Json) : Option Condition := do
  let get ← fields? ["field", "column", "operator", "value", "valueTo"] v
  let field ← (get "field").bind text?
  let column ← (get "column").bind (Column.ofJson? nesting)
  let operator ← (get "operator").bind (Operator.ofJson? nesting)
  let value ← (get "value").bind text?
  let valueTo ← optional? text? (get "valueTo")
  return ⟨field, column, operator, value, valueTo⟩

/-! ## Trees -/

mutual

/-- An expression has its kind as an entry beside those of the condition or group. -/
def Expression.toJson : Expression → Json
  | .condition c => record (("type", ofString "condition") :: c.entries)
  | .group g => record (("type", ofString "group") :: g.entries)

def Group.entries : Group → List (String × Json)
  | ⟨join, nodes, isExplicit⟩ =>
    [("join", join.toJson), ("nodes", array (nodesToJson nodes)), ("isExplicit", bool isExplicit)]

def nodesToJson : List Expression → List Json
  | [] => []
  | e :: es => e.toJson :: nodesToJson es

end

def Group.toJson (g : Group) : Json := record g.entries

/-- The group with the given fields, all of which it needs. -/
def Group.ofFields? (nesting : Nesting) (join : Option Json) (nodes : Option (List Expression))
    (isExplicit : Option Json) : Option Group := do
  let join ← join.bind (Join.ofJson? nesting)
  let nodes ← nodes
  let isExplicit ← isExplicit.bind bool?
  return ⟨join, nodes, isExplicit⟩

inductive NodeKind
  | condition
  | group
  deriving DecidableEq, Repr

/-- A kind by its name; inside of a node its number will do. -/
def NodeKind.ofJson? : Nesting → Json → Option NodeKind
  | _, .string s =>
    if s = "condition".toList then some condition
    else if s = "group".toList then some group
    else none
  | .inside, .number (.integer n) =>
    if n = 0 then some condition else if n = 1 then some group else none
  | _, _ => none

mutual

/-- The expression that a value writes; what it consists of is inside of a node. -/
def Expression.ofJson? : Nesting → Json → Option Expression
  | nesting, .object entries =>
    match (lookup? "type".toList entries).bind (NodeKind.ofJson? nesting) with
    | some .condition => (Condition.ofJson? .inside (.object entries)).map .condition
    | some .group =>
      (Group.ofFields? .inside (lookup? "join".toList entries) (nodesUnder? .inside entries)
        (lookup? "isExplicit".toList entries)).map .group
    | none => none
  | nesting, .array (kind :: items) =>
    match NodeKind.ofJson? nesting kind with
    | some .condition => (Condition.ofJson? .inside (.array items)).map .condition
    | some .group =>
      if items.length ≤ 3 then
        (Group.ofFields? .inside items[0]? (nodesAt? .inside 1 items) items[2]?).map .group
      else none
    | none => none
  | _, _ => none

def nodes? : Nesting → Json → Option (List Expression)
  | nesting, .array items => expressions? nesting items
  | _, _ => none

def expressions? : Nesting → List Json → Option (List Expression)
  | _, [] => some []
  | nesting, v :: items =>
    match Expression.ofJson? nesting v, expressions? nesting items with
    | some e, some es => some (e :: es)
    | _, _ => none

def nodesUnder? : Nesting → List (Text × Json) → Option (List Expression)
  | _, [] => none
  | nesting, (key, v) :: entries =>
    if key = "nodes".toList then nodes? nesting v else nodesUnder? nesting entries

def nodesAt? : Nesting → Nat → List Json → Option (List Expression)
  | _, _, [] => none
  | nesting, 0, v :: _ => nodes? nesting v
  | nesting, n + 1, _ :: items => nodesAt? nesting n items

end

/-- The group that a value writes outside of all nodes. -/
def Group.ofJson? : Json → Option Group
  | .object entries =>
    Group.ofFields? .outside (lookup? "join".toList entries) (nodesUnder? .outside entries)
      (lookup? "isExplicit".toList entries)
  | .array items =>
    if items.length ≤ 3 then
      Group.ofFields? .outside items[0]? (nodesAt? .outside 1 items) items[2]?
    else none
  | _ => none

/-! ## Filters -/

def Filter.toJson (f : Filter) : Json :=
  record
    (f.primary.entries ++
      [("isExplicitOperator", bool f.isExplicitOperator),
        ("conditions", ofList Condition.toJson f.conditions),
        ("joins", ofList Join.toJson f.joins),
        ("isMultiCondition", bool f.isMultiCondition),
        ("isMultiColumn", bool f.isMultiColumn)] ++
      optional "filterGroup" Group.toJson f.group)

def Filter.fieldNames : List String :=
  ["field", "column", "operator", "value", "valueTo", "isExplicitOperator", "conditions", "joins",
    "isMultiCondition", "isMultiColumn", "filterGroup"]

def Filter.ofJson? (v : Json) : Option Filter := do
  let get ← fields? Filter.fieldNames v
  let field ← (get "field").bind text?
  let column ← (get "column").bind (Column.ofJson? .outside)
  let operator ← (get "operator").bind (Operator.ofJson? .outside)
  let value ← (get "value").bind text?
  let valueTo ← optional? text? (get "valueTo")
  let isExplicitOperator ← (get "isExplicitOperator").bind bool?
  let conditions ← orDefault? [] (list? (Condition.ofJson? .outside)) (get "conditions")
  let joins ← orDefault? [] (list? (Join.ofJson? .outside)) (get "joins")
  let isMultiCondition ← (get "isMultiCondition").bind bool?
  let isMultiColumn ← (get "isMultiColumn").bind bool?
  let group ← optional? Group.ofJson? (get "filterGroup")
  return {
    primary := ⟨field, column, operator, value, valueTo⟩
    isExplicitOperator, conditions, joins, isMultiCondition, isMultiColumn, group }

/-! ## Searches that are being typed -/

def Draft.toJson (d : Draft) : Json :=
  record
    (optional "field" string d.field ++ optional "column" Column.toJson d.column ++
      optional "operator" Operator.toJson d.operator ++ optional "value" string d.value ++
      optional "valueTo" string d.valueTo ++ [("waitingForValueTo", bool d.waitingForValueTo)])

def Draft.ofJson? (v : Json) : Option Draft := do
  let get ← fields? ["field", "column", "operator", "value", "valueTo", "waitingForValueTo"] v
  let field ← optional? text? (get "field")
  let column ← optional? (Column.ofJson? .outside) (get "column")
  let operator ← optional? (Operator.ofJson? .outside) (get "operator")
  let value ← optional? text? (get "value")
  let valueTo ← optional? text? (get "valueTo")
  let waitingForValueTo ← orDefault? false bool? (get "waitingForValueTo")
  return { field, column, operator, value, valueTo, waitingForValueTo }

def TypingState.toJson (s : TypingState) : Json :=
  record
    ([("partialConditions", ofList Draft.toJson s.drafts.items),
      ("joins", ofList Join.toJson s.drafts.joins),
      ("showColumnSelector", bool (s.selector == some .column)),
      ("showOperatorSelector", bool (s.selector == some .operator)),
      ("showJoinOperatorSelector", bool (s.selector == some .join)),
      ("activeConditionIndex", ofNat s.activeIndex),
      ("isConfirmed", bool s.isConfirmed)] ++
      optional "filterSearch" Filter.toJson s.preview)

def Outcome.kind : Outcome → String
  | empty => "empty"
  | freeText _ => "freeText"
  | filter _ => "filter"
  | typing _ => "typing"
  | unresolved => "unresolved"

def Outcome.toJson (o : Outcome) : Json :=
  let result :=
    match o with
    | empty | unresolved => []
    | freeText t => [("result", string t)]
    | filter f => [("result", f.toJson)]
    | typing s => [("result", s.toJson)]
  record (("kind", ofString o.kind) :: result)

/-! ## Rows -/

def Row.ofJson? : Json → Option Row
  | .object entries => some entries
  | _ => none

def Row.toJson (row : Row) : Json := .object row

end HashtagSearch
