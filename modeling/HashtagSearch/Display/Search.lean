import HashtagSearch.Display.Table
import HashtagSearch.Outcome

/-!
# Searches for people

A filter is shown as a table of its conditions, or as an indented tree when it holds
groups that no list can express. A search that is being typed is shown as a table of
its drafts with what the search bar offers.
-/

namespace HashtagSearch

namespace Display

def heading (colours : Bool) (title : String) : Text :=
  if colours then Table.line (Style.bold.wrap (Style.green.wrap title.toList))
  else Table.line title.toList

def conditionWidths : List Nat := [4, 5, 16, 20, 16, 0]

def conditionHeader (colours : Bool) : Text :=
  Table.header colours
    (Table.row conditionWidths
      (["#", "Join", "Field", "Operator", "Value", "To"].map String.toList))

/-- A condition or draft as a line of the table. -/
def conditionLine (marker join field operator value valueTo : Text) : Text :=
  Table.line
    (Table.row conditionWidths
      [marker, join, Table.clip 16 field, operator, Table.clip 16 value, valueTo])

/-- The join in front of the item at an index, if there is one. -/
def joinBefore (joins : List Join) : Nat → Text
  | 0 => []
  | i + 1 => (joins[i]?.map fun j => j.name.toList).getD []

def conditionText (c : Condition) : Text :=
  Text.joinWith [' ']
    ([c.field, c.operator.name.toList, c.value] ++
      (c.valueTo.map fun high => ["..".toList, high]).getD [])

def indentation (depth : Nat) : Text := List.replicate (2 * depth) ' '

def joinText (colours : Bool) (j : Join) : Text :=
  if colours then Style.bold.wrap j.name.toList else j.name.toList

def groupKind (isExplicit : Bool) : String := if isExplicit then " (group)" else " (root)"

mutual

/-- A group and below it its nodes. -/
def groupLines (colours : Bool) (depth : Nat) : Group → Text
  | ⟨join, nodes, isExplicit⟩ =>
    Table.line (indentation depth ++ joinText colours join ++ (groupKind isExplicit).toList) ++
      nodeLines colours (depth + 1) nodes

def nodeLines (colours : Bool) (depth : Nat) : List Expression → Text
  | [] => []
  | .condition c :: nodes =>
    Table.line (indentation depth ++ conditionText c) ++ nodeLines colours depth nodes
  | .group g :: nodes => groupLines colours depth g ++ nodeLines colours depth nodes

end

def conditionLines (joins : List Join) (conditions : List Condition) : Text :=
  conditions.zipIdx.flatMap fun (c, i) =>
    conditionLine (Text.ofNat (i + 1)) (joinBefore joins i) c.field c.operator.name.toList c.value
      (c.valueTo.getD [])

def filter (colours : Bool) (f : Filter) : Text :=
  heading colours "Filter" ++
    match f.group, f.conditions with
    | some g, [] => groupLines colours 0 g
    | _, conditions =>
      conditionHeader colours ++
        conditionLines f.joins (if conditions.isEmpty then [f.primary] else conditions) ++
        if f.isExplicitOperator then [] else "(shorthand)\n".toList

/-- The line of a draft; the one that is being edited is marked. -/
def draftLine (s : TypingState) (d : Draft) (i : Nat) : Text :=
  conditionLine ((if i = s.activeIndex then ['>'] else []) ++ Text.ofNat (i + 1))
    (joinBefore s.drafts.joins i) (d.field.getD ['?'])
    ((d.operator.map fun o => o.name.toList).getD ['?']) (d.value.getD [])
    (if d.waitingForValueTo then "...".toList else d.valueTo.getD [])

def draftLines (s : TypingState) : Text :=
  s.drafts.items.zipIdx.flatMap fun (d, i) => draftLine s d i

def selectorName : Option Selector → String
  | none => "none"
  | some .column => "column"
  | some .operator => "operator"
  | some .join => "join"

/-- How many conditions the preview applies. -/
def previewText : Option Filter → Text
  | none => "none".toList
  | some f => Text.ofNat (max f.conditions.length 1) ++ " condition(s)".toList

def labelled (label : String) (t : Text) : Text := Table.line (label.toList ++ [':', ' '] ++ t)

/-- What the search bar offers, below the drafts. -/
def typingLines (s : TypingState) : Text :=
  ['\n'] ++ labelled "Selector" (selectorName s.selector).toList ++
    labelled "Confirmed" (if s.isConfirmed then "yes" else "no").toList ++
    labelled "Preview" (previewText s.preview)

def typing (colours : Bool) (s : TypingState) : Text :=
  heading colours "Typing" ++ conditionHeader colours ++ draftLines s ++ typingLines s

def outcome (colours : Bool) : Outcome → Text
  | .empty => "Empty search.\n".toList
  | .freeText t => labelled "Free text" t
  | .filter f => filter colours f
  | .typing s => typing colours s
  | .unresolved => "Unresolved.\n".toList

end Display

end HashtagSearch
