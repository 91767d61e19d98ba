import HashtagSearch.Condition

/-!
# Trees of conditions

Parentheses make a search a tree: a group joins its nodes with one join, and a node
is a condition or a group again. The leaves of a tree are its conditions from left
to right.
-/

namespace HashtagSearch

mutual

inductive Expression
  | condition (c : Condition)
  | group (g : Group)

/-- Nodes with the same join between all of them. A group that was not typed with
parentheses is not explicit. -/
structure Group where
  join : Join
  nodes : List Expression
  isExplicit : Bool

end

mutual

/-- The conditions of an expression from left to right. -/
def Expression.leaves : Expression → List Condition
  | .condition c => [c]
  | .group g => g.leaves

def Group.leaves : Group → List Condition
  | ⟨_, nodes, _⟩ => leavesOf nodes

def leavesOf : List Expression → List Condition
  | [] => []
  | e :: es => e.leaves ++ leavesOf es

end

mutual

/-- The leftmost condition of an expression, found without visiting the others. -/
def Expression.firstLeaf? : Expression → Option Condition
  | .condition c => some c
  | .group g => g.firstLeaf?

def Group.firstLeaf? : Group → Option Condition
  | ⟨_, nodes, _⟩ => firstLeafOf? nodes

def firstLeafOf? : List Expression → Option Condition
  | [] => none
  | e :: es =>
    match e.firstLeaf? with
    | some c => some c
    | none => firstLeafOf? es

end

def Expression.condition? : Expression → Option Condition
  | .condition c => some c
  | .group _ => none

def Group.flatConditions? (g : Group) : Option (List Condition) :=
  g.nodes.mapM Expression.condition?

end HashtagSearch
