import HashtagSearch.Tree

/-!
# Filters

A filter is what a search asks of a row: one condition, a list of conditions joined
from left to right, or a tree. It always shows its first condition as the primary
one. Filters that were not read from a search may hold anything; the three ways to
build one keep its parts consistent.
-/

namespace HashtagSearch

structure Filter where
  primary : Condition
  /-- Whether the operator was typed; the shorthand with a colon leaves it out. -/
  isExplicitOperator : Bool
  conditions : List Condition
  joins : List Join
  isMultiCondition : Bool
  isMultiColumn : Bool
  group : Option Group

namespace Filter

/-- The filter with one condition. -/
def single (c : Condition) : Filter where
  primary := c
  isExplicitOperator := true
  conditions := []
  joins := []
  isMultiCondition := false
  isMultiColumn := false
  group := none

/-- The filter with a list of conditions, of which there has to be one. -/
def ofConditions? (conditions : List Condition) (joins : List Join) : Option Filter :=
  conditions.head?.map fun first =>
    { single first with
      conditions := conditions
      joins := joins
      isMultiCondition := 1 < conditions.length
      isMultiColumn := conditions.any (·.field ≠ first.field) }

/-- The filter with conditions and the joins between them. -/
def ofJoined? (s : Joined Condition) : Option Filter := ofConditions? s.items s.joins

/-- The filter with a tree, which has to have a leaf. A group without groups inside is
given as a list as well. -/
def ofGroup? (g : Group) : Option Filter :=
  g.firstLeaf?.map fun first =>
    let flat := g.flatConditions?.getD []
    { single first with
      conditions := flat
      joins := List.replicate (flat.length - 1) g.join
      isMultiCondition := 1 < g.leaves.length
      isMultiColumn := 1 < (g.leaves.map (·.field)).eraseDups.length
      group := some g }

end Filter

end HashtagSearch
