import HashtagSearch.Proofs.Matching.Joining

/-!
# Opposite searches

To equal and to contain have opposites among the operators, and `and` is the opposite of `or`. A
search that asks nothing else is answered the other way round when each operator and each join
is replaced by its opposite. That includes the cells that are missing, null or cannot be read,
because each operator of a pair has its own rule for them.
-/

namespace HashtagSearch

/-! ## Opposites -/

def Join.opposite : Join → Join
  | and => or
  | or => and

namespace Operator

/-- The operator that denies this one; other operators stay as they are. -/
def opposite : Operator → Operator
  | contains => notContains
  | notContains => contains
  | equals => notEquals
  | notEquals => equals
  | o => o

/-- Whether one of the operators denies this one. -/
def hasOpposite : Operator → Bool
  | contains | notContains | equals | notEquals => true
  | _ => false

end Operator

def Condition.opposite (c : Condition) : Condition := { c with operator := c.operator.opposite }

mutual

def Expression.opposite : Expression → Expression
  | .condition c => .condition c.opposite
  | .group g => .group g.opposite

def Group.opposite : Group → Group
  | ⟨join, nodes, isExplicit⟩ => ⟨join.opposite, oppositesOf nodes, isExplicit⟩

def oppositesOf : List Expression → List Expression
  | [] => []
  | e :: es => e.opposite :: oppositesOf es

end

namespace Filter

/-- The filter with all operators and all joins replaced by their opposites. -/
def opposite (f : Filter) : Filter :=
  { f with
    primary := f.primary.opposite
    conditions := f.conditions.map Condition.opposite
    joins := f.joins.map Join.opposite
    group := f.group.map Group.opposite }

/-- The conditions that the answer of a filter can depend on. Those of a list that have no join
in front of them are not among them. -/
def consulted (f : Filter) : List Condition :=
  match f.group, f.conditions with
  | some g, _ => g.leaves
  | none, first :: rest => first :: rest.take f.joins.length
  | none, [] => [f.primary]

end Filter

/-! ## Joins -/

namespace Join

theorem opposite_apply (j : Join) (a b : Bool) : j.opposite.apply (!a) (!b) = !j.apply a b := by
  cases j with
  | and => exact (Bool.not_and a b).symm
  | or => exact (Bool.not_or a b).symm

theorem opposite_applyAll (j : Join) (answers : List Bool) :
    j.opposite.applyAll (answers.map (!·)) = !j.applyAll answers := by
  induction answers with
  | nil => cases j <;> rfl
  | cons a answers ih =>
    rw [List.map_cons, applyAll_cons, ih, opposite_apply, applyAll_cons]

end Join

/-! ## Conditions -/

theorem Json.exists_cellText {cell : Json} (h : cell.isNull = false) :
    ∃ t, cell.cellText? = some t := by
  cases cell with
  | null => cases h
  | bool | number | string | array | object => exact ⟨_, by rw [cellText?]⟩

theorem Row.isNull_of_cell? {row : Row} {field : Text} {cell : Json}
    (h : Row.cell? row field = some cell) : cell.isNull = false := by
  obtain ⟨-, hnull⟩ := Option.filter_eq_some_iff.1 h
  simpa using hnull

namespace Condition

variable {c : Condition} {cell : Json}

theorem acceptsCell_opposite (h : c.operator.hasOpposite = true) (hcell : cell.isNull = false) :
    c.opposite.acceptsCell cell = !c.acceptsCell cell := by
  obtain ⟨t, ht⟩ := Json.exists_cellText hcell
  obtain ⟨field, column, operator, value, valueTo⟩ := c
  cases operator with
  | contains | notContains =>
    simp [opposite, Operator.opposite, acceptsCell, Matching.testText, ht]
  | equals | notEquals => simp [opposite, Operator.opposite, acceptsCell, bne]
  | startsWith | endsWith | greaterThan | greaterThanOrEqual | lessThan | lessThanOrEqual
  | inRange => cases h

/-- Without a cell the negated operator of a pair holds. -/
theorem isNegated_opposite {o : Operator} (h : o.hasOpposite = true) :
    o.opposite.isNegated = !o.isNegated := by
  cases o with
  | contains | notContains | equals | notEquals => rfl
  | startsWith | endsWith | greaterThan | greaterThanOrEqual | lessThan | lessThanOrEqual
  | inRange => cases h

theorem accepts_opposite (h : c.operator.hasOpposite = true) (row : Row) :
    c.opposite.accepts row = !c.accepts row := by
  have hfield : c.opposite.field = c.field := rfl
  rw [accepts, accepts, hfield]
  cases hcell : Row.cell? row c.field with
  | none => exact isNegated_opposite h
  | some cell => exact acceptsCell_opposite h (Row.isNull_of_cell? hcell)

end Condition

/-! ## Trees and lists -/

mutual

theorem Expression.accepts_opposite (row : Row) (e : Expression)
    (h : ∀ c ∈ e.leaves, c.operator.hasOpposite = true) :
    e.opposite.accepts row = !e.accepts row := by
  match e with
  | .condition c => exact c.accepts_opposite (h c (List.mem_singleton_self c)) row
  | .group g => exact g.accepts_opposite row h

theorem Group.accepts_opposite (row : Row) (g : Group)
    (h : ∀ c ∈ g.leaves, c.operator.hasOpposite = true) :
    g.opposite.accepts row = !g.accepts row := by
  match g with
  | ⟨join, nodes, isExplicit⟩ =>
    rw [Group.opposite, Group.accepts_eq, Group.accepts_eq, answers_opposite row nodes h,
      Join.opposite_applyAll]

theorem answers_opposite (row : Row) (es : List Expression)
    (h : ∀ c ∈ leavesOf es, c.operator.hasOpposite = true) :
    (oppositesOf es).map (·.accepts row) = (es.map (·.accepts row)).map (!·) := by
  match es with
  | [] => rfl
  | e :: es =>
    rw [oppositesOf, List.map_cons, List.map_cons, List.map_cons,
      e.accepts_opposite row fun c hc => h c (List.mem_append_left _ hc),
      answers_opposite row es fun c hc => h c (List.mem_append_right _ hc)]

end

namespace Filter

variable {f : Filter} {first : Condition} {rest : List Condition} {joins : List Join}

/-- Each step through a list turns opposite answers into opposite answers. -/
theorem listAccepts_opposite (row : Row)
    (h : ∀ c ∈ first :: rest.take joins.length, c.operator.hasOpposite = true) :
    listAccepts row first.opposite (rest.map Condition.opposite) (joins.map Join.opposite) =
      !listAccepts row first rest joins := by
  have hfirst := first.accepts_opposite (h first List.mem_cons_self) row
  have hrest : ∀ c ∈ rest.take joins.length, c.operator.hasOpposite = true :=
    fun c hc => h c (List.mem_cons_of_mem first hc)
  rw [listAccepts, listAccepts, hfirst]
  clear h hfirst
  generalize first.accepts row = result
  induction rest generalizing joins result with
  | nil => rfl
  | cons c rest ih =>
    cases joins with
    | nil => rfl
    | cons join joins =>
      have hstep : join.opposite.apply (!result) (c.opposite.accepts row) =
          !join.apply result (c.accepts row) := by
        rw [c.accepts_opposite (hrest c List.mem_cons_self) row, Join.opposite_apply]
      simp only [List.map_cons, List.zip_cons_cons, List.foldl_cons, hstep]
      apply ih
      intro c' hc'
      exact hrest c' (List.mem_cons_of_mem c hc')

/-- A filter whose conditions all have an opposite answers no row as its opposite does. -/
theorem accepts_opposite_of_consulted (h : ∀ c ∈ f.consulted, c.operator.hasOpposite = true)
    (row : Row) : f.opposite.accepts row = !f.accepts row := by
  obtain ⟨primary, isExplicitOperator, conditions, joins, isMulti, isMultiColumn, group⟩ := f
  cases group with
  | some g => exact g.accepts_opposite row h
  | none =>
    cases conditions with
    | nil => exact primary.accepts_opposite (h primary (List.mem_singleton_self primary)) row
    | cons first rest => exact listAccepts_opposite row h

/-- A tree over a missing cell, a null and a date that is compared with no date. -/
theorem accepts_opposite_of_consulted_tree : ∃ f : Filter,
    f.group = some ⟨.and, [.condition (.on ⟨"name".toList, [], true, .text⟩ .notContains ['x']),
      .group ⟨.or, [.condition (.on ⟨"stock".toList, [], true, .number⟩ .equals ['5']),
        .condition (.on ⟨"due".toList, [], true, .date⟩ .notEquals "soon".toList)], true⟩],
      true⟩ ∧
    (∀ c ∈ f.consulted, c.operator.hasOpposite = true) ∧
    f.accepts [("stock".toList, .null), ("due".toList, .string "2024-01-01".toList)] = true ∧
    f.opposite.accepts [("stock".toList, .null), ("due".toList, .string "2024-01-01".toList)] =
      false := by
  refine ⟨{ single (.on ⟨"name".toList, [], true, .text⟩ .notContains ['x']) with group := some _ },
    rfl, by decide, by decide +kernel, ?_⟩
  rw [accepts_opposite_of_consulted (by decide)]
  decide +kernel

end Filter

end HashtagSearch
