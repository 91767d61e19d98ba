import HashtagSearch.Matching
import HashtagSearch.Proofs.Filters.Shape

/-!
# Answers joined

A group joins the answers of its nodes, and a list joins those of its conditions from left to
right. Either join is associative and commutative and has a unit, so that the order and the
nesting of answers with one join do not count. A group without groups inside is the same search
as the list of its conditions, for every row and in all that a filter shows but the tree.
-/

namespace HashtagSearch

namespace Join

def unit : Join → Bool
  | and => true
  | or => false

def applyAll (j : Join) (answers : List Bool) : Bool := answers.foldr j.apply j.unit

variable {j : Join} {a b : Bool} {answers answers' : List Bool}

theorem apply_comm (j : Join) (a b : Bool) : j.apply a b = j.apply b a := by
  cases j with
  | and => exact Bool.and_comm a b
  | or => exact Bool.or_comm a b

theorem apply_assoc (j : Join) (a b c : Bool) :
    j.apply (j.apply a b) c = j.apply a (j.apply b c) := by
  cases j with
  | and => exact Bool.and_assoc a b c
  | or => exact Bool.or_assoc a b c

@[simp] theorem unit_apply (j : Join) (a : Bool) : j.apply j.unit a = a := by
  cases j with
  | and => exact Bool.true_and a
  | or => exact Bool.false_or a

@[simp] theorem apply_unit (j : Join) (a : Bool) : j.apply a j.unit = a := by
  rw [apply_comm, unit_apply]

@[simp] theorem applyAll_nil (j : Join) : j.applyAll [] = j.unit := rfl

@[simp] theorem applyAll_cons (j : Join) (a : Bool) (answers : List Bool) :
    j.applyAll (a :: answers) = j.apply a (j.applyAll answers) := rfl

theorem applyAll_singleton (j : Join) (a : Bool) : j.applyAll [a] = a := apply_unit j a

theorem applyAll_append (j : Join) (answers answers' : List Bool) :
    j.applyAll (answers ++ answers') = j.apply (j.applyAll answers) (j.applyAll answers') := by
  induction answers with
  | nil => simp
  | cons a answers ih => rw [List.cons_append, applyAll_cons, applyAll_cons, ih, apply_assoc]

theorem applyAll_perm (j : Join) (h : answers.Perm answers') :
    j.applyAll answers = j.applyAll answers' := by
  induction h with
  | nil => rfl
  | cons a _ ih => rw [applyAll_cons, applyAll_cons, ih]
  | swap a b answers =>
    rw [applyAll_cons, applyAll_cons, applyAll_cons, applyAll_cons, ← apply_assoc, ← apply_assoc,
      apply_comm j b a]
  | trans _ _ ih ih' => exact ih.trans ih'

theorem foldl_apply (j : Join) (a : Bool) (answers : List Bool) :
    answers.foldl j.apply a = j.applyAll (a :: answers) := by
  induction answers generalizing a with
  | nil => exact (apply_unit j a).symm
  | cons b answers ih =>
    rw [List.foldl_cons, ih, applyAll_cons, applyAll_cons, applyAll_cons, apply_assoc]

end Join

/-! ## Trees and lists -/

theorem allAccept_eq (row : Row) (es : List Expression) :
    allAccept row es = Join.and.applyAll (es.map (·.accepts row)) := by
  induction es with
  | nil => rfl
  | cons e es ih => rw [allAccept, ih]; rfl

theorem anyAccepts_eq (row : Row) (es : List Expression) :
    anyAccepts row es = Join.or.applyAll (es.map (·.accepts row)) := by
  induction es with
  | nil => rfl
  | cons e es ih => rw [anyAccepts, ih]; rfl

theorem Group.accepts_eq (row : Row) (g : Group) :
    g.accepts row = g.join.applyAll (g.nodes.map (·.accepts row)) := by
  obtain ⟨join, nodes, isExplicit⟩ := g
  cases join with
  | and => exact allAccept_eq row nodes
  | or => exact anyAccepts_eq row nodes

namespace Filter

variable {g : Group} {cs : List Condition}

theorem listAccepts_replicate (row : Row) (first : Condition) (rest : List Condition) (j : Join) :
    listAccepts row first rest (List.replicate rest.length j) =
      j.applyAll ((first :: rest).map (·.accepts row)) := by
  have hzip : rest.zip (List.replicate rest.length j) = rest.map (·, j) := by
    induction rest with
    | nil => rfl
    | cons c rest ih => exact congrArg ((c, j) :: ·) ih
  rw [listAccepts, hzip, List.foldl_map, List.map_cons, ← Join.foldl_apply, List.foldl_map]

/-- A group of conditions gives the filter of the list of these conditions with its join between
them, except that the filter has the group as its tree, and every row gets the same answer from
both. -/
theorem ofGroup?_of_conditions (hne : cs ≠ []) (h : g.nodes = cs.map .condition) :
    ∃ f, ofConditions? cs (List.replicate (cs.length - 1) g.join) = some f ∧ f.group = none ∧
      ofGroup? g = some { f with group := some g } ∧
      ∀ row, { f with group := some g }.accepts row = f.accepts row := by
  obtain ⟨first, rest, rfl⟩ := List.exists_cons_of_ne_nil hne
  have hflat : g.flatConditions? = some (first :: rest) := Group.flatConditions?_eq_some_iff.2 h
  have hleaves : g.leaves = first :: rest := Group.leaves_of_flat hflat
  refine ⟨_, rfl, rfl, ?_, ?_⟩
  · have hfields : decide (1 < ((first :: rest).map (·.field)).eraseDups.length) =
        (first :: rest).any (·.field ≠ first.field) := by
      rw [Bool.eq_iff_iff, decide_eq_true_iff, one_lt_length_eraseDups,
        exists_ne_iff_exists_ne_head]
      simp
    rw [ofGroup?, g.firstLeaf?_eq, hleaves, hflat, hfields]
    rfl
  · intro row
    calc g.accepts row
        = g.join.applyAll ((first :: rest).map (·.accepts row)) := by
          rw [g.accepts_eq, h, List.map_map]
          rfl
      _ = listAccepts row first rest (List.replicate rest.length g.join) :=
          (listAccepts_replicate row first rest g.join).symm

/-- Three conditions on two columns joined by `or`, of which the row satisfies the last. -/
theorem ofGroup?_of_conditions_or : ∃ cs g f,
    cs = [.on ⟨"stock".toList, [], true, .number⟩ .lessThan "3".toList,
      .on ⟨"stock".toList, [], true, .number⟩ .greaterThan "9".toList,
      .on ⟨"name".toList, [], true, .text⟩ .notContains "x".toList] ∧
    g = ⟨.or, cs.map .condition, true⟩ ∧
    ofConditions? cs [.or, .or] = some f ∧ f.isMultiColumn = true ∧ f.group = none ∧
    ofGroup? g = some { f with group := some g } ∧
    f.accepts [("stock".toList, .number (.integer 5))] = true := by
  have hnodes : Group.nodes ⟨.or, _, true⟩ = List.map .condition
      [.on ⟨"stock".toList, [], true, .number⟩ .lessThan "3".toList,
        .on ⟨"stock".toList, [], true, .number⟩ .greaterThan "9".toList,
        .on ⟨"name".toList, [], true, .text⟩ .notContains "x".toList] := rfl
  obtain ⟨f, hlist, hnone, htree, hrow⟩ :=
    ofGroup?_of_conditions (List.cons_ne_nil _ _) hnodes
  refine ⟨_, _, f, rfl, rfl, hlist, ?_, hnone, htree, ?_⟩
  · cases hlist
    decide
  · rw [← hrow]
    cases hlist
    decide +kernel

end Filter

end HashtagSearch
