import HashtagSearch.Proofs.Matching.Joining
import Mathlib.Logic.Relation

/-!
# Trees regrouped

A tree can be written in many ways: the nodes of a group in another order, and without the
parentheses around a group that is joined as its surroundings are, or has one node only.
`Group.Regroups` is one such change, anywhere in the tree. It keeps the answer to every row, and
so does any number of changes.
-/

namespace HashtagSearch

/-- The second tree is the first with one change somewhere inside. -/
inductive Group.Regroups : Group → Group → Prop
  | permute {join : Join} {nodes nodes' : List Expression} {isExplicit : Bool}
      (h : nodes.Perm nodes') : Regroups ⟨join, nodes, isExplicit⟩ ⟨join, nodes', isExplicit⟩
  | splice {join : Join} {before after : List Expression} {g : Group} {isExplicit : Bool}
      (h : g.join = join ∨ g.nodes.length = 1) :
      Regroups ⟨join, before ++ .group g :: after, isExplicit⟩
        ⟨join, before ++ g.nodes ++ after, isExplicit⟩
  | inside {join : Join} {before after : List Expression} {g g' : Group} {isExplicit : Bool}
      (h : Regroups g g') :
      Regroups ⟨join, before ++ .group g :: after, isExplicit⟩
        ⟨join, before ++ .group g' :: after, isExplicit⟩

namespace Group

variable {g g' : Group}

/-- What a nested group answers, joined with the join around it. -/
theorem accepts_of_join_eq_or_single {join : Join} (row : Row)
    (h : g.join = join ∨ g.nodes.length = 1) :
    g.accepts row = join.applyAll (g.nodes.map (·.accepts row)) := by
  rw [accepts_eq]
  rcases h with rfl | h
  · rfl
  · obtain ⟨e, he⟩ := List.length_eq_one_iff.1 h
    rw [he, List.map_singleton, Join.applyAll_singleton, Join.applyAll_singleton]

/-- The answer of a group, seen from one place in it. -/
theorem accepts_append (row : Row) (join : Join) (before nodes after : List Expression)
    (isExplicit : Bool) :
    accepts row ⟨join, before ++ nodes ++ after, isExplicit⟩ =
      join.apply (join.apply (join.applyAll (before.map (·.accepts row)))
        (join.applyAll (nodes.map (·.accepts row))))
        (join.applyAll (after.map (·.accepts row))) := by
  rw [accepts_eq, List.map_append, List.map_append, Join.applyAll_append, Join.applyAll_append]

theorem accepts_nested (row : Row) (join : Join) (before after : List Expression)
    (isExplicit : Bool) (g : Group) :
    accepts row ⟨join, before ++ .group g :: after, isExplicit⟩ =
      join.apply (join.apply (join.applyAll (before.map (·.accepts row))) (g.accepts row))
        (join.applyAll (after.map (·.accepts row))) := by
  have h := accepts_append row join before [.group g] after isExplicit
  rw [List.append_assoc, List.singleton_append, List.map_singleton, Join.applyAll_singleton] at h
  exact h

theorem Regroups.accepts_eq (h : g.Regroups g') (row : Row) : g'.accepts row = g.accepts row := by
  induction h with
  | permute h =>
    rw [Group.accepts_eq, Group.accepts_eq]
    exact (Join.applyAll_perm _ (h.map _)).symm
  | splice h => rw [accepts_append, accepts_nested, accepts_of_join_eq_or_single row h]
  | inside _ ih => rw [accepts_nested, accepts_nested, ih]

/-- Any number of changes keep the answer of a tree to every row, and with it those of the filters
that have the tree. -/
theorem accepts_of_regroups (h : Relation.ReflTransGen Regroups g g') (row : Row) :
    g'.accepts row = g.accepts row ∧
      ∀ f f' : Filter, f.group = some g → f'.group = some g' → f'.accepts row = f.accepts row := by
  have htree : g'.accepts row = g.accepts row := by
    induction h with
    | refl => rfl
    | tail _ hstep ih => exact (hstep.accepts_eq row).trans ih
  refine ⟨htree, ?_⟩
  intro f f' hf hf'
  rw [Filter.accepts, Filter.accepts, hf, hf']
  exact htree

/-- Parentheses around one condition are dropped inside a group, and the group changes places. -/
theorem accepts_of_regroups_nested : ∃ (g g' : Group) (f f' : Filter),
    f.group = some g ∧ f'.group = some g' ∧
    g = ⟨.and, [.condition (.on ⟨"name".toList, [], true, .text⟩ .contains ['a']),
      .group ⟨.or, [.condition (.on ⟨"stock".toList, [], true, .number⟩ .lessThan ['5']),
        .group ⟨.and, [.condition (.on ⟨"name".toList, [], true, .text⟩ .endsWith ['n'])],
          true⟩], true⟩], false⟩ ∧
    g' = ⟨.and, [.group ⟨.or,
        [.condition (.on ⟨"stock".toList, [], true, .number⟩ .lessThan ['5']),
          .condition (.on ⟨"name".toList, [], true, .text⟩ .endsWith ['n'])], true⟩,
      .condition (.on ⟨"name".toList, [], true, .text⟩ .contains ['a'])], false⟩ ∧
    Relation.ReflTransGen Regroups g g' ∧
    f.accepts [("name".toList, .string "Aspirin".toList)] = true ∧
    f'.accepts [("name".toList, .string "Aspirin".toList)] = true := by
  have hsteps : ∀ a b c : Expression, Relation.ReflTransGen Regroups
      ⟨.and, [a, .group ⟨.or, [b, .group ⟨.and, [c], true⟩], true⟩], false⟩
      ⟨.and, [.group ⟨.or, [b, c], true⟩, a], false⟩ := by
    intro a b c
    have hsplice : Regroups ⟨.or, [b, .group ⟨.and, [c], true⟩], true⟩ ⟨.or, [b, c], true⟩ :=
      @Regroups.splice .or [b] [] _ true (.inr rfl)
    have hinside := @Regroups.inside .and [a] [] _ _ false hsplice
    exact (Relation.ReflTransGen.single hinside).tail (.permute (.swap _ _ []))
  have hsame : ∀ c g g', Relation.ReflTransGen Regroups g g' → ∀ row,
      Filter.accepts { Filter.single c with group := some g' } row =
        Filter.accepts { Filter.single c with group := some g } row :=
    fun c g g' h row => (accepts_of_regroups h row).2 _ _ rfl rfl
  refine ⟨_, _,
    { Filter.single (.on ⟨"name".toList, [], true, .text⟩ .contains ['a']) with group := some _ },
    { Filter.single (.on ⟨"name".toList, [], true, .text⟩ .contains ['a']) with group := some _ },
    rfl, rfl, rfl, rfl, hsteps _ _ _, by decide +kernel, ?_⟩
  rw [hsame _ _ _ (hsteps _ _ _)]
  decide +kernel

end Group

end HashtagSearch
