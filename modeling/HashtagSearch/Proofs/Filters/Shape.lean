import HashtagSearch.Proofs.Grouped.Leaves

/-!
# Parts of a filter that fit together

A filter says the same thing several times: its leaves are in the tree, in the list or in the
primary condition. `Filter.WellFormed` says how the parts agree, and each of the three ways to
build a filter makes them agree. What a tree shows of itself agrees with its leaves for every tree,
also for one that cannot be typed.
-/

namespace HashtagSearch

/-! ## Leaves of a tree -/

mutual

theorem Expression.firstLeaf?_eq (e : Expression) : e.firstLeaf? = e.leaves.head? := by
  match e with
  | .condition c => rfl
  | .group g => exact g.firstLeaf?_eq

theorem Group.firstLeaf?_eq (g : Group) : g.firstLeaf? = g.leaves.head? := by
  match g with
  | ⟨_, nodes, _⟩ => exact firstLeafOf?_eq nodes

theorem firstLeafOf?_eq (es : List Expression) : firstLeafOf? es = (leavesOf es).head? := by
  match es with
  | [] => rfl
  | e :: es =>
    rw [firstLeafOf?, leavesOf, List.head?_append, e.firstLeaf?_eq, firstLeafOf?_eq es]
    cases e.leaves.head? <;> rfl

end

theorem leavesOf_map_condition (cs : List Condition) : leavesOf (cs.map .condition) = cs := by
  induction cs with
  | nil => rfl
  | cons c cs ih => exact congrArg (c :: ·) ih

namespace Group

variable {g : Group} {cs : List Condition}

theorem flatConditions?_eq_some_iff :
    g.flatConditions? = some cs ↔ g.nodes = cs.map .condition := by
  unfold flatConditions?
  induction g.nodes generalizing cs with
  | nil => cases cs <;> simp
  | cons e es ih =>
    cases e with
    | group g => cases cs <;> simp [Expression.condition?]
    | condition c =>
      cases cs with
      | nil => simp [Expression.condition?, Option.bind_eq_some_iff]
      | cons d cs => simp [Expression.condition?, Option.bind_eq_some_iff, ih, and_comm]

theorem leaves_of_flat (h : g.flatConditions? = some cs) : g.leaves = cs := by
  obtain ⟨join, nodes, isExplicit⟩ := g
  obtain rfl : nodes = cs.map .condition := flatConditions?_eq_some_iff.1 h
  rw [leaves, leavesOf_map_condition]

theorem isSome_flatConditions? :
    g.flatConditions?.isSome = true ↔ ∀ e ∈ g.nodes, ∃ c, e = .condition c := by
  rw [Option.isSome_iff_exists]
  constructor
  · rintro ⟨cs, hcs⟩ e he
    rw [flatConditions?_eq_some_iff.1 hcs] at he
    obtain ⟨c, -, rfl⟩ := List.mem_map.1 he
    exact ⟨c, rfl⟩
  · intro h
    have hrange : g.nodes ∈ Set.range (List.map Expression.condition) := by
      rw [Set.range_list_map]
      exact fun e he => (h e he).imp fun _ => Eq.symm
    obtain ⟨cs, hcs⟩ := hrange
    exact ⟨cs, flatConditions?_eq_some_iff.2 hcs.symm⟩

/-- A group is given as a list when no node is a group, and the list holds its leaves. -/
theorem flatConditions?_eq_leaves_iff :
    g.flatConditions? = some cs ↔ (∀ inner, .group inner ∉ g.nodes) ∧ cs = g.leaves := by
  constructor
  · intro h
    refine ⟨fun inner hinner => ?_, (leaves_of_flat h).symm⟩
    obtain ⟨c, hc⟩ := isSome_flatConditions?.1 (by rw [h, Option.isSome_some]) _ hinner
    cases hc
  · rintro ⟨hnone, rfl⟩
    have hconditions : ∀ e ∈ g.nodes, ∃ c, e = .condition c := by
      intro e he
      cases e with
      | condition c => exact ⟨c, rfl⟩
      | group inner => exact absurd he (hnone inner)
    obtain ⟨cs, hcs⟩ := Option.isSome_iff_exists.1 (isSome_flatConditions?.2 hconditions)
    rw [hcs, leaves_of_flat hcs]

end Group

/-! ## Different elements -/

section Distinct

variable {α β : Type} {f : α → β} {a : α} {l : List α}

theorem exists_ne_iff_exists_ne_head :
    (∃ x ∈ a :: l, ∃ y ∈ a :: l, f x ≠ f y) ↔ ∃ y ∈ l, f y ≠ f a := by
  constructor
  · rintro ⟨x, hx, y, hy, hne⟩
    by_contra hall
    have heq : ∀ z ∈ a :: l, f z = f a := by
      intro z hz
      rcases List.mem_cons.1 hz with rfl | hz
      · rfl
      · by_contra hza
        exact hall ⟨z, hz, hza⟩
    exact hne ((heq x hx).trans (heq y hy).symm)
  · rintro ⟨y, hy, hne⟩
    exact ⟨y, List.mem_cons_of_mem a hy, a, List.mem_cons_self, hne⟩

theorem eraseDups_ne_nil [BEq β] {l : List β} : l.eraseDups ≠ [] ↔ l ≠ [] := by
  cases l with
  | nil => simp
  | cons b l => simp [List.eraseDups_cons]

theorem one_lt_length_eraseDups [BEq β] [LawfulBEq β] :
    1 < (l.map f).eraseDups.length ↔ ∃ x ∈ l, ∃ y ∈ l, f x ≠ f y := by
  cases l with
  | nil => simp
  | cons a l =>
    rw [exists_ne_iff_exists_ne_head, List.map_cons, List.eraseDups_cons, List.length_cons,
      Nat.lt_add_left_iff_pos, List.length_pos_iff, eraseDups_ne_nil]
    simp

theorem one_lt_length_eraseDups_of_head? [BEq β] [LawfulBEq β] (h : l.head? = some a) :
    1 < (l.map f).eraseDups.length ↔ ∃ y ∈ l, f y ≠ f a := by
  obtain ⟨l, rfl⟩ := List.head?_eq_some_iff.1 h
  rw [one_lt_length_eraseDups, exists_ne_iff_exists_ne_head]
  simp

end Distinct

/-! ## Filters -/

namespace Filter

/-- The conditions that a filter asks for, from left to right. -/
def leaves (f : Filter) : List Condition :=
  match f.group with
  | some g => g.leaves
  | none => if f.conditions.isEmpty then [f.primary] else f.conditions

/-- The parts of a filter agree, and its conditions are sound. -/
structure WellFormed (catalog : Catalog) (defaultColumn : Option Column) (f : Filter) : Prop where
  primary_wellFormed : f.primary.WellFormed catalog defaultColumn
  leaves_wellFormed : ∀ c ∈ f.leaves, c.WellFormed catalog defaultColumn
  head_leaves : f.leaves.head? = some f.primary
  length_joins : f.joins.length = f.conditions.length - 1
  head_conditions : f.conditions ≠ [] → f.conditions.head? = some f.primary
  multiCondition : f.isMultiCondition = true ↔ 2 ≤ f.leaves.length
  multiColumn : f.isMultiColumn = true ↔ ∃ c ∈ f.leaves, ∃ c' ∈ f.leaves, c.field ≠ c'.field
  groups_ne_nil : ∀ g ∈ f.group, ∀ h ∈ g :: g.nested, h.nodes ≠ []
  nested_explicit : ∀ g ∈ f.group, ∀ h ∈ g.nested, h.isExplicit = true
  range_complete : ∀ g ∈ f.group, ∀ c ∈ g.leaves, c.operator = .inRange → c.valueTo.isSome = true
  conditions_of_flat : ∀ g ∈ f.group,
    f.conditions ≠ [] ↔ ∀ e ∈ g.nodes, ∃ c, e = .condition c

variable {catalog : Catalog} {defaultColumn : Option Column} {f : Filter}

theorem wellFormed_single {c : Condition} (h : c.WellFormed catalog defaultColumn)
    (isExplicitOperator : Bool) :
    { single c with isExplicitOperator := isExplicitOperator }.WellFormed catalog defaultColumn where
  primary_wellFormed := h
  leaves_wellFormed := by simpa [leaves, single] using h
  head_leaves := rfl
  length_joins := rfl
  head_conditions := nofun
  multiCondition := by simp [leaves, single]
  multiColumn := by simp [leaves, single]
  groups_ne_nil := nofun
  nested_explicit := nofun
  range_complete := nofun
  conditions_of_flat := nofun

theorem wellFormed_ofJoined? {r : Joined Condition} (h : ofJoined? r = some f)
    (hr : ∀ c ∈ r.items, c.WellFormed catalog defaultColumn) :
    f.WellFormed catalog defaultColumn := by
  cases h
  exact {
    primary_wellFormed := hr r.head List.mem_cons_self
    leaves_wellFormed := hr
    head_leaves := rfl
    length_joins := Nat.eq_sub_of_add_eq r.length_joins
    head_conditions := fun _ => rfl
    multiCondition := decide_eq_true_iff
    multiColumn := by
      have hany : (r.items.any fun c => decide (c.field ≠ r.head.field)) = true ↔
          ∃ c ∈ r.tail.map (·.2), c.field ≠ r.head.field := by
        simp only [Joined.items, List.any_cons, ne_eq, not_true, decide_false, Bool.false_or,
          List.any_eq_true, decide_eq_true_eq]
      exact hany.trans exists_ne_iff_exists_ne_head.symm
    groups_ne_nil := nofun
    nested_explicit := nofun
    range_complete := nofun
    conditions_of_flat := nofun }

theorem wellFormed_ofGroup? {g : Group} {ts : List Token} (h : ofGroup? g = some f)
    (hg : Grouped.SearchWritten catalog g ts)
    (hleaves : ∀ c ∈ g.leaves, c.WellPlaced catalog) : f.WellFormed catalog defaultColumn := by
  obtain ⟨first, hfirst, rfl⟩ := Option.map_eq_some_iff.1 h
  rw [g.firstLeaf?_eq] at hfirst
  have hwell : ∀ c ∈ g.leaves, c.WellFormed catalog defaultColumn :=
    fun c hc => (hleaves c hc).wellFormed.with_default defaultColumn
  exact {
    primary_wellFormed := hwell first (List.mem_of_head? hfirst)
    leaves_wellFormed := hwell
    head_leaves := hfirst
    length_joins := List.length_replicate
    head_conditions := by
      intro hne
      cases hflat : g.flatConditions? with
      | none => simp [hflat] at hne
      | some cs => simpa [hflat, single, Group.leaves_of_flat hflat] using hfirst
    multiCondition := decide_eq_true_iff
    multiColumn := decide_eq_true_iff.trans one_lt_length_eraseDups
    groups_ne_nil := by
      rintro _ ⟨⟩ g' hg'
      rcases List.mem_cons.1 hg' with rfl | hg'
      · exact hg.nodes_ne_nil
      · exact (hg.of_mem_nested hg').1
    nested_explicit := by
      rintro _ ⟨⟩ g' hg'
      exact (hg.of_mem_nested hg').2
    range_complete := by
      rintro _ ⟨⟩ c hc
      exact (hleaves c hc).range_complete
    conditions_of_flat := by
      rintro _ ⟨⟩
      rw [← Group.isSome_flatConditions?]
      cases hflat : g.flatConditions? with
      | none => simp
      | some cs =>
        have hcs : cs ≠ [] := by
          rintro rfl
          exact hg.nodes_ne_nil (Group.flatConditions?_eq_some_iff.1 hflat)
        simpa [hflat] using hcs }

/-! ## What a tree shows of itself -/

variable {g : Group}

theorem ofGroup?_eq_none_iff : ofGroup? g = none ↔ g.leaves = [] := by
  rw [ofGroup?, Option.map_eq_none_iff, g.firstLeaf?_eq, List.head?_eq_none_iff]

theorem isMultiColumn_ofGroup? (h : ofGroup? g = some f) :
    ∃ first, g.leaves.head? = some first ∧
      (f.isMultiColumn = true ↔ ∃ c ∈ g.leaves, c.field ≠ first.field) := by
  obtain ⟨first, hfirst, rfl⟩ := Option.map_eq_some_iff.1 h
  rw [g.firstLeaf?_eq] at hfirst
  exact ⟨first, hfirst, decide_eq_true_iff.trans (one_lt_length_eraseDups_of_head? hfirst)⟩

end Filter

namespace Group

/-- What is said of a tree agrees with its leaves from left to right, wherever it has groups and
also when some of them are empty: the leaf found first, whether it has a filter, the list of a tree
without groups inside, and whether there is more than one column. -/
theorem summaries_agree_with_leaves (g : Group) :
    g.firstLeaf? = g.leaves.head? ∧
    (Filter.ofGroup? g = none ↔ g.leaves = []) ∧
    (∀ cs, g.flatConditions? = some cs ↔
      (∀ inner, .group inner ∉ g.nodes) ∧ cs = g.leaves) ∧
    ∀ f, Filter.ofGroup? g = some f → ∃ first, g.leaves.head? = some first ∧
      (f.isMultiColumn = true ↔ ∃ c ∈ g.leaves, c.field ≠ first.field) := by
  refine ⟨g.firstLeaf?_eq, Filter.ofGroup?_eq_none_iff, ?_, ?_⟩
  · intro cs
    exact flatConditions?_eq_leaves_iff
  · intro f hf
    exact Filter.isMultiColumn_ofGroup? hf

/-- Two conditions on two columns behind empty groups, one of which is inside another group. -/
theorem summaries_agree_with_leaves_empty_groups : ∃ a b g f,
    a = Condition.on ⟨"stock".toList, [], true, .number⟩ .lessThan "3".toList ∧
    b = Condition.on ⟨"name".toList, [], true, .text⟩ .contains "x".toList ∧
    g = Group.mk .or [.group ⟨.and, [], true⟩,
      .group ⟨.and, [.group ⟨.or, [], true⟩, .condition a], true⟩, .condition b] false ∧
    Filter.ofGroup? g = some f ∧ g.firstLeaf? = some a ∧ g.flatConditions? = none ∧
    f.isMultiColumn = true := by
  obtain ⟨hfirst, -, hflat, hmulti⟩ := summaries_agree_with_leaves
    ⟨.or, [.group ⟨.and, [], true⟩,
      .group ⟨.and, [.group ⟨.or, [], true⟩,
        .condition (.on ⟨"stock".toList, [], true, .number⟩ .lessThan "3".toList)], true⟩,
      .condition (.on ⟨"name".toList, [], true, .text⟩ .contains "x".toList)], false⟩
  obtain ⟨first, hhead, hcolumns⟩ := hmulti _ rfl
  cases hhead
  refine ⟨_, _, _, _, rfl, rfl, rfl, rfl, hfirst, ?_, hcolumns.2 ?_⟩
  · refine Option.eq_none_iff_forall_ne_some.2 fun cs hcs => ?_
    exact ((hflat cs).1 hcs).1 _ List.mem_cons_self
  · exact ⟨_, List.mem_cons_of_mem _ List.mem_cons_self, by decide⟩

end Group

end HashtagSearch
