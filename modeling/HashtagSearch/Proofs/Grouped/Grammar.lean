import HashtagSearch.Grouped

/-!
# The grammar of searches with groups

Which tokens write which tree, rule by rule and without a reader. A sequence has the
same join between all of its expressions, a group is a sequence in parentheses, and a
search is a sequence with the confirmation behind it. The relations say nothing about
depth: how deep groups nest is read off the tree.
-/

namespace HashtagSearch

mutual

/-- How deep parentheses nest in an expression. -/
def Expression.depth : Expression → Nat
  | .condition _ => 0
  | .group g => g.depth

def Group.depth : Group → Nat
  | ⟨_, nodes, _⟩ => depthOf nodes + 1

def depthOf : List Expression → Nat
  | [] => 0
  | e :: es => max e.depth (depthOf es)

end

namespace Grouped

/-- The names mean a column of the catalog and one of its operators. A join is not
taken for the name of a column. -/
structure Named (catalog : Catalog) (column operator : Text) (c : Column) (o : Operator) :
    Prop where
  not_join : Join.ofKeyword? column = none
  column_eq : catalog.resolve? column = some c
  operator_eq : Operator.resolve? c.valueType operator = some o

/-- The tokens write the condition. A range has both of its ends, either with `#to`
between them or in one value that can be split. -/
inductive ConditionWritten (catalog : Catalog) : Condition → List Token → Prop
  | single {column operator value c o} : Named catalog column operator c o →
      o.isRange = false →
      ConditionWritten catalog (.on c o value) [.hashtag column, .hashtag operator, .value value]
  | marked {column operator low mark high c o} : Named catalog column operator c o →
      o.isRange = true → (Token.hashtag mark).isRangeMarker = true →
      ConditionWritten catalog (.on c o low (some high))
        [.hashtag column, .hashtag operator, .value low, .hashtag mark, .value high]
  | split {column operator value c o r} : Named catalog column operator c o →
      o.isRange = true → ValueRange.read? value true = some r →
      ConditionWritten catalog (.on c o r.low (some r.high))
        [.hashtag column, .hashtag operator, .value value]

mutual

/-- The tokens write the expression. A group of one node is joined by AND. -/
inductive ExpressionWritten (catalog : Catalog) : Expression → List Token → Prop
  | condition {c ts} : ConditionWritten catalog c ts → ExpressionWritten catalog (.condition c) ts
  | group {join nodes ts} : SequenceWritten catalog join nodes ts →
      (nodes.length = 1 → join = .and) →
      ExpressionWritten catalog (.group ⟨join, nodes, true⟩)
        (.groupOpen :: ts ++ [.groupClose])

/-- The tokens write the nodes one after the other with `join` between neighbours. -/
inductive SequenceWritten (catalog : Catalog) : Join → List Expression → List Token → Prop
  | single {join e ts} : ExpressionWritten catalog e ts → SequenceWritten catalog join [e] ts
  | cons {join e ts t es us} : ExpressionWritten catalog e ts → t.join? = some join →
      SequenceWritten catalog join es us → SequenceWritten catalog join (e :: es) (ts ++ t :: us)

end

/-- The tokens write the search of which `g` is the tree. A sequence that is one group
is that group; any other is wrapped in a group without parentheses. -/
inductive SearchWritten (catalog : Catalog) : Group → List Token → Prop
  | lone {g ts} : ExpressionWritten catalog (.group g) ts → g.depth ≤ maxDepth →
      SearchWritten catalog g (ts ++ [.confirm])
  | wrapped {join nodes ts} : SequenceWritten catalog join nodes ts →
      (nodes.length = 1 → join = .and) → (∀ g, nodes ≠ [.group g]) → depthOf nodes ≤ maxDepth →
      SearchWritten catalog ⟨join, nodes, false⟩ (ts ++ [.confirm])

variable {catalog : Catalog}

theorem SequenceWritten.nodes_ne_nil {join : Join} {es : List Expression} {ts : List Token}
    (h : SequenceWritten catalog join es ts) : es ≠ [] := by
  cases h <;> simp

theorem SequenceWritten.with_join {join join' : Join} {e : Expression} {ts : List Token}
    (h : SequenceWritten catalog join [e] ts) : SequenceWritten catalog join' [e] ts := by
  cases h with
  | single he => exact .single he
  | cons _ _ hs => exact absurd rfl hs.nodes_ne_nil

theorem SequenceWritten.snoc {join : Join} {es : List Expression} {ts : List Token}
    (h : SequenceWritten catalog join es ts) {t : Token} (ht : t.join? = some join)
    {e : Expression} {us : List Token} (he : ExpressionWritten catalog e us) :
    SequenceWritten catalog join (es ++ [e]) (ts ++ t :: us) := by
  match h with
  | .single h => exact .cons h ht (.single he)
  | .cons h ht' hs =>
    rw [List.cons_append, List.append_assoc, List.cons_append]
    exact .cons h ht' (hs.snoc ht he)

theorem depthOf_append (es es' : List Expression) :
    depthOf (es ++ es') = max (depthOf es) (depthOf es') := by
  induction es with
  | nil => simp [depthOf]
  | cons e es ih => simp [depthOf, ih, Nat.max_assoc]

mutual

theorem ExpressionWritten.firstLeaf {e : Expression} {ts : List Token}
    (h : ExpressionWritten catalog e ts) : ∃ c, e.firstLeaf? = some c := by
  match h with
  | .condition (c := c) _ => exact ⟨c, rfl⟩
  | .group hs _ =>
    obtain ⟨c, hc⟩ := hs.firstLeaf
    exact ⟨c, by simpa only [Expression.firstLeaf?, Group.firstLeaf?] using hc⟩

theorem SequenceWritten.firstLeaf {join : Join} {es : List Expression} {ts : List Token}
    (h : SequenceWritten catalog join es ts) : ∃ c, firstLeafOf? es = some c := by
  match h with
  | .single he | .cons he _ _ =>
    obtain ⟨c, hc⟩ := he.firstLeaf
    exact ⟨c, by simp only [firstLeafOf?, hc]⟩

end

theorem SearchWritten.firstLeaf {g : Group} {ts : List Token} (h : SearchWritten catalog g ts) :
    ∃ c, g.firstLeaf? = some c := by
  cases h with
  | lone he _ => simpa only [Expression.firstLeaf?] using he.firstLeaf
  | wrapped hs _ _ _ => simpa only [Group.firstLeaf?] using hs.firstLeaf

end Grouped

end HashtagSearch
