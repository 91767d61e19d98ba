import HashtagSearch.Proofs.Grouped.Grammar
import HashtagSearch.Proofs.Values.Typed

/-!
# Conditions of searches with groups

The values of a tree are tokens, or cut out of one. A token that is a value is trimmed, and
the only `#` in it are those that begin neither a mark nor a word. What is written as a tree
has no empty groups, and all groups inside it have parentheses.
-/

namespace HashtagSearch

open Text

/-! ## Values between words -/

/-- Behind each `#` of the text comes a blank or nothing. -/
def Text.LooseHashes (t : Text) : Prop := ∀ d, ['#', d] <:+: t → isBlank d = true

theorem Text.LooseHashes.mono {s t : Text} (h : LooseHashes t) (hs : s <:+: t) : LooseHashes s :=
  fun d hd => h d (hd.trans hs)

namespace Token

variable {t : Text} {c d : Char}

theorem not_value_of_read? {token : Token} {rest : Text} (h : read? t = some (token, rest))
    (x : Text) : token ≠ .value x := by
  unfold read? at h
  split at h
  · cases h; simp
  · cases h; simp
  · cases h; simp
  · split at h
    · cases h
    · cases h; simp
  · cases h

theorem isBlank_of_read?_eq_none {rest : Text} (h : read? ('#' :: d :: rest) = none) :
    isBlank d = true := by
  unfold read? at h
  split at h
  · cases h
  · cases h
  · cases h
  · next after hhash _ _ heq =>
    obtain rfl := (List.cons.inj heq).2
    split at h
    · next hempty =>
      have hname : isNameChar d = false := by
        by_contra hd
        rw [List.takeWhile_cons_of_pos (by simpa using hd)] at hempty
        cases hempty
      have hd : d ≠ '#' := by
        rintro rfl
        exact hhash rest rfl
      simpa [isNameChar, hd] using hname
    · cases h
  · next hother => exact absurd rfl (hother _)

theorem spanValue_of_read?_eq_none (h : read? (c :: t) = none) :
    spanValue (c :: t) = (c :: (spanValue t).1, (spanValue t).2) := by
  rw [spanValue, h, if_neg (by simp)]

theorem looseHashes_spanValue (t : Text) : LooseHashes (spanValue t).1 := by
  induction t with
  | nil =>
    intro d hd
    simp [spanValue] at hd
  | cons c t ih =>
    intro d hd
    rw [spanValue] at hd
    split at hd
    · simp at hd
    · next hnone =>
      rcases List.infix_cons_iff.1 hd with hd | hd
      · obtain ⟨rfl, hnext⟩ : '#' = c ∧ [d] <+: (spanValue t).1 := List.cons_prefix_cons.1 hd
        have hfront : (spanValue t).1 <+: t := ⟨_, spanValue_append t⟩
        obtain ⟨rest, rfl⟩ := hnext.trans hfront
        exact isBlank_of_read?_eq_none (by simpa using hnone)
      · exact ih d hd

theorem of_mem_placeValue {position : Nat} {x raw : Text}
    (h : .value x ∈ (placeValue position raw).map (·.token)) : Filled x ∧ x = trim raw := by
  unfold placeValue at h
  split at h
  · simp at h
  · next hne =>
    obtain rfl : x = trim raw := by simpa using h
    exact ⟨filled_trim (by simpa using hne), rfl⟩

theorem scanFrom_nil (position : Nat) : scanFrom position [] = [] := by
  rw [scanFrom]
  rfl

theorem scanFrom_of_read? {position : Nat} {token : Token} {rest : Text}
    (h : read? t = some (token, rest)) : scanFrom position t =
      ⟨token, position⟩ :: scanFrom (position + byteLength token.display) rest := by
  rw [scanFrom]
  split
  · next h' =>
    cases h.symm.trans h'
    rfl
  · next h' => cases h.symm.trans h'

theorem scanFrom_of_run {position : Nat} (h : read? (c :: t) = none) :
    scanFrom position (c :: t) = placeValue position (c :: (spanValue t).1) ++
      scanFrom (position + byteLength (c :: (spanValue t).1)) (spanValue t).2 := by
  rw [scanFrom]
  split
  · next h' => cases h.symm.trans h'
  · rfl

theorem of_mem_scanFrom {position : Nat} {x : Text}
    (h : .value x ∈ (scanFrom position t).map (·.token)) : Filled x ∧ LooseHashes x := by
  induction position, t using scanFrom.induct with
  | case1 position t token rest hread ih =>
    rw [scanFrom_of_read? hread] at h
    rcases List.mem_cons.1 h with heq | h
    · exact absurd heq.symm (not_value_of_read? hread x)
    · exact ih h
  | case2 position hread =>
    rw [scanFrom_nil] at h
    cases h
  | case3 position c t hread ih =>
    rw [scanFrom_of_run hread, List.map_append] at h
    rcases List.mem_append.1 h with h | h
    · obtain ⟨hfilled, rfl⟩ := of_mem_placeValue h
      have hloose := looseHashes_spanValue (c :: t)
      rw [spanValue_of_read?_eq_none hread] at hloose
      exact ⟨hfilled, hloose.mono (trim_isInfix _)⟩
    · exact ih h

/-- The values among the tokens of a text are not empty, trimmed and without words with a
`#` in front. -/
theorem of_mem_ofText {x : Text} (h : .value x ∈ ofText t) : Filled x ∧ LooseHashes x :=
  of_mem_scanFrom h

end Token

/-! ## Leaves -/

/-- What holds of every condition in a tree: a range is complete, and its values come from
values among the tokens. -/
structure Condition.WellPlaced (catalog : Catalog) (c : Condition) : Prop where
  wellFormed : c.WellFormed catalog none
  range_complete : c.operator = .inRange → c.valueTo.isSome = true
  value_loose : LooseHashes c.value
  valueTo_loose : ∀ high ∈ c.valueTo, LooseHashes high

mutual

def Expression.groups : Expression → List Group
  | .condition _ => []
  | .group g => g :: g.nested

/-- The groups inside a group, at any depth. -/
def Group.nested : Group → List Group
  | ⟨_, nodes, _⟩ => groupsOf nodes

def groupsOf : List Expression → List Group
  | [] => []
  | e :: es => e.groups ++ groupsOf es

end

namespace Grouped

variable {catalog : Catalog} {c : Condition} {ts : List Token}

theorem ConditionWritten.wellPlaced (h : ConditionWritten catalog c ts)
    (hts : ∀ x, .value x ∈ ts → Filled x ∧ LooseHashes x) : c.WellPlaced catalog := by
  have hknown {column operator k o} (hn : Named catalog column operator k o) :
      k ∈ catalog ∧ o.supports k.valueType = true :=
    ⟨Catalog.mem_of_resolve? hn.column_eq, Operator.supports_of_resolve? hn.operator_eq⟩
  cases h with
  | @single column operator value k o hn ho =>
    obtain ⟨hk, hs⟩ := hknown hn
    obtain ⟨hfilled, hloose⟩ := hts value (by simp)
    refine ⟨⟨.inl hk, rfl, hs, hfilled, nofun⟩, fun hrange => ?_, hloose, nofun⟩
    cases ho.symm.trans (Operator.isRange_iff.2 hrange)
  | @marked column operator low mark high k o hn ho hm =>
    obtain ⟨hk, hs⟩ := hknown hn
    obtain ⟨hlow, hlowLoose⟩ := hts low (by simp)
    obtain ⟨hhigh, hhighLoose⟩ := hts high (by simp)
    refine ⟨⟨.inl hk, rfl, hs, hlow, ?_⟩, fun _ => rfl, hlowLoose, ?_⟩
    · rintro _ ⟨⟩
      exact ⟨Operator.isRange_iff.1 ho, hhigh⟩
    · rintro _ ⟨⟩
      exact hhighLoose
  | @split column operator value k o r hn ho hr =>
    obtain ⟨hk, hs⟩ := hknown hn
    obtain ⟨⟨-, htrim⟩, hloose⟩ := hts value (by simp)
    have hread : Condition.Read k o value (.on k o r.low (some r.high)) :=
      .range (Operator.isRange_iff.1 ho) hr
    obtain ⟨hlow, hhigh⟩ := ValueRange.infix_of_read? hr
    refine ⟨hread.wellFormed htrim (.inl hk) hs, fun _ => rfl, hloose.mono hlow, ?_⟩
    rintro _ ⟨⟩
    exact hloose.mono hhigh

mutual

/-- Each condition in an expression is written by some of its tokens. -/
theorem ExpressionWritten.of_mem_leaves {e : Expression} {ts : List Token}
    (h : ExpressionWritten catalog e ts) (hc : c ∈ e.leaves) :
    ∃ used, used ⊆ ts ∧ ConditionWritten catalog c used := by
  match h with
  | .condition hw =>
    obtain rfl := List.mem_singleton.1 hc
    exact ⟨ts, List.Subset.refl ts, hw⟩
  | .group hs _ =>
    simp only [Expression.leaves, Group.leaves] at hc
    obtain ⟨used, hused, hw⟩ := hs.of_mem_leaves hc
    exact ⟨used, fun t ht => by simp [hused ht], hw⟩

theorem SequenceWritten.of_mem_leaves {join : Join} {es : List Expression} {ts : List Token}
    (h : SequenceWritten catalog join es ts) (hc : c ∈ leavesOf es) :
    ∃ used, used ⊆ ts ∧ ConditionWritten catalog c used := by
  match h with
  | .single he => exact he.of_mem_leaves (by simpa [leavesOf] using hc)
  | .cons he _ hs =>
    rcases List.mem_append.1 (by simpa [leavesOf] using hc) with hc | hc
    · obtain ⟨used, hused, hw⟩ := he.of_mem_leaves hc
      exact ⟨used, fun t ht => List.mem_append_left _ (hused ht), hw⟩
    · obtain ⟨used, hused, hw⟩ := hs.of_mem_leaves hc
      exact ⟨used, fun t ht => List.mem_append_right _ (List.mem_cons_of_mem _ (hused ht)), hw⟩

end

mutual

/-- The groups of an expression are those in parentheses, and none is empty. -/
theorem ExpressionWritten.of_mem_groups {e : Expression} {ts : List Token} {g : Group}
    (h : ExpressionWritten catalog e ts) (hg : g ∈ e.groups) :
    g.nodes ≠ [] ∧ g.isExplicit = true := by
  match h with
  | .condition _ => cases hg
  | .group hs _ =>
    rcases List.mem_cons.1 (by simpa [Expression.groups, Group.nested] using hg) with rfl | hg
    · exact ⟨hs.nodes_ne_nil, rfl⟩
    · exact hs.of_mem_groups hg

theorem SequenceWritten.of_mem_groups {join : Join} {es : List Expression} {ts : List Token}
    {g : Group} (h : SequenceWritten catalog join es ts) (hg : g ∈ groupsOf es) :
    g.nodes ≠ [] ∧ g.isExplicit = true := by
  match h with
  | .single he => exact he.of_mem_groups (by simpa [groupsOf] using hg)
  | .cons he _ hs =>
    rcases List.mem_append.1 (by simpa [groupsOf] using hg) with hg | hg
    · exact he.of_mem_groups hg
    · exact hs.of_mem_groups hg

end

namespace SearchWritten

variable {g : Group}

theorem nodes_ne_nil (h : SearchWritten catalog g ts) : g.nodes ≠ [] := by
  cases h with
  | lone he _ => exact (he.of_mem_groups List.mem_cons_self).1
  | wrapped hs _ _ _ => exact hs.nodes_ne_nil

theorem of_mem_nested {g' : Group} (h : SearchWritten catalog g ts) (hg : g' ∈ g.nested) :
    g'.nodes ≠ [] ∧ g'.isExplicit = true := by
  cases h with
  | lone he _ => exact he.of_mem_groups (List.mem_cons_of_mem g hg)
  | wrapped hs _ _ _ => exact hs.of_mem_groups hg

theorem of_mem_leaves (h : SearchWritten catalog g ts) (hc : c ∈ g.leaves) :
    ∃ used, used ⊆ ts ∧ ConditionWritten catalog c used := by
  cases h with
  | lone he _ =>
    obtain ⟨used, hused, hw⟩ := he.of_mem_leaves hc
    exact ⟨used, fun x hx => List.mem_append_left _ (hused hx), hw⟩
  | wrapped hs _ _ _ =>
    obtain ⟨used, hused, hw⟩ := hs.of_mem_leaves hc
    exact ⟨used, fun x hx => List.mem_append_left _ (hused hx), hw⟩

theorem wellPlaced {t : Text} (h : SearchWritten catalog g (Token.ofText t)) (hc : c ∈ g.leaves) :
    c.WellPlaced catalog := by
  obtain ⟨used, hused, hw⟩ := h.of_mem_leaves hc
  exact hw.wellPlaced fun x hx => Token.of_mem_ofText (hused hx)

end SearchWritten

end Grouped

end HashtagSearch
