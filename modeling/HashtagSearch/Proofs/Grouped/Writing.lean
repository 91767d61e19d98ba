import HashtagSearch.Proofs.Flat.Writing
import HashtagSearch.Proofs.Grouped.Reading
import HashtagSearch.Proofs.Tokens

/-!
# Searches with groups in writing

A tree is written as tokens: parentheses around its groups, the join of a group between its
nodes, and the names and values of its conditions. The text of these tokens is read back as
the tree, if the tree has a form that can be typed.
-/

namespace HashtagSearch

open Text

/-! ## Trees as tokens -/

def Condition.tokens (c : Condition) : List Token :=
  [.hashtag c.field, .hashtag c.operator.name.toList, .value c.value] ++
    match c.valueTo with
    | some high => [.hashtag "to".toList, .value high]
    | none => []

def Join.token (join : Join) : Token := .hashtag join.keyword.toList

mutual

def Expression.tokens : Expression → List Token
  | .condition c => c.tokens
  | .group g => .groupOpen :: g.tokens ++ [.groupClose]

/-- The tokens that write the nodes of a group, without parentheses around them. -/
def Group.tokens : Group → List Token
  | ⟨join, nodes, _⟩ => tokensOf join nodes

def tokensOf (join : Join) : List Expression → List Token
  | [] => []
  | [e] => e.tokens
  | e :: es => e.tokens ++ join.token :: tokensOf join es

end

/-- The tokens that write the search of which the group is the tree. -/
def Group.searchTokens (g : Group) : List Token :=
  (if g.isExplicit then (Expression.group g).tokens else g.tokens) ++ [.confirm]

/-- The search of which the group is the tree, as it is typed. -/
def Group.display (g : Group) : Text := Token.displayAll g.searchTokens

/-! ## Trees that can be typed -/

/-- What lets a condition in a tree be read back: its field is a word for its column and no
mark or join, its values can stand between words, and only a range has two of them. -/
structure Condition.Canonical (catalog : Catalog) (c : Condition) : Prop where
  field_eq : c.field = c.column.field
  resolve : catalog.resolve? c.column.field = some c.column
  field : (Token.hashtag c.field).Proper
  not_join : Join.ofKeyword? c.field = none
  supported : c.operator.supports c.column.valueType = true
  value : (Token.value c.value).Proper
  valueTo : ∀ high ∈ c.valueTo, (Token.value high).Proper
  range_iff : c.valueTo.isSome = true ↔ c.operator = .inRange

instance (catalog : Catalog) (c : Condition) : Decidable (c.Canonical catalog) :=
  decidable_of_iff (c.field = c.column.field ∧ catalog.resolve? c.column.field = some c.column ∧
      (Token.hashtag c.field).Proper ∧ Join.ofKeyword? c.field = none ∧
      c.operator.supports c.column.valueType = true ∧ (Token.value c.value).Proper ∧
      (∀ high ∈ c.valueTo, (Token.value high).Proper) ∧
      (c.valueTo.isSome = true ↔ c.operator = .inRange))
    ⟨fun ⟨hf, hr, hn, hj, hs, hv, hto, hrange⟩ => ⟨hf, hr, hn, hj, hs, hv, hto, hrange⟩,
      fun h => ⟨h.field_eq, h.resolve, h.field, h.not_join, h.supported, h.value, h.valueTo,
        h.range_iff⟩⟩

/-- A group has nodes, and if it has one only, its join is AND. -/
structure Group.Regular (g : Group) : Prop where
  nodes_ne_nil : g.nodes ≠ []
  join_single : g.nodes.length = 1 → g.join = .and

instance (g : Group) : Decidable g.Regular :=
  decidable_of_iff (g.nodes.isEmpty = false ∧ (g.nodes.length = 1 → g.join = .and))
    ⟨fun ⟨hne, hj⟩ => ⟨by simpa using hne, hj⟩,
      fun h => ⟨by simpa using h.nodes_ne_nil, h.join_single⟩⟩

/-- A tree that is read from what is typed for it. Without parentheses around it, it has
several nodes, and one of them is a group. -/
structure Group.Canonical (catalog : Catalog) (g : Group) : Prop where
  regular : ∀ g' ∈ g :: g.nested, g'.Regular
  nested_explicit : ∀ g' ∈ g.nested, g'.isExplicit = true
  implicit : g.isExplicit = false → 2 ≤ g.nodes.length ∧ ∃ e ∈ g.nodes, e.condition? = none
  depth_le : (if g.isExplicit then g.depth else depthOf g.nodes) ≤ Grouped.maxDepth
  leaves : ∀ c ∈ g.leaves, c.Canonical catalog

instance (catalog : Catalog) (g : Group) : Decidable (g.Canonical catalog) :=
  decidable_of_iff ((∀ g' ∈ g :: g.nested, g'.Regular) ∧ (∀ g' ∈ g.nested, g'.isExplicit = true) ∧
      (g.isExplicit = false → 2 ≤ g.nodes.length ∧ ∃ e ∈ g.nodes, e.condition? = none) ∧
      (if g.isExplicit then g.depth else depthOf g.nodes) ≤ Grouped.maxDepth ∧
      ∀ c ∈ g.leaves, c.Canonical catalog)
    ⟨fun ⟨hr, hn, hi, hd, hl⟩ => ⟨hr, hn, hi, hd, hl⟩,
      fun h => ⟨h.regular, h.nested_explicit, h.implicit, h.depth_le, h.leaves⟩⟩

namespace Grouped

variable {catalog : Catalog}

/-! ## The tokens write the tree -/

theorem Named.of_canonical {c : Condition} (h : c.Canonical catalog) :
    Named catalog c.field c.operator.name.toList c.column c.operator :=
  ⟨h.not_join, h.field_eq ▸ h.resolve, Operator.resolve?_name h.supported⟩

theorem ConditionWritten.of_canonical {c : Condition} (h : c.Canonical catalog) :
    ConditionWritten catalog c c.tokens := by
  obtain ⟨field, column, operator, value, valueTo⟩ := c
  obtain rfl : field = column.field := h.field_eq
  have hnamed := Named.of_canonical h
  cases valueTo with
  | none =>
    have hrange : operator.isRange = false := by
      by_contra hr
      have hr : operator = .inRange := Operator.isRange_iff.1 (by simpa using hr)
      cases h.range_iff.2 hr
    exact .single hnamed hrange
  | some high => exact .marked hnamed (Operator.isRange_iff.2 (h.range_iff.1 rfl)) (by decide)

theorem join?_token (join : Join) : join.token.join? = some join := by
  cases join <;> decide

mutual

theorem ExpressionWritten.of_canonical {e : Expression} (hc : ∀ c ∈ e.leaves, c.Canonical catalog)
    (hg : ∀ g ∈ e.groups, g.Regular ∧ g.isExplicit = true) :
    ExpressionWritten catalog e e.tokens := by
  match e with
  | .condition c => exact .condition (.of_canonical (hc c (List.mem_singleton_self c)))
  | .group ⟨join, nodes, isExplicit⟩ =>
    obtain ⟨⟨hregular, hexplicit⟩, hnested⟩ := List.forall_mem_cons.1 hg
    obtain rfl : isExplicit = true := hexplicit
    have hnodes := SequenceWritten.of_canonical join hregular.nodes_ne_nil hc hnested
    exact .group hnodes hregular.join_single

theorem SequenceWritten.of_canonical (join : Join) {es : List Expression} (hne : es ≠ [])
    (hc : ∀ c ∈ leavesOf es, c.Canonical catalog)
    (hg : ∀ g ∈ groupsOf es, g.Regular ∧ g.isExplicit = true) :
    SequenceWritten catalog join es (tokensOf join es) := by
  match es with
  | [] => exact absurd rfl hne
  | e :: es =>
    obtain ⟨hce, hces⟩ := List.forall_mem_append.1 hc
    obtain ⟨hge, hges⟩ := List.forall_mem_append.1 hg
    have he := ExpressionWritten.of_canonical hce hge
    cases es with
    | nil => exact .single he
    | cons e' es =>
      have hes := SequenceWritten.of_canonical join (List.cons_ne_nil e' es) hces hges
      exact .cons he (join?_token join) hes

end

theorem SearchWritten.of_canonical {g : Group} (h : g.Canonical catalog) :
    SearchWritten catalog g g.searchTokens := by
  obtain ⟨join, nodes, isExplicit⟩ := g
  obtain ⟨hroot, hregular⟩ := List.forall_mem_cons.1 h.regular
  have hnested : ∀ g ∈ groupsOf nodes, g.Regular ∧ g.isExplicit = true :=
    fun g hg => ⟨hregular g hg, h.nested_explicit g hg⟩
  have hnodes : SequenceWritten catalog join nodes (tokensOf join nodes) :=
    SequenceWritten.of_canonical join hroot.nodes_ne_nil h.leaves hnested
  have hdepth := h.depth_le
  cases isExplicit with
  | true => exact .lone (.group hnodes hroot.join_single) hdepth
  | false =>
    obtain ⟨hlength, -⟩ := h.implicit rfl
    refine .wrapped hnodes hroot.join_single ?_ hdepth
    rintro g rfl
    simp at hlength

/-! ## The text holds the tokens -/

/-- Tokens that can be told apart and stay so behind a value. -/
structure Block (ts : List Token) : Prop where
  separable : Token.Separable ts
  head : ∀ token ∈ ts.head?, token.isValue = false

namespace Block

variable {ts us : List Token}

theorem append (ht : Block ts) (hu : Block us) : Block (ts ++ us) := by
  refine ⟨⟨?_, ?_⟩, ?_⟩
  · exact List.forall_mem_append.2 ⟨ht.separable.proper, hu.separable.proper⟩
  · refine List.isChain_append.2 ⟨ht.separable.apart, hu.separable.apart, ?_⟩
    intro a _ b hb
    rw [hu.head b hb, Bool.and_false]
  · cases ts with
    | nil => exact hu.head
    | cons t ts => exact ht.head

theorem single {token : Token} (h : token.Proper) (hv : token.isValue = false) :
    Block [token] :=
  ⟨⟨by simpa using h, .singleton token⟩, by simpa using hv⟩

theorem value {token : Token} {x : Text} (h : token.Proper) (hv : token.isValue = false)
    (hx : (Token.value x).Proper) : Block [token, .value x] := by
  refine ⟨⟨by simp [h, hx], ?_⟩, by simpa using hv⟩
  simp [List.isChain_cons_cons, hv]

end Block

theorem proper_operator (o : Operator) : (Token.hashtag o.name.toList).Proper :=
  ⟨Operator.isName_name o, by cases o <;> decide⟩

theorem proper_join (join : Join) : join.token.Proper := by
  cases join <;> exact ⟨⟨by decide, List.all_eq_true.1 (by decide)⟩, by decide⟩

theorem proper_mark : (Token.hashtag "to".toList).Proper :=
  ⟨⟨by decide, List.all_eq_true.1 (by decide)⟩, by decide⟩

theorem Block.of_canonical {c : Condition} (h : c.Canonical catalog) : Block c.tokens := by
  have hvalue : Block ([.hashtag c.field] ++ [.hashtag c.operator.name.toList, .value c.value]) :=
    (Block.single h.field rfl).append (Block.value (proper_operator c.operator) rfl h.value)
  unfold Condition.tokens
  cases hto : c.valueTo with
  | none => exact hvalue
  | some high =>
    exact hvalue.append (Block.value proper_mark rfl (h.valueTo high hto))

mutual

theorem block_tokens {e : Expression} (hc : ∀ c ∈ e.leaves, c.Canonical catalog) :
    Block e.tokens := by
  match e with
  | .condition c => exact .of_canonical (hc c (List.mem_singleton_self c))
  | .group ⟨join, nodes, isExplicit⟩ =>
    have hopen : Block [.groupOpen] := .single trivial rfl
    exact (hopen.append (block_tokensOf join hc)).append (.single trivial rfl)

theorem block_tokensOf (join : Join) {es : List Expression}
    (hc : ∀ c ∈ leavesOf es, c.Canonical catalog) : Block (tokensOf join es) := by
  match es with
  | [] => exact ⟨⟨nofun, .nil⟩, nofun⟩
  | e :: es =>
    obtain ⟨hce, hces⟩ := List.forall_mem_append.1 hc
    cases es with
    | nil => exact block_tokens hce
    | cons e' es =>
      exact (block_tokens hce).append ((Block.single (proper_join join) rfl).append
        (block_tokensOf join hces))

end

theorem block_searchTokens {g : Group} (h : ∀ c ∈ g.leaves, c.Canonical catalog) :
    Block g.searchTokens := by
  have hconfirm : Block [.confirm] := .single trivial rfl
  have hexpression : Block (Expression.group g).tokens := block_tokens h
  obtain ⟨join, nodes, isExplicit⟩ := g
  cases isExplicit with
  | true => exact hexpression.append hconfirm
  | false => exact (block_tokensOf join h).append hconfirm

/-! ## Reading the text -/

theorem mem_tokensOf {join : Join} {e : Expression} {es : List Expression} (he : e ∈ es)
    {token : Token} (h : token ∈ e.tokens) : token ∈ tokensOf join es := by
  induction es with
  | nil => cases he
  | cons e' es ih =>
    cases es with
    | nil =>
      obtain rfl := List.mem_singleton.1 he
      exact h
    | cons e'' es =>
      rcases List.mem_cons.1 he with rfl | he
      · exact List.mem_append_left _ h
      · exact List.mem_append_right _ (List.mem_cons_of_mem _ (ih he))

theorem groupOpen_mem_searchTokens {g : Group} (h : g.Canonical catalog) :
    .groupOpen ∈ g.searchTokens := by
  obtain ⟨join, nodes, isExplicit⟩ := g
  refine List.mem_append_left _ ?_
  cases isExplicit with
  | true => exact List.mem_cons_self
  | false =>
    obtain ⟨-, e, he, hgroup⟩ := h.implicit rfl
    cases e with
    | condition c => cases hgroup
    | group g => exact mem_tokensOf he List.mem_cons_self

/-- A tree in canonical form is read back from its text, and so the filter with this tree is
the meaning of the text. -/
theorem read?_canonical_display {g : Group} (h : g.Canonical catalog) :
    ∃ f, Filter.ofGroup? g = some f ∧ read? catalog g.display = some f := by
  have hblock := block_searchTokens h.leaves
  have hwritten : SearchWritten catalog g g.searchTokens := .of_canonical h
  have htokens : Token.ofText g.display = g.searchTokens :=
    Token.ofText_displayAll hblock.separable
  have hstart : SolidStart g.display := by
    obtain ⟨token, ts, hts⟩ := List.exists_cons_of_ne_nil
      (List.ne_nil_of_mem (groupOpen_mem_searchTokens h))
    obtain ⟨r, hr⟩ := Token.exists_display_eq_hash (hblock.head token (by simp [hts]))
    obtain ⟨rest, hrest⟩ := Token.prefix_displayAll token ts
    refine ⟨'#', r ++ rest, ?_, by decide⟩
    rw [Group.display, hts, ← hrest, hr, List.cons_append]
  have hmark : Confirmation.mark <:+ g.display := Token.suffix_displayAll _ .confirm
  have hend : SolidEnd g.display := by
    obtain ⟨r, hr⟩ := hmark
    rw [← hr]
    exact SolidEnd.append ⟨['#'], '#', rfl, by decide⟩ r
  have hconfirmed : Confirmation.isConfirmed g.display = true := by
    rw [Confirmation.isConfirmed, trimEnd_of_solidEnd hend, List.isSuffixOf_iff_suffix]
    exact hmark
  have hopen : hasPart (Token.display .groupOpen) g.display = true :=
    hasPart_iff.2 (Token.infix_displayAll (groupOpen_mem_searchTokens h))
  obtain ⟨c, hleaf⟩ := hwritten.firstLeaf
  refine ⟨_, by rw [Filter.ofGroup?, hleaf, Option.map_some], ?_⟩
  rw [read?, hopen, hconfirmed, Bool.and_self, if_pos rfl, trim_of_solid hstart hend, htokens,
    tree?_eq_some_iff.2 hwritten, Option.bind_some, Filter.ofGroup?, hleaf, Option.map_some]

/-- Values hold blanks, lone hashes and a hyphen, and a range stands in the middle of a tree. -/
theorem read?_canonical_display_lone_hash : ∃ f,
    Filter.ofGroup? ⟨.and,
      [.condition (.on ⟨"name".toList, [], true, .text⟩ .contains "a # b#".toList),
        .group ⟨.or,
          [.condition (.on ⟨"price".toList, [], true, .number⟩ .inRange "1".toList
              (some "2 #".toList)),
            .group ⟨.and, [.condition (.on ⟨"price".toList, [], true, .number⟩ .greaterThan
              "5-7".toList)], true⟩], true⟩], false⟩ = some f ∧
    read? [⟨"name".toList, [], true, .text⟩, ⟨"price".toList, [], true, .number⟩]
      ("#name #contains a # b# #and #( #price #inRange 1 #to 2 # #or " ++
        "#( #price #greaterThan 5-7 #) #) ##").toList = some f :=
  read?_canonical_display (g := ⟨.and,
      [.condition (.on ⟨"name".toList, [], true, .text⟩ .contains "a # b#".toList),
        .group ⟨.or,
          [.condition (.on ⟨"price".toList, [], true, .number⟩ .inRange "1".toList
              (some "2 #".toList)),
            .group ⟨.and, [.condition (.on ⟨"price".toList, [], true, .number⟩ .greaterThan
              "5-7".toList)], true⟩], true⟩], false⟩) (by decide +kernel)

end Grouped

end HashtagSearch
