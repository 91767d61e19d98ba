import HashtagSearch.Proofs.Grouped.Grammar
import HashtagSearch.Proofs.Text.Trimming

/-!
# Reading searches with groups

The readers accept exactly the grammar. What a reader takes off the tokens writes what
it returns, and of tokens that write something a reader returns just that, whatever
follows, as long as it cannot be read as a further part. So a text has at most one tree.
-/

namespace HashtagSearch

namespace Token

theorem not_isRangeMarker_of_join {t : Token} {join : Join} (h : t.join? = some join) :
    t.isRangeMarker = false := by
  cases t with
  | hashtag name =>
    refine Bool.eq_false_iff.2 fun hto => ?_
    simp only [isRangeMarker, Text.sameIgnoringCase, beq_iff_eq] at hto
    simp [join?, Join.ofKeyword?, Text.sameIgnoringCase, hto, Join.keyword] at h
  | _ => rfl

end Token

namespace Grouped

variable {catalog : Catalog}

/-! ## Conditions -/

theorem ofNames?_eq_some_iff {column operator value : Text} {valueTo : Option Text}
    {c : Condition} : ofNames? catalog column operator value valueTo = some c ↔
      ∃ k o, Named catalog column operator k o ∧ ofValues? k o value valueTo = some c := by
  constructor
  · intro h
    unfold ofNames? at h
    split at h
    · cases h
    · next hj =>
      obtain ⟨⟨k, o⟩, hr, hv⟩ := Option.bind_eq_some_iff.1 h
      obtain ⟨k', hk, ho⟩ := Option.bind_eq_some_iff.1 hr
      obtain ⟨o', ho, he⟩ := Option.map_eq_some_iff.1 ho
      cases he
      exact ⟨k, o, ⟨by simpa using hj, hk, ho⟩, hv⟩
  · rintro ⟨k, o, hn, hv⟩
    simp [ofNames?, hn.not_join, Condition.resolve?, hn.column_eq, hn.operator_eq, hv]

theorem ofNames?_none {column operator value : Text} {c : Condition} :
    ofNames? catalog column operator value none = some c ↔
      ConditionWritten catalog c [.hashtag column, .hashtag operator, .value value] := by
  rw [ofNames?_eq_some_iff]
  constructor
  · rintro ⟨k, o, hn, hv⟩
    cases ho : o.isRange with
    | false =>
      obtain rfl : Condition.on k o value = c := by simpa [ofValues?, ho] using hv
      exact .single hn ho
    | true =>
      obtain ⟨r, hr, rfl⟩ := Option.map_eq_some_iff.1 (by simpa [ofValues?, ho] using hv)
      exact .split hn ho hr
  · intro h
    cases h with
    | single hn ho => exact ⟨_, _, hn, by simp [ofValues?, ho]⟩
    | split hn ho hr => exact ⟨_, _, hn, by simp [ofValues?, ho, hr]⟩

theorem ofNames?_some {column operator low mark high : Text} {c : Condition}
    (hm : (Token.hashtag mark).isRangeMarker = true) :
    ofNames? catalog column operator low (some high) = some c ↔
      ConditionWritten catalog c
        [.hashtag column, .hashtag operator, .value low, .hashtag mark, .value high] := by
  rw [ofNames?_eq_some_iff]
  constructor
  · rintro ⟨k, o, hn, hv⟩
    cases ho : o.isRange with
    | false => simp [ofValues?, ho] at hv
    | true =>
      obtain rfl : Condition.on k o low (some high) = c := by simpa [ofValues?, ho] using hv
      exact .marked hn ho hm
  · intro h
    cases h with
    | marked hn ho _ => exact ⟨_, _, hn, by simp [ofValues?, ho]⟩

theorem condition?_sound {ts : List Token} {c : Condition} {r : Shorter ts}
    (h : condition? catalog ts = some (c, r)) :
    ∃ used, ts = used ++ r.1 ∧ ConditionWritten catalog c used := by
  unfold condition? at h
  split at h
  · next column operator value ts =>
    split at h
    · next name rest =>
      split at h
      · next hm =>
        split at h
        · next high rest =>
          obtain ⟨c', hc, he⟩ := Option.map_eq_some_iff.1 h
          cases he
          exact ⟨_, rfl, (ofNames?_some hm).1 hc⟩
        · cases h
      · obtain ⟨c', hc, he⟩ := Option.map_eq_some_iff.1 h
        cases he
        exact ⟨_, rfl, ofNames?_none.1 hc⟩
    · obtain ⟨c', hc, he⟩ := Option.map_eq_some_iff.1 h
      cases he
      exact ⟨_, rfl, ofNames?_none.1 hc⟩
  · cases h

/-- No `#to` follows, so a condition ends in front of these tokens. -/
def NoMark (rest : List Token) : Prop := ∀ t ∈ rest.head?, t.isRangeMarker = false

/-- The reader returns `a` and leaves the tokens `rest`. -/
def Leaves {α : Type} {p : List Token → Prop} (read : Option (α × { rest // p rest })) (a : α)
    (rest : List Token) : Prop :=
  ∃ r, read = some (a, r) ∧ r.1 = rest

theorem condition?_complete {ts rest : List Token} {c : Condition}
    (h : ConditionWritten catalog c ts) (hr : NoMark rest) :
    Leaves (condition? catalog (ts ++ rest)) c rest := by
  have single {column operator value : Text}
      (hc : ofNames? catalog column operator value none = some c) :
      Leaves (condition? catalog (.hashtag column :: .hashtag operator :: .value value :: rest))
        c rest := by
    cases rest with
    | nil => simp [Leaves, condition?, hc]
    | cons t rest =>
      have hm : t.isRangeMarker = false := hr t (by simp)
      cases t <;> simp_all [Leaves, condition?]
  cases h with
  | single hn ho => exact single (ofNames?_none.2 (.single hn ho))
  | split hn ho hs => exact single (ofNames?_none.2 (.split hn ho hs))
  | @marked column operator low mark high k o hn ho hm =>
    have hc : ofNames? catalog column operator low (some high) = some (.on k o low (some high)) :=
      (ofNames?_some hm).2 (.marked hn ho hm)
    simp [Leaves, condition?, hm, hc]

/-! ## Soundness -/

/-- The tokens write what the sequence has taken up so far. A single node has no join
yet, and more than one node have the join that is between them. -/
structure Sequence.WrittenBy (catalog : Catalog) (levels : Nat) (s : Sequence) (ts : List Token) :
    Prop where
  written : SequenceWritten catalog (s.join.getD .and) s.nodes ts
  join_eq_none : s.join = none ↔ s.nodes.length = 1
  depth_le : depthOf s.nodes ≤ levels

theorem push?_eq_some {s : Sequence} {join : Join} {push : Expression → Sequence}
    (h : s.push? join = some push) :
    s.join.all (· == join) ∧ ∀ e, push e = ⟨s.nodes ++ [e], some join⟩ := by
  unfold Sequence.push? at h
  split at h
  · next hj =>
    cases h
    exact ⟨hj, fun e => rfl⟩
  · cases h

namespace Sequence.WrittenBy

variable {levels : Nat} {s : Sequence} {ts : List Token}

theorem first {e : Expression} (he : ExpressionWritten catalog e ts) (hd : e.depth ≤ levels) :
    WrittenBy catalog levels ⟨[e], none⟩ ts :=
  ⟨.single he, by simp, by simpa [depthOf] using hd⟩

theorem push (h : WrittenBy catalog levels s ts) {t : Token} {join : Join}
    (ht : t.join? = some join) {f : Expression → Sequence} (hf : s.push? join = some f)
    {e : Expression} {us : List Token} (he : ExpressionWritten catalog e us)
    (hd : e.depth ≤ levels) : WrittenBy catalog levels (f e) (ts ++ t :: us) := by
  obtain ⟨hj, hpush⟩ := push?_eq_some hf
  rw [hpush]
  refine ⟨?_, ?_, ?_⟩
  · have hw := h.written
    cases hs : s.join with
    | none =>
      obtain ⟨e₀, he₀⟩ := List.length_eq_one_iff.1 (h.join_eq_none.1 hs)
      rw [he₀] at hw ⊢
      exact hw.with_join.snoc ht he
    | some join' =>
      obtain rfl : join' = join := by simpa [hs] using hj
      rw [hs] at hw
      exact hw.snoc ht he
  · have := List.length_pos_iff.2 h.written.nodes_ne_nil
    simp only [List.length_append, List.length_singleton, reduceCtorEq, false_iff]
    omega
  · have := h.depth_le
    simp only [depthOf_append, depthOf]
    omega

theorem group (h : WrittenBy catalog levels s ts) :
    ExpressionWritten catalog (.group (s.toGroup true)) (.groupOpen :: ts ++ [.groupClose]) ∧
      (s.toGroup true).depth ≤ levels + 1 := by
  refine ⟨.group h.written fun hl => ?_, ?_⟩
  · rw [h.join_eq_none.2 hl]
    rfl
  · simpa [Sequence.toGroup, Group.depth] using h.depth_le

end Sequence.WrittenBy

/-- What the three readers return is written by the tokens that they take. -/
theorem readers_sound (catalog : Catalog) :
    (∀ levels ts, ∀ e r, expression? catalog levels ts = some (e, r) →
      ∃ used, ts = used ++ r.1 ∧ ExpressionWritten catalog e used ∧ e.depth ≤ levels) ∧
    (∀ levels ts, ∀ s r, sequence? catalog levels ts = some (s, r) →
      ∃ used, ts = used ++ r.1 ∧ s.WrittenBy catalog levels used) ∧
    (∀ levels s ts, ∀ before, s.WrittenBy catalog levels before →
      ∀ s' r, continue? catalog levels s ts = some (s', r) →
        ∃ used, ts = used ++ r.1 ∧ s'.WrittenBy catalog levels (before ++ used)) := by
  refine expression?.mutual_induct catalog _ _ _ ?tooDeep ?parentheses ?unclosed ?condition
    ?first ?noFirst ?atEnd ?noJoin ?otherJoin ?noNext ?next
  case tooDeep =>
    intro inner e r h
    simp [expression?] at h
  case parentheses =>
    intro inner levels s rest hl hs ih e r h
    obtain ⟨used, hu, hw⟩ := ih s ⟨_, hl⟩ hs
    simp only [expression?, hs, Option.some.injEq, Prod.mk.injEq] at h
    obtain ⟨rfl, rfl⟩ := h
    exact ⟨.groupOpen :: used ++ [.groupClose], by simp [hu], hw.group.1, hw.group.2⟩
  case unclosed =>
    intro inner levels hs _ e r h
    rw [expression?] at h
    split at h
    · next hs' => exact (hs _ _ _ hs').elim
    · cases h
  case condition =>
    intro levels ts hg e r h
    rw [expression?] at h
    · obtain ⟨⟨c, r'⟩, hc, he⟩ := Option.map_eq_some_iff.1 h
      cases he
      obtain ⟨used, hu, hw⟩ := condition?_sound hc
      exact ⟨used, hu, .condition hw, Nat.zero_le _⟩
    · exact hg
  case first =>
    intro levels ts e rest hl he ihe ihc s r h
    obtain ⟨used, hu, hw, hd⟩ := ihe e ⟨rest, hl⟩ he
    simp only [sequence?, he] at h
    obtain ⟨⟨s', r'⟩, hc, heq⟩ := Option.map_eq_some_iff.1 h
    cases heq
    obtain ⟨used', hu', hw'⟩ := ihc used (.first hw hd) s' r' hc
    exact ⟨used ++ used', by simp only [hu, hu', List.append_assoc], hw'⟩
  case noFirst =>
    intro levels ts he _ s r h
    simp [sequence?, he] at h
  case atEnd =>
    intro levels s before hb s' r h
    simp only [continue?, Option.some.injEq, Prod.mk.injEq] at h
    obtain ⟨rfl, rfl⟩ := h
    exact ⟨[], rfl, by simpa using hb⟩
  case noJoin =>
    intro levels s t ts ht before hb s' r h
    rw [continue?] at h
    simp only [ht, Option.some.injEq, Prod.mk.injEq] at h
    obtain ⟨rfl, rfl⟩ := h
    exact ⟨[], rfl, by simpa using hb⟩
  case otherJoin =>
    intro levels s t ts join ht hp before hb s' r h
    rw [continue?] at h
    simp [ht, hp] at h
  case noNext =>
    intro levels s t ts join ht f hf he _ before hb s' r h
    rw [continue?] at h
    simp [ht, hf, he] at h
  case next =>
    intro levels s t ts join ht f hf e rest hl he ihe ihc before hb s' r h
    obtain ⟨used, hu, hw, hd⟩ := ihe e ⟨rest, hl⟩ he
    rw [continue?] at h
    simp only [ht, hf, he] at h
    obtain ⟨⟨s'', r'⟩, hc, heq⟩ := Option.map_eq_some_iff.1 h
    cases heq
    obtain ⟨used', hu', hw'⟩ := ihc _ (hb.push ht hf hw hd) _ r' hc
    exact ⟨t :: used ++ used', by simp [hu, hu'], by simpa using hw'⟩

/-! ## Completeness -/

section Steps

variable {levels : Nat} {ts rest rest' : List Token}

theorem expression?_of_condition (hg : ∀ inner, ts ≠ .groupOpen :: inner) {c : Condition}
    (h : Leaves (condition? catalog ts) c rest) :
    Leaves (expression? catalog levels ts) (.condition c) rest := by
  obtain ⟨r, hc, hr⟩ := h
  refine ⟨r, ?_, hr⟩
  rw [expression?]
  · simp [hc]
  · exact hg

theorem expression?_of_group {s : Sequence}
    (h : Leaves (sequence? catalog levels ts) s (.groupClose :: rest)) :
    Leaves (expression? catalog (levels + 1) (.groupOpen :: ts)) (.group (s.toGroup true))
      rest := by
  obtain ⟨⟨r, hl⟩, hs, hr⟩ := h
  subst hr
  refine ⟨⟨rest, by simp only [List.length_cons] at hl ⊢; omega⟩, ?_, rfl⟩
  simp only [expression?, hs]

theorem sequence?_of_first {e : Expression} {s : Sequence}
    (he : Leaves (expression? catalog levels ts) e rest)
    (hc : Leaves (continue? catalog levels ⟨[e], none⟩ rest) s rest') :
    Leaves (sequence? catalog levels ts) s rest' := by
  obtain ⟨⟨r, hl⟩, he, rfl⟩ := he
  obtain ⟨⟨r', hl'⟩, hc, rfl⟩ := hc
  exact ⟨⟨r', Nat.lt_of_le_of_lt hl' hl⟩, by simp [sequence?, he, hc], rfl⟩

theorem continue?_of_join {t : Token} {join : Join} (ht : t.join? = some join) {s s' : Sequence}
    (hs : s.join.all (· == join)) {e : Expression}
    (he : Leaves (expression? catalog levels ts) e rest)
    (hc : Leaves (continue? catalog levels ⟨s.nodes ++ [e], some join⟩ rest) s' rest') :
    Leaves (continue? catalog levels s (t :: ts)) s' rest' := by
  obtain ⟨⟨r, hl⟩, he, rfl⟩ := he
  obtain ⟨⟨r', hl'⟩, hc, rfl⟩ := hc
  refine ⟨⟨r', Nat.le_succ_of_le (Nat.le_of_lt (Nat.lt_of_le_of_lt hl' hl))⟩, ?_, rfl⟩
  rw [continue?]
  simp [ht, Sequence.push?, hs, he, hc]

/-- Neither a join nor `#to` follows, so a sequence ends in front of these tokens. -/
structure AtEnd (rest : List Token) : Prop where
  noMark : NoMark rest
  noJoin : ∀ t ∈ rest.head?, t.join? = none

theorem continue?_of_atEnd (h : AtEnd rest) (s : Sequence) :
    Leaves (continue? catalog levels s rest) s rest := by
  refine ⟨⟨rest, Nat.le_refl _⟩, ?_, rfl⟩
  cases rest with
  | nil => simp [continue?]
  | cons t rest =>
    have ht : t.join? = none := h.noJoin t (by simp)
    rw [continue?]
    simp [ht]

end Steps

mutual

/-- The tokens of an expression are read as that expression, whatever follows them. -/
theorem expression?_complete {e : Expression} {ts : List Token}
    (h : ExpressionWritten catalog e ts) {levels : Nat} (hd : e.depth ≤ levels)
    {rest : List Token} (hr : NoMark rest) :
    Leaves (expression? catalog levels (ts ++ rest)) e rest := by
  match h with
  | .condition hc =>
    refine expression?_of_condition (fun inner hi => ?_) (condition?_complete hc hr)
    cases hc <;> cases hi
  | @ExpressionWritten.group _ _ nodes _ hs hj =>
    obtain ⟨levels, rfl⟩ : ∃ l, levels = l + 1 :=
      Nat.exists_eq_add_one.2 (Nat.lt_of_lt_of_le (Nat.succ_pos _) hd)
    have hend : AtEnd (.groupClose :: rest) :=
      ⟨by simp [NoMark, Token.isRangeMarker], by simp [Token.join?]⟩
    have hq := expression?_of_group (sequence?_complete hs (Nat.le_of_succ_le_succ hd) hend)
    rw [List.cons_append, List.cons_append, List.append_assoc]
    by_cases hn : nodes.length = 1
    · simpa [Sequence.toGroup, hn, hj] using hq
    · simpa [Sequence.toGroup, hn] using hq

theorem sequence?_complete {join : Join} {es : List Expression} {ts : List Token}
    (h : SequenceWritten catalog join es ts) {levels : Nat} (hd : depthOf es ≤ levels)
    {rest : List Token} (hr : AtEnd rest) :
    Leaves (sequence? catalog levels (ts ++ rest))
      ⟨es, if es.length = 1 then none else some join⟩ rest := by
  match h with
  | .single (e := e) he =>
    have hd : e.depth ≤ levels := by simpa [depthOf] using hd
    exact sequence?_of_first (expression?_complete he hd hr.noMark) (continue?_of_atEnd hr _)
  | @SequenceWritten.cons _ _ e _ t _ us he ht hs =>
    simp only [depthOf, Nat.max_le] at hd
    have hm : NoMark (t :: us ++ rest) := by
      simpa [NoMark] using Token.not_isRangeMarker_of_join ht
    have hc := continue?_complete hs hd.2 hr ht ⟨[e], none⟩ rfl
    rw [List.append_assoc, if_neg (by simpa using hs.nodes_ne_nil)]
    exact sequence?_of_first (expression?_complete he hd.1 hm) hc

/-- A sequence that follows a join is taken up as a whole by the one in front of it. -/
theorem continue?_complete {join : Join} {es : List Expression} {ts : List Token}
    (h : SequenceWritten catalog join es ts) {levels : Nat} (hd : depthOf es ≤ levels)
    {rest : List Token} (hr : AtEnd rest) {t : Token} (ht : t.join? = some join)
    (s : Sequence) (hs : s.join.all (· == join)) :
    Leaves (continue? catalog levels s (t :: ts ++ rest)) ⟨s.nodes ++ es, some join⟩ rest := by
  match h with
  | .single (e := e) he =>
    have hd : e.depth ≤ levels := by simpa [depthOf] using hd
    exact continue?_of_join ht hs (expression?_complete he hd hr.noMark) (continue?_of_atEnd hr _)
  | @SequenceWritten.cons _ _ e _ u _ us he hu hes =>
    simp only [depthOf, Nat.max_le] at hd
    have hm : NoMark (u :: us ++ rest) := by
      simpa [NoMark] using Token.not_isRangeMarker_of_join hu
    have hc := continue?_complete hes hd.2 hr hu ⟨s.nodes ++ [e], some join⟩ (by simp)
    rw [List.cons_append, List.append_assoc]
    refine continue?_of_join ht hs (expression?_complete he hd.1 hm) ?_
    simpa using hc

end

/-! ## Trees -/

theorem Sequence.root_of_not_lone {s : Sequence} (h : ∀ g, s.nodes ≠ [.group g]) :
    s.root = s.toGroup false := by
  unfold Sequence.root
  split
  · next g hg => exact absurd hg (h g)
  · rfl

theorem Sequence.WrittenBy.root {s : Sequence} {ts : List Token}
    (h : s.WrittenBy catalog maxDepth ts) : SearchWritten catalog s.root (ts ++ [.confirm]) := by
  have hw := h.written
  have hd := h.depth_le
  by_cases hg : ∃ g, s.nodes = [.group g]
  · obtain ⟨g, hg⟩ := hg
    rw [hg] at hw hd
    rw [Sequence.root, hg]
    cases hw with
    | single he => exact .lone he (by simpa [depthOf, Expression.depth] using hd)
    | cons _ _ hs => exact absurd rfl hs.nodes_ne_nil
  · rw [Sequence.root_of_not_lone (not_exists.1 hg)]
    refine .wrapped hw (fun hl => ?_) (not_exists.1 hg) hd
    rw [h.join_eq_none.2 hl]
    rfl

/-- The tree of a search is read off its tokens exactly when they write it. -/
theorem tree?_eq_some_iff {ts : List Token} {g : Group} :
    tree? catalog ts = some g ↔ SearchWritten catalog g ts := by
  have hend : AtEnd [.confirm] := ⟨by simp [NoMark, Token.isRangeMarker], by simp [Token.join?]⟩
  constructor
  · intro h
    unfold tree? at h
    split at h
    · next s hl hs =>
      cases h
      obtain ⟨used, hu, hw⟩ := (readers_sound catalog).2.1 _ _ _ _ hs
      rw [hu]
      exact hw.root
    · cases h
  · intro h
    cases h with
    | lone he hd =>
      have hw : SequenceWritten catalog .and [.group g] _ := .single he
      obtain ⟨⟨r, hl⟩, hs, rfl⟩ := sequence?_complete hw
        (by simpa [depthOf, Expression.depth] using hd) hend
      simp [tree?, hs, Sequence.root]
    | @wrapped join nodes ts hw hj hg hd =>
      obtain ⟨⟨r, hl⟩, hs, rfl⟩ := sequence?_complete hw hd hend
      have hroot (j : Option Join) : Sequence.root ⟨nodes, j⟩ = ⟨j.getD .and, nodes, false⟩ :=
        Sequence.root_of_not_lone hg
      by_cases hn : nodes.length = 1 <;> simp [tree?, hs, hroot, hn, hj]

/-- A text is a search with groups exactly when it holds a parenthesis, ends with the
confirmation and its tokens write a search; its tree is then the only one they write. -/
theorem read?_iff_searchWritten (catalog : Catalog) (t : Text) :
    ((∃ f, read? catalog t = some f) ↔
      Token.display .groupOpen <:+: t ∧ Confirmation.mark <:+ Text.trimEnd t ∧
        ∃ g, SearchWritten catalog g (Token.ofText (Text.trim t))) ∧
    ∀ f, read? catalog t = some f →
      ∀ g, SearchWritten catalog g (Token.ofText (Text.trim t)) ↔ f.group = some g := by
  have hread : ∀ f, read? catalog t = some f ↔
      (Token.display .groupOpen <:+: t ∧ Confirmation.mark <:+ Text.trimEnd t) ∧
        ∃ g, tree? catalog (Token.ofText (Text.trim t)) = some g ∧ Filter.ofGroup? g = some f := by
    intro f
    rw [← Text.hasPart_iff, ← List.isSuffixOf_iff_suffix]
    simp [read?, Confirmation.isConfirmed, Option.bind_eq_some_iff]
  constructor
  · constructor
    · rintro ⟨f, hf⟩
      obtain ⟨⟨hp, hc⟩, g, hg, -⟩ := (hread f).1 hf
      exact ⟨hp, hc, g, tree?_eq_some_iff.1 hg⟩
    · rintro ⟨hp, hc, g, hg⟩
      obtain ⟨c, hleaf⟩ := hg.firstLeaf
      have ⟨f, hf⟩ : ∃ f, Filter.ofGroup? g = some f := by simp [Filter.ofGroup?, hleaf]
      exact ⟨f, (hread f).2 ⟨⟨hp, hc⟩, g, tree?_eq_some_iff.2 hg, hf⟩⟩
  · intro f hf g
    obtain ⟨-, g', hg', hf'⟩ := (hread f).1 hf
    obtain ⟨c, -, rfl⟩ := Option.map_eq_some_iff.1 hf'
    rw [← tree?_eq_some_iff, hg']

end Grouped

end HashtagSearch
