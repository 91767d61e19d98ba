import HashtagSearch.Proofs.Continuation

/-!
# Where a text is cut

A text is cut at each keyword that stands at its start or behind a blank, and nowhere else.
The keywords with the blanks in front of them, put back between the segments, give the text
again, and no segment holds a blank with a keyword behind it. There is one such cut.
-/

namespace HashtagSearch

open Text

namespace Join

variable {join : Join} {t word rest : Text}

/-- A word behind a `#`, in front of `rest`, is the keyword of the join: it spells it in some
case, and no word character follows. -/
structure IsKeyword (join : Join) (word rest : Text) : Prop where
  spelled : sameIgnoringCase word join.keyword.toList = true
  ends : startsWithWordChar rest = false

theorem ofKeyword?_of_spelled (h : sameIgnoringCase word join.keyword.toList = true) :
    ofKeyword? word = some join := by
  cases join with
  | and => rw [ofKeyword?, if_pos h]
  | or =>
    have hword : word.map Char.toLower = or.keyword.toList.map Char.toLower := beq_iff_eq.1 h
    have hand : ¬ sameIgnoringCase word and.keyword.toList = true := by
      rw [sameIgnoringCase, hword]
      decide
    rw [ofKeyword?, if_neg hand, if_pos h]

theorem read?_eq_some_iff : read? t = some (join, rest) ↔
    ∃ word, join.IsKeyword word rest ∧ t = '#' :: word ++ rest := by
  constructor
  · intro h
    obtain ⟨hdrop, hends⟩ := afterKeyword?_eq_some_iff.1 (afterKeyword?_of_read? h)
    obtain ⟨m, rfl, hm⟩ := dropWord?_eq_some hdrop
    cases m with
    | nil => cases hm
    | cons c word =>
      obtain ⟨hc, hword⟩ := List.cons.inj hm
      obtain rfl := toLower_eq_hash hc.symm
      exact ⟨word, ⟨by rw [sameIgnoringCase, beq_iff_eq, hword], hends⟩, rfl⟩
  · rintro ⟨word, hword, rfl⟩
    exact read?_of_ofKeyword? (ofKeyword?_of_spelled hword.spelled) hword.ends

theorem read?_eq_none_iff : read? t = none ↔
    ∀ (join : Join) (word rest : Text), t = '#' :: word ++ rest → ¬ join.IsKeyword word rest := by
  constructor
  · intro h join word rest ht hword
    cases h.symm.trans (read?_eq_some_iff.2 ⟨word, hword, ht⟩)
  · intro h
    by_contra hread
    obtain ⟨⟨join, rest⟩, hread⟩ := Option.ne_none_iff_exists'.1 hread
    obtain ⟨word, hword, ht⟩ := read?_eq_some_iff.1 hread
    exact h join word rest ht hword

theorem IsKeyword.no_blank (h : join.IsKeyword word rest) : ∀ c ∈ '#' :: word, isBlank c = false := by
  refine List.forall_mem_cons.2 ⟨by decide, fun c hc => ?_⟩
  have hlower : c.toLower ∈ join.keyword.toList.map Char.toLower :=
    beq_iff_eq.1 h.spelled ▸ List.mem_map_of_mem hc
  obtain ⟨w, hw, heq⟩ := List.mem_map.1 hlower
  exact not_blank_of_keyword (List.mem_cons_of_mem '#' hw) heq

end Join

namespace Joined

variable {s : Joined Text} {t x rest : Text} {c : Char}

/-! ## Cuts -/

/-- No blank of `x` has a keyword behind it in the text `x ++ rest`. -/
def Unbroken (x rest : Text) : Prop :=
  ∀ u b v, x = u ++ b :: v → isBlank b = true →
    ∀ (join : Join) (word after : Text), v ++ rest = '#' :: word ++ after →
      ¬ join.IsKeyword word after

/-- Segments and joins of a text in front of which something stands: between two segments there
are a blank and the keyword of the join behind it, and no segment could be cut further. -/
inductive CutBehind : Joined Text → Text → Prop
  | last {x : Text} : Unbroken x [] → CutBehind ⟨x, []⟩ x
  | cons {x word t : Text} {b : Char} {join : Join} {s : Joined Text} :
      Unbroken x (b :: '#' :: word ++ t) → isBlank b = true → join.IsKeyword word t →
      CutBehind s t → CutBehind (s.cons x join) (x ++ (b :: '#' :: word ++ t))

/-- Segments and joins of a text. At its start a keyword has no blank in front of it. -/
inductive Cut : Joined Text → Text → Prop
  | start {word t : Text} {join : Join} {s : Joined Text} : join.IsKeyword word t →
      CutBehind s t → Cut (s.cons [] join) ('#' :: word ++ t)
  | behind {t : Text} {s : Joined Text} :
      (∀ (join : Join) (word rest : Text), t = '#' :: word ++ rest → ¬ join.IsKeyword word rest) →
      CutBehind s t → Cut s t

theorem unbroken_nil (rest : Text) : Unbroken [] rest := by
  intro u b v hx
  simp at hx

theorem readJoin?_eq_none_iff : readJoin? (c :: t) = none ↔ (isBlank c = true → Join.read? t = none) := by
  rw [readJoin?]
  split
  · next hc => simp [hc]
  · next hc => simp [hc]

theorem unbroken_cons_iff :
    Unbroken (c :: x) rest ↔ readJoin? (c :: (x ++ rest)) = none ∧ Unbroken x rest := by
  rw [readJoin?_eq_none_iff, Join.read?_eq_none_iff]
  constructor
  · intro h
    exact ⟨fun hc => h [] c x rfl hc, fun u b v hx => h (c :: u) b v (by rw [hx]; rfl)⟩
  · rintro ⟨hc, hx⟩ u b v hcons hb
    cases u with
    | nil =>
      obtain ⟨rfl, rfl⟩ := List.cons.inj hcons
      exact hc hb
    | cons d u => exact hx u b v (List.cons.inj hcons).2 hb

/-! ## The segments are a cut -/

theorem CutBehind.prependChar (h : CutBehind s t) (hc : readJoin? (c :: t) = none) :
    CutBehind (s.prependChar c) (c :: t) := by
  cases h with
  | last hx => exact .last (unbroken_cons_iff.2 ⟨by rwa [List.append_nil], hx⟩)
  | cons hx hb hword hs => exact .cons (unbroken_cons_iff.2 ⟨hc, hx⟩) hb hword hs

theorem cutBehind_ofTextAfter (t : Text) : CutBehind (ofTextAfter t) t := by
  induction t using ofTextAfter.induct with
  | case1 t join rest hr ih =>
    rw [ofTextAfter_of_join hr]
    cases t with
    | nil => cases hr
    | cons b t =>
      simp only [readJoin?] at hr
      split at hr
      · next hb =>
        obtain ⟨word, hword, rfl⟩ := Join.read?_eq_some_iff.1 hr
        exact CutBehind.cons (unbroken_nil _) hb hword ih
      · cases hr
  | case2 _ =>
    rw [ofTextAfter_nil]
    exact .last (unbroken_nil [])
  | case3 c t hr ih =>
    rw [ofTextAfter_cons hr]
    exact ih.prependChar hr

theorem cut_ofText (t : Text) : Cut (ofText t) t := by
  unfold ofText
  split
  · next join rest hr =>
    obtain ⟨word, hword, rfl⟩ := Join.read?_eq_some_iff.1 hr
    exact .start hword (cutBehind_ofTextAfter rest)
  · next hr => exact .behind (Join.read?_eq_none_iff.1 hr) (cutBehind_ofTextAfter t)

/-! ## There is one cut -/

theorem ofTextAfter_append_of_unbroken (h : Unbroken x rest) :
    ofTextAfter (x ++ rest) = ⟨x ++ (ofTextAfter rest).head, (ofTextAfter rest).tail⟩ := by
  induction x with
  | nil => rfl
  | cons c x ih =>
    obtain ⟨hc, hx⟩ := unbroken_cons_iff.1 h
    rw [List.cons_append, ofTextAfter_cons hc, ih hx]
    rfl

theorem CutBehind.ofTextAfter_eq (h : CutBehind s t) : ofTextAfter t = s := by
  induction h with
  | @last x hx =>
    have hend := ofTextAfter_append_of_unbroken hx
    rwa [List.append_nil, ofTextAfter_nil, List.append_nil] at hend
  | @cons x word t b join s hx hb hword _ ih =>
    have hread : readJoin? (b :: '#' :: word ++ t) = some (join, t) := by
      rw [List.cons_append, readJoin?, if_pos hb]
      exact Join.read?_eq_some_iff.2 ⟨word, hword, rfl⟩
    rw [ofTextAfter_append_of_unbroken hx, ofTextAfter_of_join hread, ih]
    simp [Joined.cons]

theorem Cut.ofText_eq (h : Cut s t) : ofText t = s := by
  cases h with
  | @start word t join s hword hs =>
    rw [ofText, Join.read?_eq_some_iff.2 ⟨word, hword, rfl⟩, ← hs.ofTextAfter_eq]
  | behind hnone hs =>
    rw [ofText, Join.read?_eq_none_iff.2 hnone, ← hs.ofTextAfter_eq]

/-! ## The number of keywords -/

/-- The number of places in a text where a keyword stands, at the start or behind a blank. -/
def countKeywords (t : Text) : Nat :=
  (if (Join.read? t).isSome then 1 else 0) + t.tails.countP fun r => (readJoin? r).isSome

theorem countP_tails_append (h : ∀ c ∈ x, isBlank c = false) (rest : Text) :
    (x ++ rest).tails.countP (fun r => (readJoin? r).isSome) =
      rest.tails.countP fun r => (readJoin? r).isSome := by
  induction x with
  | nil => rfl
  | cons c x ih =>
    obtain ⟨hc, hx⟩ := List.forall_mem_cons.1 h
    have hnone : readJoin? (c :: (x ++ rest)) = none :=
      readJoin?_eq_none_iff.2 fun hb => absurd hb (by simp [hc])
    rw [List.cons_append, List.tails_cons, List.countP_cons_of_neg (by simp [hnone]), ih hx]

theorem length_tail_ofTextAfter (t : Text) :
    (ofTextAfter t).tail.length = t.tails.countP fun r => (readJoin? r).isSome := by
  induction t using ofTextAfter.induct with
  | case1 t join rest hr ih =>
    rw [ofTextAfter_of_join hr]
    cases t with
    | nil => cases hr
    | cons b t =>
      have hb : isBlank b = true := by
        by_contra hb
        rw [readJoin?, if_neg hb] at hr
        cases hr
      rw [List.tails_cons, List.countP_cons_of_pos (by rw [hr]; rfl)]
      rw [readJoin?, if_pos hb] at hr
      obtain ⟨word, hword, rfl⟩ := Join.read?_eq_some_iff.1 hr
      rw [countP_tails_append hword.no_blank, ← ih]
      simp [cons]
  | case2 _ =>
    rw [ofTextAfter_nil]
    rfl
  | case3 c t hr ih =>
    rw [ofTextAfter_cons hr, List.tails_cons, List.countP_cons_of_neg (by simp [hr]), ← ih]
    rfl

theorem countJoins_eq_countKeywords (t : Text) : countJoins t = countKeywords t := by
  unfold countJoins countKeywords ofText
  cases hr : Join.read? t with
  | none => simp [length_tail_ofTextAfter]
  | some p =>
    obtain ⟨join, rest⟩ := p
    obtain ⟨word, hword, rfl⟩ := Join.read?_eq_some_iff.1 hr
    rw [countP_tails_append hword.no_blank, ← length_tail_ofTextAfter]
    simp [cons]
    omega

/-- A text has one more segment than keywords, and its segments and joins are its only cut. -/
theorem ofText_eq_iff_cut (t : Text) :
    (ofText t).joins.length = countJoins t ∧ (ofText t).items.length = countJoins t + 1 ∧
      countJoins t = countKeywords t ∧ ∀ s, ofText t = s ↔ Cut s t := by
  have hjoins : (ofText t).joins.length = countJoins t := List.length_map _
  refine ⟨hjoins, ?_, countJoins_eq_countKeywords t, fun s => ⟨?_, Cut.ofText_eq⟩⟩
  · rw [← length_joins, hjoins]
  · rintro rfl
    exact cut_ofText t

end Joined

end HashtagSearch
