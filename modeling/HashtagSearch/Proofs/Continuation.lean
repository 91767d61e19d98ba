import HashtagSearch.Proofs.Text.Keywords
import HashtagSearch.Proofs.Text.Parts

/-!
# Texts that go on

The segments of a text are parts of it. When more is typed, a keyword that is followed by
something stays a keyword, and what is no keyword becomes one only if nothing but a part of
the keyword has been typed. So all segments stay as they are, except for the last.
-/

namespace HashtagSearch

open Text

namespace Join

variable {join : Join} {t rest : Text}

theorem afterKeyword?_eq_some_iff : join.afterKeyword? t = some rest ↔
    dropWord? ('#' :: join.keyword.toList) t = some rest ∧ startsWithWordChar rest = false := by
  unfold afterKeyword?
  constructor
  · intro h
    split at h
    · next r hr =>
      split at h
      · cases h
      · next hw =>
        cases h
        exact ⟨hr, by simpa using hw⟩
    · cases h
  · rintro ⟨hr, hw⟩
    simp [hr, hw]

theorem afterKeyword?_of_read? (h : read? t = some (join, rest)) :
    join.afterKeyword? t = some rest := by
  unfold read? at h
  split at h
  · next hr =>
    cases h
    exact hr
  · obtain ⟨r, hr, heq⟩ := Option.map_eq_some_iff.1 h
    cases heq
    exact hr

theorem read?_eq_none (h : read? t = none) (join : Join) : join.afterKeyword? t = none := by
  unfold read? at h
  split at h
  · cases h
  · next hand =>
    cases join with
    | and => exact hand
    | or => exact Option.map_eq_none_iff.1 h

theorem suffix_of_read? (h : read? t = some (join, rest)) : rest <:+ t := by
  obtain ⟨m, rfl, -⟩ :=
    dropWord?_eq_some (afterKeyword?_eq_some_iff.1 (afterKeyword?_of_read? h)).1
  exact List.suffix_append m rest

/-! ## Keywords in front of more text -/

theorem dropWord?_and_of_or (h : dropWord? ('#' :: or.keyword.toList) t = some rest) :
    dropWord? ('#' :: and.keyword.toList) t = none := by
  obtain ⟨m, rfl, hm⟩ := dropWord?_eq_some h
  match m with
  | [] => simp [keyword] at hm
  | [c] => simp [keyword] at hm
  | c :: d :: m =>
    have hd : d.toLower = 'o' := (List.cons.inj (List.cons.inj hm).2).1
    simp [dropWord?, keyword, hd]

theorem read?_append_of_some (h : read? t = some (join, rest)) (hr : rest ≠ []) (u : Text) :
    read? (t ++ u) = some (join, rest ++ u) := by
  obtain ⟨hdrop, hword⟩ := afterKeyword?_eq_some_iff.1 (afterKeyword?_of_read? h)
  have hdrop' := dropWord?_append_of_some hdrop u
  have hword' : startsWithWordChar (rest ++ u) = false := by
    obtain ⟨c, r, rfl⟩ := List.exists_cons_of_ne_nil hr
    exact hword
  have hafter : join.afterKeyword? (t ++ u) = some (rest ++ u) :=
    afterKeyword?_eq_some_iff.2 ⟨hdrop', hword'⟩
  cases join with
  | and => simp only [read?, hafter]
  | or =>
    have hand : and.afterKeyword? (t ++ u) = none := by
      rw [afterKeyword?, dropWord?_and_of_or hdrop']
    simp only [read?, hand, hafter, Option.map_some]

theorem read?_of_ofKeyword? {word : Text} (h : ofKeyword? word = some join)
    (hr : startsWithWordChar rest = false) : read? ('#' :: word ++ rest) = some (join, rest) := by
  have hafter (join : Join) (hsame : sameIgnoringCase word join.keyword.toList = true) :
      dropWord? ('#' :: join.keyword.toList) ('#' :: word ++ rest) = some rest := by
    rw [List.cons_append, dropWord?, if_pos rfl]
    exact dropWord?_of_sameIgnoringCase hsame rest
  unfold ofKeyword? at h
  split at h
  · next hand =>
    cases h
    have hread := afterKeyword?_eq_some_iff.2 ⟨hafter and hand, hr⟩
    simp only [read?, hread]
  · split at h
    · next hor =>
      cases h
      have hread := afterKeyword?_eq_some_iff.2 ⟨hafter or hor, hr⟩
      have hnone : and.afterKeyword? ('#' :: word ++ rest) = none := by
        rw [afterKeyword?, dropWord?_and_of_or (hafter or hor)]
      simp only [read?, hnone, hread, Option.map_some]
    · cases h

theorem not_blank_of_keyword {c w : Char} (hw : w ∈ '#' :: join.keyword.toList)
    (h : w.toLower = c.toLower) : isBlank c = false := by
  have hsmall : ∀ w ∈ ['#', 'a', 'n', 'd', 'o', 'r'], isBlank w = false := by simp [isBlank]
  have hmem : w ∈ ['#', 'a', 'n', 'd', 'o', 'r'] := by
    rcases List.mem_cons.1 hw with rfl | hw
    · exact List.mem_cons_self
    · exact List.mem_cons_of_mem _ (mem_keyword w hw)
  by_contra hblank
  have hb : isBlank c = true := by simpa using hblank
  have hc : c.toLower = c := (toLower_eq_iff_of_isBlank hb).2 rfl
  have hwc : w = c := (toLower_eq_iff_of_isBlank hb).1 (h.trans hc)
  rw [← hwc, hsmall w hmem] at hb
  cases hb

theorem read?_append_of_none (h : read? t = none) (hb : ∃ c ∈ t, isBlank c = true) (u : Text) :
    read? (t ++ u) = none := by
  by_contra hread
  obtain ⟨⟨join, rest⟩, hread⟩ := Option.ne_none_iff_exists'.1 hread
  obtain ⟨hdrop, hword⟩ := afterKeyword?_eq_some_iff.1 (afterKeyword?_of_read? hread)
  have hnone := read?_eq_none h join
  cases hd : dropWord? ('#' :: join.keyword.toList) t with
  | some r =>
    have hr : startsWithWordChar r = true := by
      by_contra hr
      rw [afterKeyword?_eq_some_iff.2 ⟨hd, by simpa using hr⟩] at hnone
      cases hnone
    cases r with
    | nil => cases hr
    | cons d r =>
      rw [dropWord?_append_of_some hd u] at hdrop
      obtain rfl := Option.some.inj hdrop
      rw [show startsWithWordChar (d :: r ++ u) = startsWithWordChar (d :: r) from rfl, hr]
        at hword
      cases hword
  | none =>
    obtain ⟨c, hc, hblank⟩ := hb
    obtain ⟨w, hw, heq⟩ := of_dropWord?_append hd hdrop c hc
    rw [not_blank_of_keyword hw heq] at hblank
    cases hblank

end Join

namespace Joined

variable {t x : Text}

theorem suffix_of_readJoin? {join : Join} {rest : Text} (h : readJoin? t = some (join, rest)) :
    rest <:+ t := by
  cases t with
  | nil => cases h
  | cons c t =>
    simp only [readJoin?] at h
    split at h
    · exact (Join.suffix_of_read? h).trans (List.suffix_cons c t)
    · cases h

/-! ## Segments are parts of the text -/

theorem ofTextAfter_parts (t : Text) : (ofTextAfter t).head <+: t ∧
    ∀ p ∈ (ofTextAfter t).tail, p.2 <:+: t := by
  induction t using ofTextAfter.induct with
  | case1 t join rest hr ih =>
    rw [ofTextAfter_of_join hr]
    have hrest := (suffix_of_readJoin? hr).isInfix
    refine ⟨List.nil_prefix, fun p hp => ?_⟩
    rcases List.mem_cons.1 hp with rfl | hp
    · exact ih.1.isInfix.trans hrest
    · exact (ih.2 p hp).trans hrest
  | case2 _ =>
    rw [ofTextAfter_nil]
    exact ⟨List.nil_prefix, by simp⟩
  | case3 c t hr ih =>
    rw [ofTextAfter_cons hr]
    refine ⟨(List.prefix_cons_inj c).2 ih.1, fun p hp => ?_⟩
    exact (ih.2 p hp).trans (List.suffix_cons c t).isInfix

theorem infix_of_mem_ofText (h : x ∈ (ofText t).items) : x <:+: t := by
  have hafter {t : Text} (h : x ∈ (ofTextAfter t).items) : x <:+: t := by
    rcases List.mem_cons.1 h with rfl | h
    · exact (ofTextAfter_parts t).1.isInfix
    · obtain ⟨p, hp, rfl⟩ := List.mem_map.1 h
      exact (ofTextAfter_parts t).2 p hp
  unfold ofText at h
  split at h
  · next join rest hr =>
    rw [items_cons] at h
    rcases List.mem_cons.1 h with rfl | h
    · exact List.nil_infix
    · exact (hafter h).trans (Join.suffix_of_read? hr).isInfix
  · exact hafter h

theorem head_isPrefix (t : Text) : (ofText t).head <+: t := by
  unfold ofText
  split
  · exact List.nil_prefix
  · exact (ofTextAfter_parts t).1

/-! ## Keywords in a text -/

/-- A keyword behind a blank or at the start cuts a text; the segments in front of it do not
depend on what follows. -/
theorem exists_ofText_keyword {p word : Text} {join : Join}
    (hp : ∀ b ∈ p.getLast?, isBlank b = true) (h : Join.ofKeyword? word = some join) :
    ∃ x init, x <+: p ∧ ∀ z, startsWithWordChar z = false → Whole z →
      ofText (p ++ ('#' :: word ++ z)) = ⟨x, init ++ [(join, z)]⟩ := by
  rcases List.eq_nil_or_concat p with rfl | ⟨s, b, rfl⟩
  · refine ⟨[], [], List.nil_prefix, fun z hz hwhole => ?_⟩
    rw [List.nil_append, ofText, Join.read?_of_ofKeyword? h hz]
    exact congrArg (cons [] join) hwhole
  · have hb : isBlank b = true := hp b (by simp)
    refine ⟨(ofText s).head, (ofText s).tail, ?_, fun z hz hwhole => ?_⟩
    · rw [List.concat_eq_append]
      exact (head_isPrefix s).trans (List.prefix_append s [b])
    · have hread : readJoin? (b :: ('#' :: word ++ z)) = some (join, z) := by
        rw [readJoin?, if_pos hb, Join.read?_of_ofKeyword? h hz]
      have happend (r : Joined Text) :
          r.append (cons [] join ⟨z, []⟩) = ⟨r.head, r.tail ++ [(join, z)]⟩ := by
        obtain ⟨x, tail⟩ := r
        rcases List.eq_nil_or_concat tail with rfl | ⟨init, ⟨j, y⟩, rfl⟩
        · rw [single_append]
          simp [cons]
        · rw [List.concat_eq_append, concat_append]
          simp [cons]
      rw [List.concat_eq_append, List.append_assoc, List.singleton_append,
        ofText_append (.of_blank hb _), ofTextAfter_of_join hread, hwhole, happend]

/-! ## Going on -/

/-- The second sequence goes on where the first ends: only the last text of the first may
be another one, unless there is nothing in it. -/
def Continues (s s' : Joined Text) : Prop :=
  ∀ init join y, s.tail = init ++ [(join, y)] → y ≠ [] →
    ∃ y' more, s' = ⟨s.head, init ++ (join, y') :: more⟩

theorem Continues.cons {r r' : Joined Text} (h : Continues r r') (x : Text) (join : Join) :
    Continues (r.cons x join) (r'.cons x join) := by
  intro init j y htail hy
  change (join, r.head) :: r.tail = init ++ [(j, y)] at htail
  cases init with
  | nil =>
    obtain ⟨hhead, -⟩ := List.cons.inj htail
    cases hhead
    exact ⟨r'.head, r'.tail, rfl⟩
  | cons p init =>
    obtain ⟨rfl, hrest⟩ := List.cons.inj htail
    obtain ⟨y', more, rfl⟩ := h init j y hrest hy
    exact ⟨y', more, rfl⟩

theorem ne_nil_of_tail_cons {rest : Text} {join j : Join} {y : Text} {init : List (Join × Text)}
    (htail : ((ofTextAfter rest).cons [] join).tail = init ++ [(j, y)]) (hy : y ≠ []) :
    rest ≠ [] := by
  rintro rfl
  rw [ofTextAfter_nil] at htail
  change [] ++ [(join, [])] = init ++ [(j, y)] at htail
  obtain ⟨-, hlast⟩ := List.append_inj' htail rfl
  cases hlast
  exact hy rfl

theorem exists_blank_of_tail {init : List (Join × Text)} {p : Join × Text}
    (htail : (ofTextAfter t).tail = init ++ [p]) : ∃ c ∈ t, isBlank c = true := by
  by_contra hnone
  have hwhole : Whole t := by
    apply whole_of_no_blank
    intro c hc
    by_contra hb
    exact hnone ⟨c, hc, by simpa using hb⟩
  rw [show ofTextAfter t = ⟨t, []⟩ from hwhole] at htail
  simp at htail

theorem ofTextAfter_continues (t u : Text) : Continues (ofTextAfter t) (ofTextAfter (t ++ u)) := by
  induction t using ofTextAfter.induct with
  | case1 t join rest hr ih =>
    rw [ofTextAfter_of_join hr]
    intro init j y htail hy
    have hrest := ne_nil_of_tail_cons htail hy
    have hru : readJoin? (t ++ u) = some (join, rest ++ u) := by
      cases t with
      | nil => cases hr
      | cons c t =>
        simp only [List.cons_append, readJoin?] at hr ⊢
        split at hr
        · next hc =>
          rw [if_pos hc]
          exact Join.read?_append_of_some hr hrest u
        · cases hr
    rw [ofTextAfter_of_join hru]
    exact ih.cons [] join init j y htail hy
  | case2 _ =>
    intro init j y htail
    rw [ofTextAfter_nil] at htail
    simp at htail
  | case3 c t hr ih =>
    rw [ofTextAfter_cons hr]
    intro init j y htail hy
    have hru : readJoin? (c :: (t ++ u)) = none := by
      simp only [readJoin?] at hr ⊢
      split at hr
      · next hc =>
        rw [if_pos hc]
        exact Join.read?_append_of_none hr (exists_blank_of_tail htail) u
      · next hc => rw [if_neg hc]
    obtain ⟨y', more, hmore⟩ := ih init j y htail hy
    rw [List.cons_append, ofTextAfter_cons hru, hmore]
    exact ⟨y', more, rfl⟩

/-- When more is typed behind a text that does not end with a keyword, its segments stay as
they are, except for the last. -/
theorem ofText_continues (t u : Text) : Continues (ofText t) (ofText (t ++ u)) := by
  intro init j y htail hy
  cases hr : Join.read? t with
  | some p =>
    obtain ⟨join, rest⟩ := p
    have ht : ofText t = (ofTextAfter rest).cons [] join := by simp only [ofText, hr]
    rw [ht] at htail ⊢
    have hru := Join.read?_append_of_some hr (ne_nil_of_tail_cons htail hy) u
    have htu : ofText (t ++ u) = (ofTextAfter (rest ++ u)).cons [] join := by
      simp only [ofText, hru]
    rw [htu]
    exact (ofTextAfter_continues rest u).cons [] join init j y htail hy
  | none =>
    have ht : ofText t = ofTextAfter t := by simp only [ofText, hr]
    rw [ht] at htail ⊢
    have hru := Join.read?_append_of_none hr (exists_blank_of_tail htail) u
    have htu : ofText (t ++ u) = ofTextAfter (t ++ u) := by simp only [ofText, hru]
    rw [htu]
    exact ofTextAfter_continues t u init j y htail hy

end Joined

end HashtagSearch
