import HashtagSearch.Proofs.Flat.Reading
import HashtagSearch.Proofs.Typing.Extending

/-!
# Blanks around a search

A search can be moved to the right, and blanks can follow it. In front, blanks go to the first
segment, which is trimmed before it is read, and they stand for the start of the text that a
keyword may follow. At the end they go to the last segment; only a search that is being typed
looks at the end of its text as it is.
-/

namespace HashtagSearch

open Text

variable {catalog : Catalog} {defaultColumn : Option Column} {p q t : Text}

/-! ## Cutting -/

namespace Joined

/-- Blanks in front go to the first segment, unless one of them begins the first keyword. -/
theorem ofTextAfter_blank_append {b : Char} (hp : AllBlank (b :: p)) (t : Text) :
    ∃ g, AllBlank g ∧
      ofTextAfter (b :: p ++ t) = ⟨g ++ (ofText t).head, (ofText t).tail⟩ := by
  induction p generalizing b with
  | nil =>
    have hread : readJoin? (b :: t) = Join.read? t := if_pos (hp b List.mem_cons_self)
    rw [List.singleton_append]
    cases hr : Join.read? t with
    | some r =>
      refine ⟨[], nofun, ?_⟩
      rw [ofTextAfter_of_join (hread.trans hr), ofText, hr]
      rfl
    | none =>
      refine ⟨[b], hp, ?_⟩
      rw [ofTextAfter_cons (hread.trans hr), ofText, hr]
      rfl
  | cons c p ih =>
    obtain ⟨hb, htail⟩ := List.forall_mem_cons.1 hp
    obtain ⟨g, hg, hcut⟩ := ih htail
    have hread : readJoin? (b :: (c :: p ++ t)) = none := by
      have hc := (Apart.of_blank (htail c List.mem_cons_self) (p ++ t)).no_join
      simpa [readJoin?] using fun _ => hc
    refine ⟨b :: g, List.forall_mem_cons.2 ⟨hb, hg⟩, ?_⟩
    rw [List.cons_append, ofTextAfter_cons hread, hcut]
    rfl

theorem ofText_blank_append (hp : AllBlank p) (t : Text) :
    ∃ g, AllBlank g ∧ ofText (p ++ t) = ⟨g ++ (ofText t).head, (ofText t).tail⟩ := by
  cases p with
  | nil => exact ⟨[], nofun, rfl⟩
  | cons b p =>
    have hread : Join.read? (b :: p ++ t) = none :=
      (Apart.of_blank (hp b List.mem_cons_self) (p ++ t)).no_join
    rw [ofText, hread]
    exact ofTextAfter_blank_append hp t

theorem countJoins_blank_append (hp : AllBlank p) (t : Text) :
    countJoins (p ++ t) = countJoins t := by
  obtain ⟨g, -, hcut⟩ := ofText_blank_append hp t
  rw [countJoins, hcut, ← countJoins]

theorem ofText_append_blank (hq : AllBlank q) (t : Text) :
    ofText (t ++ q) = (ofText t).append ⟨q, []⟩ := by
  have hapart : Apart q := by
    cases q with
    | nil => exact apart_nil
    | cons b q => exact Apart.of_blank (hq b List.mem_cons_self) q
  rw [ofText_append hapart, whole_of_blank hq]

theorem append_single_cases (s : Joined Text) (q : Text) :
    (s.tail = [] ∧ (s.append ⟨q, []⟩).tail = []) ∨
      ∃ init join y, s.tail = init ++ [(join, y)] ∧
        s.append ⟨q, []⟩ = ⟨s.head, init ++ [(join, y ++ q)]⟩ := by
  obtain ⟨x, tail⟩ := s
  rcases List.eq_nil_or_concat tail with rfl | ⟨init, ⟨join, y⟩, rfl⟩
  · exact .inl ⟨rfl, rfl⟩
  · refine .inr ⟨init, join, y, List.concat_eq_append, ?_⟩
    rw [List.concat_eq_append, concat_append]

theorem countJoins_append_blank (hq : AllBlank q) (t : Text) :
    countJoins (t ++ q) = countJoins t := by
  rw [countJoins, ofText_append_blank hq, countJoins]
  rcases append_single_cases (ofText t) q with ⟨ht, hs⟩ | ⟨init, join, y, ht, hs⟩
  · rw [ht, hs]
  · simp [ht, hs]

theorem head_ofText_append_blank (hq : AllBlank q) (h : countJoins t ≠ 0) :
    (ofText (t ++ q)).head = (ofText t).head := by
  rw [ofText_append_blank hq]
  rcases append_single_cases (ofText t) q with ⟨ht, -⟩ | ⟨init, join, y, -, hs⟩
  · exact absurd ht (countJoins_ne_zero_iff.1 h)
  · rw [hs]

theorem exists_cons_cons_of_countJoins (h : countJoins t ≠ 0) : ∃ c d r, t = c :: d :: r := by
  match t with
  | [] => exact absurd (countJoins_of_whole whole_nil rfl) h
  | [c] =>
    have hread : Join.read? [c] = none := by
      by_cases hc : c = '#'
      · rw [hc]
        rfl
      · exact Join.read?_of_head_ne hc []
    have hjoin : readJoin? [c] = none := by
      rw [readJoin?]
      split <;> rfl
    exact absurd (countJoins_of_whole (whole_nil.cons hjoin) hread) h
  | c :: d :: r => exact ⟨c, d, r, rfl⟩

end Joined

/-! ## Marks -/

namespace Text

theorem suffix_blank_append_iff {e : Text} (he : ∀ c ∈ e, isBlank c = false) (hp : AllBlank p)
    (t : Text) : e <:+ p ++ t ↔ e <:+ t := by
  constructor
  · rintro ⟨z, hz⟩
    rcases List.append_eq_append_iff.1 hz with ⟨a, ha, he'⟩ | ⟨a, -, ht⟩
    · cases a with
      | nil => exact he' ▸ List.suffix_rfl
      | cons c a =>
        have hblank : isBlank c = true := hp c (by simp [ha])
        have hsolid : isBlank c = false := he c (by simp [he'])
        exact absurd hblank (by simp [hsolid])
    · exact ⟨a, ht.symm⟩
  · exact fun h => h.trans (List.suffix_append p t)

theorem words_blank_append (hp : AllBlank p) (t : Text) : words (p ++ t) = words t := by
  rw [← words_trimStart, trimStart_append_of_allBlank hp, words_trimStart]

theorem trimEnd_blank_append_cases (hp : AllBlank p) (t : Text) :
    (trimEnd t = [] ∧ trimEnd (p ++ t) = []) ∨ trimEnd (p ++ t) = p ++ trimEnd t := by
  by_cases h : trimEnd t = []
  · refine .inl ⟨h, ?_⟩
    have hblank {s : Text} (hs : AllBlank s) : trimEnd s = [] :=
      trimEnd_append_of_allBlank [] hs
    have ht : AllBlank t := fun c hc => List.rdropWhile_eq_nil_iff.1 h c hc
    exact hblank fun c hc => (List.mem_append.1 hc).elim (hp c) (ht c)
  · exact .inr (trimEnd_append p h)

end Text

namespace Confirmation

theorem no_blank_mark : ∀ c ∈ mark, isBlank c = false := by simp [mark, isBlank]

theorem isConfirmed_blank_append (hp : AllBlank p) (t : Text) :
    isConfirmed (p ++ t) = isConfirmed t := by
  rw [isConfirmed, isConfirmed]
  rcases trimEnd_blank_append_cases hp t with ⟨ht, hs⟩ | hs
  · rw [ht, hs]
  · rw [hs, Bool.eq_iff_iff, List.isSuffixOf_iff_suffix, List.isSuffixOf_iff_suffix,
      suffix_blank_append_iff no_blank_mark hp]

theorem isConfirmed_append_blank (hq : AllBlank q) (t : Text) :
    isConfirmed (t ++ q) = isConfirmed t := by
  rw [isConfirmed, trimEnd_append_of_allBlank _ hq, ← isConfirmed]

theorem isConfirmed_of_suffix (h : mark <:+ t) : isConfirmed t = true := by
  obtain ⟨z, rfl⟩ := h
  exact isConfirmed_append_mark z

/-- A text with a keyword ends as it does with blanks in front of it. -/
theorem isTriggered_blank_append (hp : AllBlank p) (h : countJoins t ≠ 0) :
    isTriggered (p ++ t) = isTriggered t := by
  obtain ⟨c, d, r, rfl⟩ := Joined.exists_cons_cons_of_countJoins h
  have htrigger : trigger.isSuffixOf (p ++ c :: d :: r) = trigger.isSuffixOf (c :: d :: r) := by
    rw [Bool.eq_iff_iff, List.isSuffixOf_iff_suffix, List.isSuffixOf_iff_suffix]
    constructor
    · intro hs
      exact List.suffix_of_suffix_length_le hs (List.suffix_append p _) (by simp [trigger])
    · exact fun hs => hs.trans (List.suffix_append p _)
  have hopen : endsWithOpenJoin (p ++ c :: d :: r) = endsWithOpenJoin (c :: d :: r) := by
    obtain ⟨x, y, z, hrev⟩ : ∃ x y z, (c :: d :: r).reverse = x :: y :: z := by
      have hlength : 2 ≤ (c :: d :: r).reverse.length := by simp
      cases hrev : (c :: d :: r).reverse with
      | nil => simp [hrev] at hlength
      | cons x t =>
        cases t with
        | nil => simp [hrev] at hlength
        | cons y z => exact ⟨x, y, z, rfl⟩
    have hwords : words (z ++ p.reverse).reverse = words z.reverse := by
      rw [List.reverse_append, List.reverse_reverse, words_blank_append hp]
    have hlong : (p ++ c :: d :: r).reverse = x :: y :: (z ++ p.reverse) := by
      rw [List.reverse_append, hrev]
      rfl
    unfold endsWithOpenJoin
    rw [hlong, hrev]
    by_cases hx : x = '#'
    · subst hx
      simp only [hwords]
    · simp [hx]
  rw [isTriggered, isTriggered, htrigger, hopen]

end Confirmation

/-! ## The readers -/

theorem Condition.ofText?_blank_append (hp : AllBlank p) (t : Text) :
    ofText? defaultColumn catalog (p ++ t) = ofText? defaultColumn catalog t := by
  apply ofText?_congr
  rw [← Confirmation.strip_trim, trim_append_of_allBlank hp, Confirmation.strip_trim]

theorem Condition.ofText?_append_blank (hq : AllBlank q) (t : Text) :
    ofText? defaultColumn catalog (t ++ q) = ofText? defaultColumn catalog t := by
  apply ofText?_congr
  rw [← Confirmation.strip_trim, trim_append_blank hq, Confirmation.strip_trim]

namespace Grouped

theorem read?_of_group (h : hasPart (Token.display .groupOpen) (trim t) = true) :
    read? catalog t = if Confirmation.isConfirmed t then
      (tree? catalog (Token.ofText (trim t))).bind Filter.ofGroup? else none := by
  have hpart : hasPart (Token.display .groupOpen) t = true :=
    hasPart_iff.2 ((hasPart_iff.1 h).trans (trim_isInfix t))
  rw [read?, hpart, Bool.true_and]

end Grouped

namespace Confirmed

theorem body?_append_blank (hq : AllBlank q) (t : Text) : body? (t ++ q) = body? t := by
  rw [body?, trimEnd_append_of_allBlank _ hq, ← body?]

theorem body?_blank_append (hp : AllBlank p) (t : Text) :
    body? (p ++ t) = (body? t).map (p ++ ·) := by
  rw [body?, body?]
  rcases trimEnd_blank_append_cases hp t with ⟨ht, hs⟩ | hs
  · rw [ht, hs]
    rfl
  · rw [hs]
    cases hbody : dropEnding? Confirmation.mark (trimEnd t) with
    | some body =>
      rw [dropEnding?_eq_some_iff] at hbody
      rw [Option.map_some, dropEnding?_eq_some_iff, hbody, List.append_assoc]
    | none =>
      rw [dropEnding?_eq_none_iff] at hbody
      rw [Option.map_none, dropEnding?_eq_none_iff,
        suffix_blank_append_iff Confirmation.no_blank_mark hp]
      exact hbody

theorem conditions?_blank_append (hp : AllBlank p) (s : Joined Text) :
    conditions? catalog ⟨p ++ s.head, s.tail⟩ = conditions? catalog s := by
  simp only [conditions?, Joined.filterMap, Condition.ofText?_blank_append hp]

theorem read?_blank_append (hp : AllBlank p) (t : Text) :
    read? catalog (p ++ t) = read? catalog t := by
  rw [read?, read?, Joined.countJoins_blank_append hp, body?_blank_append hp]
  cases body? t with
  | none => rfl
  | some body =>
    obtain ⟨g, hg, hcut⟩ := Joined.ofText_blank_append hp body
    simp only [Option.map_some, Option.bind_some, hcut, conditions?_blank_append hg]

theorem read?_append_blank (hq : AllBlank q) (t : Text) :
    read? catalog (t ++ q) = read? catalog t := by
  rw [read?, Joined.countJoins_append_blank hq, body?_append_blank hq, ← read?]

end Confirmed

namespace TypingState

theorem ofSegments?_blank_append (hp : AllBlank p) {s : Joined Text} (hs : s.tail ≠ [])
    (triggered : Bool) :
    ofSegments? catalog ⟨p ++ s.head, s.tail⟩ triggered = ofSegments? catalog s triggered := by
  obtain ⟨init, join, htail⟩ := Joined.exists_init hs
  have hfirst : Draft.ofFirst? catalog (p ++ s.head) = Draft.ofFirst? catalog s.head := by
    rw [Draft.ofFirst?, trim_append_of_allBlank hp, ← Draft.ofFirst?]
  have hlast : Joined.last ⟨p ++ s.head, s.tail⟩ = s.last := by
    simp only [htail, Joined.last_concat]
  rw [ofSegments?, ofSegments?, hfirst, hlast]

theorem ofText?_blank_append (hp : AllBlank p) (t : Text) :
    ofText? catalog (p ++ t) = ofText? catalog t := by
  have hmark : Confirmation.mark.isSuffixOf (p ++ t) = Confirmation.mark.isSuffixOf t := by
    rw [Bool.eq_iff_iff, List.isSuffixOf_iff_suffix, List.isSuffixOf_iff_suffix,
      suffix_blank_append_iff Confirmation.no_blank_mark hp]
  rw [ofText?, ofText?, Joined.countJoins_blank_append hp, hmark]
  split
  · rfl
  · next hopen =>
    have hcount : countJoins t ≠ 0 := by
      intro hzero
      simp [hzero] at hopen
    obtain ⟨g, hg, hcut⟩ := Joined.ofText_blank_append hp t
    rw [hcut, Confirmation.isTriggered_blank_append hp hcount,
      ofSegments?_blank_append hg (Joined.countJoins_ne_zero_iff.1 hcount)]

/-- A search whose first segment is not whole cannot be typed on, and blanks do not change
that. -/
theorem ofText?_append_blank (hq : AllBlank q) (hopen : Confirmation.isConfirmed t = false)
    (hcount : countJoins t ≠ 0) (h : ofText? catalog t = none) :
    ofText? catalog (t ++ q) = none := by
  have hmark : ¬ Confirmation.mark <:+ t := by
    intro hs
    rw [Confirmation.isConfirmed_of_suffix hs] at hopen
    cases hopen
  by_contra hsome
  obtain ⟨s, hs⟩ := Option.ne_none_iff_exists'.1 hsome
  obtain ⟨-, base, first, hfirst, -⟩ := ofText?_eq_some hs
  rw [Joined.head_ofText_append_blank hq hcount] at hfirst
  obtain ⟨s', hs', -⟩ := exists_of_ofFirst? hcount hmark hfirst
  cases h.symm.trans hs'

end TypingState

/-! ## The dispatch -/

namespace Confirmation

theorem isConditionForm_congr {s t : Text} (h : trim s = trim t) :
    isConditionForm s = isConditionForm t := by
  rw [isConditionForm, h, ← isConditionForm]

end Confirmation

theorem Shorthand.read?_congr {s t : Text} (h : trim s = trim t) :
    read? catalog s = read? catalog t := by
  rw [read?, h, ← read?]

namespace Outcome

theorem ofTagged_blank_append (hp : AllBlank p) (t : Text) :
    ofTagged catalog defaultColumn (p ++ t) = ofTagged catalog defaultColumn t := by
  have htrim : trim (p ++ t) = trim t := trim_append_of_allBlank hp t
  rw [ofTagged, ofTagged, htrim]
  split
  · next hgroup =>
    rw [Grouped.read?_of_group (htrim.symm ▸ hgroup), Grouped.read?_of_group hgroup, htrim,
      Confirmation.isConfirmed_blank_append hp]
  · rw [Joined.countJoins_blank_append hp, Confirmation.isConfirmed_blank_append hp,
      Confirmed.read?_blank_append hp, TypingState.ofText?_blank_append hp,
      Confirmation.isConditionForm_congr htrim, Condition.ofText?_blank_append hp,
      Shorthand.read?_congr htrim]

/-- Only a search that is being typed can change its meaning by blanks at its end. -/
theorem ofTagged_append_blank (hq : AllBlank q)
    (h : ∀ s, ofTagged catalog defaultColumn t ≠ .typing s) :
    ofTagged catalog defaultColumn (t ++ q) = ofTagged catalog defaultColumn t := by
  have htrim : trim (t ++ q) = trim t := trim_append_blank hq t
  have hconfirmed := Confirmation.isConfirmed_append_blank hq t
  rw [ofTagged] at h
  rw [ofTagged, ofTagged, htrim]
  split
  · next hgroup =>
    rw [Grouped.read?_of_group (htrim.symm ▸ hgroup), Grouped.read?_of_group hgroup, htrim,
      hconfirmed]
  · next hgroup =>
    rw [Joined.countJoins_append_blank hq, hconfirmed, Confirmed.read?_append_blank hq,
      Confirmation.isConditionForm_congr htrim, Condition.ofText?_append_blank hq,
      Shorthand.read?_congr htrim]
    rw [if_neg hgroup] at h
    split
    · next hcount =>
      rw [if_pos hcount] at h
      split
      · rfl
      · next hopen =>
        rw [if_neg hopen] at h
        cases hstate : TypingState.ofText? catalog t with
        | some s => exact absurd (by rw [hstate]; rfl) (h s)
        | none =>
          rw [TypingState.ofText?_append_blank hq (by simpa using hopen) hcount hstate]
    · rfl

/-- Blanks in front of a search text do not change what it means, and neither do blanks behind
it, unless it is being typed. -/
theorem ofText_between_blanks (hp : AllBlank p) (hq : AllBlank q) (catalog : Catalog)
    (defaultColumn : Option Column) (t : Text) :
    ofText catalog defaultColumn (p ++ t) = ofText catalog defaultColumn t ∧
      ((∀ s, ofText catalog defaultColumn t ≠ .typing s) →
        ofText catalog defaultColumn (t ++ q) = ofText catalog defaultColumn t) := by
  constructor
  · rw [ofText, ofText, trim_append_of_allBlank hp, ofTagged_blank_append hp]
  · intro h
    rw [ofText] at h
    rw [ofText, ofText, trim_append_blank hq]
    split
    · rfl
    · next ht =>
      rw [ht] at h
      exact ofTagged_append_blank hq h
    · rfl

/-- A confirmed search that starts with a keyword, so that a blank in front becomes part of it. -/
theorem ofText_between_blanks_keyword : ∃ f,
    AllBlank ['\u3000', '\t'] ∧ AllBlank ['\u0085', ' '] ∧
    ofText [⟨"price".toList, [], true, .number⟩] none
      "#and #price #gt 3 #or #price #lt 2##".toList = .filter f ∧
    ofText [⟨"price".toList, [], true, .number⟩] none
      (['\u3000', '\t'] ++ "#and #price #gt 3 #or #price #lt 2##".toList) = .filter f ∧
    ofText [⟨"price".toList, [], true, .number⟩] none
      ("#and #price #gt 3 #or #price #lt 2##".toList ++ ['\u0085', ' ']) = .filter f := by
  have hfront : AllBlank ['\u3000', '\t'] := by simp [AllBlank, isBlank]
  have hend : AllBlank ['\u0085', ' '] := by simp [AllBlank, isBlank]
  obtain ⟨f, hf⟩ : ∃ f, ofText [⟨"price".toList, [], true, .number⟩] none
      "#and #price #gt 3 #or #price #lt 2##".toList = .filter f := by
    have hread : (Confirmed.read? [⟨"price".toList, [], true, .number⟩]
        "#and #price #gt 3 #or #price #lt 2##".toList).isSome = true := by decide +kernel
    have hcount : countJoins "#and #price #gt 3 #or #price #lt 2##".toList ≠ 0 := by
      decide +kernel
    obtain ⟨f, hf⟩ := Option.isSome_iff_exists.1 hread
    refine ⟨f, ?_⟩
    rw [ofText_of_trim rfl, ofTagged, if_neg (by decide), if_pos hcount, if_pos (by decide), hf]
    rfl
  obtain ⟨hsame, hsame'⟩ := ofText_between_blanks hfront hend
    [⟨"price".toList, [], true, .number⟩] none "#and #price #gt 3 #or #price #lt 2##".toList
  have hfinished : ∀ s, ofText [⟨"price".toList, [], true, .number⟩] none
      "#and #price #gt 3 #or #price #lt 2##".toList ≠ .typing s := by
    intro s hs
    cases hf.symm.trans hs
  exact ⟨f, hfront, hend, hf, hsame.trans hf, (hsame' hfinished).trans hf⟩

end Outcome

end HashtagSearch
