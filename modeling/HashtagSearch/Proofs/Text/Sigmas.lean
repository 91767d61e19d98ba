import HashtagSearch.Proofs.Text.SmallLetters
import HashtagSearch.Proofs.Text.Trimming

/-!
# Small forms in context

A text in small letters is put together from the small forms of its characters, and only a
capital sigma looks at what is around it. So a part of a text has its own small form there,
unless a sigma at one of its ends gets a letter as its neighbour that it did not have.
-/

namespace HashtagSearch.Text

variable {a b v s t t' before before' after after' : Text} {c : Char}

/-! ## Characters that are passed over -/

/-- The characters that do not come between a sigma and its neighbours. -/
def AllIgnorable (t : Text) : Prop := ∀ c ∈ t, isCaseIgnorable c = true

theorem AllIgnorable.reverse (h : AllIgnorable s) : AllIgnorable s.reverse :=
  fun c hc => h c (List.mem_reverse.1 hc)

theorem meetsCased_cons (c : Char) (t : Text) :
    meetsCased (c :: t) = if isCaseIgnorable c = true then meetsCased t else isCased c := by
  rw [meetsCased, List.find?_cons]
  cases isCaseIgnorable c <;> rfl

theorem meetsCased_append_of_ignorable (h : AllIgnorable s) (t : Text) :
    meetsCased (s ++ t) = meetsCased t := by
  induction s with
  | nil => rfl
  | cons c s ih =>
    obtain ⟨hc, hs⟩ := List.forall_mem_cons.1 h
    rw [List.cons_append, meetsCased_cons, if_pos hc, ih hs]

theorem meetsCased_append_of_not_ignorable (h : ¬ AllIgnorable s) (t : Text) :
    meetsCased (s ++ t) = meetsCased s := by
  induction s with
  | nil => exact absurd (by nofun) h
  | cons c s ih =>
    rw [List.cons_append, meetsCased_cons, meetsCased_cons]
    split
    · next hc => exact ih fun hs => h (List.forall_mem_cons.2 ⟨hc, hs⟩)
    · rfl

theorem meetsCased_of_ignorable (h : AllIgnorable s) : meetsCased s = false := by
  have := meetsCased_append_of_ignorable h []
  rwa [List.append_nil] at this

/-- Nothing that is put behind a text takes away the letter that it starts with. -/
theorem meetsCased_append_of_meetsCased (h : meetsCased s = true) (t : Text) :
    meetsCased (s ++ t) = true := by
  rw [meetsCased_append_of_not_ignorable ?_ t, h]
  intro hs
  rw [meetsCased_of_ignorable hs] at h
  cases h

theorem meetsCased_append_congr (h : meetsCased t = meetsCased t') (s : Text) :
    meetsCased (s ++ t) = meetsCased (s ++ t') := by
  by_cases hs : AllIgnorable s
  · rw [meetsCased_append_of_ignorable hs, meetsCased_append_of_ignorable hs, h]
  · rw [meetsCased_append_of_not_ignorable hs, meetsCased_append_of_not_ignorable hs]

theorem meetsCased_cons_congr (h : meetsCased t = meetsCased t') (c : Char) :
    meetsCased (c :: t) = meetsCased (c :: t') :=
  meetsCased_append_congr h [c]

theorem dropWhile_eq_cons_iff {p : Char → Bool} {r : Text} :
    t.dropWhile p = c :: r ↔ ∃ s, t = s ++ c :: r ∧ (∀ x ∈ s, p x = true) ∧ p c = false := by
  constructor
  · intro h
    have hc := List.head?_dropWhile_not p t
    refine ⟨t.takeWhile p, ?_, fun x hx => List.mem_takeWhile_imp hx, by simpa [h] using hc⟩
    rw [← h, List.takeWhile_append_dropWhile]
  · rintro ⟨s, rfl, hs, hc⟩
    exact (takeWhile_append_of_head hs (by simpa using hc)).2

/-! ## The sigmas of a part -/

/-- The small form of a text between `before`, which is given in reverse, and `after`. -/
def lowerBetween (before after : Text) : Text → Text
  | [] => []
  | c :: t =>
    if c = 'Σ' then lowerSigma before (t ++ after) :: lowerBetween (c :: before) after t
    else lowerChar c ++ lowerBetween (c :: before) after t

theorem lowerAfter_append (before t u : Text) :
    lowerAfter before (t ++ u) =
      lowerBetween before u t ++ lowerAfter (t.reverse ++ before) u := by
  induction t generalizing before with
  | nil => rfl
  | cons c t ih =>
    rw [List.cons_append, lowerAfter, lowerBetween, ih, List.reverse_cons, List.append_assoc,
      List.singleton_append]
    split
    · rw [List.cons_append]
    · rw [List.append_assoc]

theorem lowerAfter_eq_lowerBetween (before t : Text) :
    lowerAfter before t = lowerBetween before [] t := by
  have := lowerAfter_append before t []
  rw [List.append_nil] at this
  exact this.trans (List.append_nil _)

theorem lower_eq_lowerBetween (t : Text) : lower t = lowerBetween [] [] t :=
  lowerAfter_eq_lowerBetween [] t

theorem lower_append_append (a v b : Text) : lower (a ++ (v ++ b)) =
    lowerBetween [] (v ++ b) a ++ (lowerBetween a.reverse b v ++
      lowerAfter (v.reverse ++ a.reverse) b) := by
  rw [lower, lowerAfter_append, List.append_nil, lowerAfter_append]

/-- A sigma has one small letter in every context. -/
theorem length_lowerBetween (before after before' after' t : Text) :
    (lowerBetween before after t).length = (lowerBetween before' after' t).length := by
  induction t generalizing before before' with
  | nil => rfl
  | cons c t ih =>
    rw [lowerBetween, lowerBetween]
    split
    · rw [List.length_cons, List.length_cons, ih]
    · rw [List.length_append, List.length_append, ih]

theorem lowerSigma_eq_iff : lowerSigma before after = lowerSigma before' after' ↔
    (meetsCased before && !meetsCased after) = (meetsCased before' && !meetsCased after') := by
  have hne : ('ς' : Char) ≠ 'σ' := by decide
  unfold lowerSigma
  cases (meetsCased before && !meetsCased after) <;>
    cases (meetsCased before' && !meetsCased after') <;> simp [hne, hne.symm]

theorem forall_split_cons {P : Text → Text → Prop} {x : Char} :
    (∀ p q, c :: t = p ++ x :: q → P p q) ↔
      (c = x → P [] t) ∧ ∀ p q, t = p ++ x :: q → P (c :: p) q := by
  constructor
  · intro h
    refine ⟨?_, fun p q ht => h (c :: p) q (congrArg _ ht)⟩
    rintro rfl
    exact h [] t rfl
  · rintro ⟨hhead, hrest⟩ p q heq
    cases p with
    | nil =>
      obtain ⟨hc, rfl⟩ := List.cons.inj heq
      exact hhead hc
    | cons d p =>
      obtain ⟨rfl, ht⟩ := List.cons.inj heq
      exact hrest p q ht

/-- A text has the same small form in two contexts if each of its sigmas has. -/
theorem lowerBetween_eq_iff : lowerBetween before after t = lowerBetween before' after' t ↔
    ∀ p q, t = p ++ 'Σ' :: q → lowerSigma (p.reverse ++ before) (q ++ after) =
      lowerSigma (p.reverse ++ before') (q ++ after') := by
  induction t generalizing before before' with
  | nil => simp [lowerBetween]
  | cons c t ih =>
    have hlater : lowerBetween (c :: before) after t = lowerBetween (c :: before') after' t ↔
        ∀ p q, t = p ++ 'Σ' :: q → lowerSigma ((c :: p).reverse ++ before) (q ++ after) =
          lowerSigma ((c :: p).reverse ++ before') (q ++ after') := by
      simpa only [List.reverse_cons, List.append_assoc, List.singleton_append] using ih
    rw [lowerBetween, lowerBetween, forall_split_cons]
    split
    · next hc => rw [List.cons.injEq, hlater, forall_prop_of_true hc]; rfl
    · next hc => rw [List.append_cancel_left_eq, hlater, and_iff_right fun h => absurd h hc]

/-- Of what is around a text, only the nearest letters have a say. -/
theorem lowerBetween_congr (hbefore : meetsCased before = meetsCased before')
    (hafter : meetsCased after = meetsCased after') (t : Text) :
    lowerBetween before after t = lowerBetween before' after' t := by
  rw [lowerBetween_eq_iff]
  intro p q _
  rw [lowerSigma_eq_iff, meetsCased_append_congr hbefore, meetsCased_append_congr hafter]

/-! ## Loose ends -/

/-- What follows a capital sigma with nothing in front of it but what is passed over. -/
def afterSigma? (t : Text) : Option Text :=
  match t.dropWhile isCaseIgnorable with
  | 'Σ' :: rest => some rest
  | _ => none

/-- Whether a capital sigma ends the last word of a text, so that a letter behind the text
changes the form of the sigma. -/
def looseEnd (t : Text) : Bool := (afterSigma? t.reverse).any meetsCased

/-- Whether a capital sigma that is a word by itself starts a text, so that a letter in front of
the text changes the form of the sigma. -/
def looseStart (t : Text) : Bool := (afterSigma? t).any (!meetsCased ·)

theorem afterSigma?_eq_some_iff {rest : Text} :
    afterSigma? t = some rest ↔ ∃ s, t = s ++ 'Σ' :: rest ∧ AllIgnorable s := by
  have hsigma : isCaseIgnorable 'Σ' = false := by decide +kernel
  have hdrop : afterSigma? t = some rest ↔ t.dropWhile isCaseIgnorable = 'Σ' :: rest := by
    unfold afterSigma?
    split
    · next heq => rw [heq, Option.some.injEq, List.cons.injEq, and_iff_right rfl]
    · next hother => exact iff_of_false nofun (hother rest)
  rw [hdrop, dropWhile_eq_cons_iff]
  simp only [hsigma, and_true, AllIgnorable]

theorem looseStart_iff : looseStart t = true ↔
    ∃ p q, t = p ++ 'Σ' :: q ∧ AllIgnorable p ∧ meetsCased q = false := by
  simp only [looseStart, Option.any_eq_true, afterSigma?_eq_some_iff, Bool.not_eq_true']
  constructor
  · rintro ⟨q, ⟨p, ht, hp⟩, hq⟩
    exact ⟨p, q, ht, hp, hq⟩
  · rintro ⟨p, q, ht, hp, hq⟩
    exact ⟨q, ⟨p, ht, hp⟩, hq⟩

theorem looseEnd_iff : looseEnd t = true ↔
    ∃ p q, t = p ++ 'Σ' :: q ∧ AllIgnorable q ∧ meetsCased p.reverse = true := by
  simp only [looseEnd, Option.any_eq_true, afterSigma?_eq_some_iff]
  constructor
  · rintro ⟨before, ⟨q, ht, hq⟩, hbefore⟩
    refine ⟨before.reverse, q.reverse, ?_, AllIgnorable.reverse hq, ?_⟩
    · rw [← List.reverse_reverse t, ht]
      simp
    · rwa [List.reverse_reverse]
  · rintro ⟨p, q, rfl, hq, hp⟩
    exact ⟨p.reverse, ⟨q.reverse, by simp, hq.reverse⟩, hp⟩

/-- No letter of `a` or of `b` is next to a loose end of `v`, where `v` stands between them. -/
structure Undisturbed (a v b : Text) : Prop where
  start : looseStart v = true → meetsCased a.reverse = false
  finish : looseEnd v = true → meetsCased b = false

theorem Undisturbed.of_not_mem (h : 'Σ' ∉ v) (a b : Text) : Undisturbed a v b := by
  constructor
  · intro hstart
    obtain ⟨p, q, rfl, -⟩ := looseStart_iff.1 hstart
    exact absurd (by simp) h
  · intro hend
    obtain ⟨p, q, rfl, -⟩ := looseEnd_iff.1 hend
    exact absurd (by simp) h

theorem Undisturbed.lowerBetween_eq (h : Undisturbed a v b) :
    lowerBetween a.reverse b v = lower v := by
  rw [lower_eq_lowerBetween, lowerBetween_eq_iff]
  intro p q hv
  rw [lowerSigma_eq_iff, List.append_nil, List.append_nil]
  -- The sigma between `p` and `q` looks past one of them only if all of it is passed over.
  have hafter : meetsCased p.reverse = true → meetsCased (q ++ b) = meetsCased q := by
    intro hletter
    by_cases hq : AllIgnorable q
    · rw [meetsCased_append_of_ignorable hq, meetsCased_of_ignorable hq]
      exact h.finish (looseEnd_iff.2 ⟨p, q, hv, hq, hletter⟩)
    · exact meetsCased_append_of_not_ignorable hq _
  have hbefore : meetsCased q = false →
      meetsCased (p.reverse ++ a.reverse) = meetsCased p.reverse := by
    intro hq
    by_cases hp : AllIgnorable p.reverse
    · rw [meetsCased_append_of_ignorable hp, meetsCased_of_ignorable hp]
      exact h.start (looseStart_iff.2 ⟨p, q, hv, fun c hc => hp c (List.mem_reverse.2 hc), hq⟩)
    · exact meetsCased_append_of_not_ignorable hp _
  cases hq : meetsCased q with
  | true => simp [meetsCased_append_of_meetsCased hq b]
  | false =>
    rw [hbefore hq]
    cases hp : meetsCased p.reverse with
    | true => rw [hafter hp, hq]
    | false => rfl

/-- At the start of a text, only a letter behind a loose end changes a small form. -/
theorem lowerBetween_after_iff : lowerBetween [] b v = lower v ↔ Undisturbed [] v b := by
  constructor
  · intro h
    refine ⟨fun _ => rfl, fun hloose => ?_⟩
    obtain ⟨p, q, hv, hq, hp⟩ := looseEnd_iff.1 hloose
    rw [lower_eq_lowerBetween, lowerBetween_eq_iff] at h
    have hsigma := lowerSigma_eq_iff.1 (h p q hv)
    rw [List.append_nil, List.append_nil, meetsCased_append_of_ignorable hq,
      meetsCased_of_ignorable hq, hp] at hsigma
    simpa using hsigma
  · exact fun h => h.lowerBetween_eq

/-- At the end of a text, only a letter in front of a loose start changes a small form. -/
theorem lowerBetween_before_iff : lowerBetween a.reverse [] v = lower v ↔ Undisturbed a v [] := by
  constructor
  · intro h
    refine ⟨fun hloose => ?_, fun _ => rfl⟩
    obtain ⟨p, q, hv, hp, hq⟩ := looseStart_iff.1 hloose
    rw [lower_eq_lowerBetween, lowerBetween_eq_iff] at h
    have hsigma := lowerSigma_eq_iff.1 (h p q hv)
    rw [List.append_nil, List.append_nil, meetsCased_append_of_ignorable hp.reverse,
      meetsCased_of_ignorable hp.reverse, hq] at hsigma
    simpa using hsigma
  · exact fun h => h.lowerBetween_eq

/-! ## Parts in small letters -/

theorem Undisturbed.isInfix (h : Undisturbed a v b) : lower v <:+: lower (a ++ (v ++ b)) := by
  rw [lower_append_append, h.lowerBetween_eq]
  exact ⟨_, _, List.append_assoc _ _ _⟩

theorem lower_append (v b : Text) :
    lower (v ++ b) = lowerBetween [] b v ++ lowerAfter v.reverse b := by
  rw [lower, lowerAfter_append, List.append_nil]

theorem lower_append_end (a v : Text) :
    lower (a ++ v) = lowerBetween [] v a ++ lowerBetween a.reverse [] v := by
  have := lower_append_append a v []
  rwa [List.append_nil, lowerAfter, List.append_nil] at this

theorem length_lower_eq (before after v : Text) :
    (lower v).length = (lowerBetween before after v).length := by
  rw [lower_eq_lowerBetween, length_lowerBetween]

theorem lower_isPrefix_iff : lower v <+: lower (v ++ b) ↔ Undisturbed [] v b := by
  rw [← lowerBetween_after_iff, lower_append]
  constructor
  · rintro ⟨rest, h⟩
    exact (List.append_inj h (length_lower_eq [] b v)).1.symm
  · intro h
    rw [h]
    exact List.prefix_append _ _

theorem lower_isSuffix_iff : lower v <:+ lower (a ++ v) ↔ Undisturbed a v [] := by
  rw [← lowerBetween_before_iff, lower_append_end]
  constructor
  · rintro ⟨rest, h⟩
    exact (List.append_inj_right' h (length_lower_eq a.reverse [] v)).symm
  · intro h
    rw [h]
    exact List.suffix_append _ _

theorem ne_nil_of_looseEnd (h : looseEnd v = true) : v ≠ [] := by
  rintro rfl
  cases h

theorem ne_nil_of_looseStart (h : looseStart v = true) : v ≠ [] := by
  rintro rfl
  cases h

theorem exists_letter_ne (o : Option Char) :
    ∃ x, o ≠ some x ∧ x ≠ 'Σ' ∧ lowerChar x = [x] ∧ meetsCased [x] = true := by
  by_cases h : o = some 'a'
  · exact ⟨'b', by rw [h]; decide, by decide, by decide +kernel, by decide +kernel⟩
  · exact ⟨'a', h, by decide, by decide +kernel, by decide +kernel⟩

theorem exists_not_infix_of_looseEnd (h : looseEnd v = true) :
    ∃ x, ¬ lower v <:+: lower (v ++ [x]) := by
  obtain ⟨x, hlast, hsigma, hletter, hcased⟩ := exists_letter_ne (lower v).getLast?
  have hparts : lower (v ++ [x]) = lowerBetween [] [x] v ++ [x] := by
    rw [lower_append, lowerAfter, if_neg hsigma, hletter]
    rfl
  refine ⟨x, ?_⟩
  rw [hparts, List.infix_concat_iff, List.suffix_concat_iff]
  rintro ((hnil | ⟨t, ht, -⟩) | hpart)
  · exact lower_ne_nil (ne_nil_of_looseEnd h) hnil
  · simp [ht] at hlast
  · have heq := (hpart.eq_of_length (length_lower_eq [] [x] v)).symm
    have hfree := (lowerBetween_after_iff.1 heq).finish h
    exact Bool.false_ne_true (hfree.symm.trans hcased)

theorem exists_not_infix_of_looseStart (h : looseStart v = true) :
    ∃ x, ¬ lower v <:+: lower ([x] ++ v) := by
  obtain ⟨x, hhead, hsigma, hletter, hcased⟩ := exists_letter_ne (lower v).head?
  have hparts : lower ([x] ++ v) = x :: lowerBetween [x].reverse [] v := by
    rw [lower_append_end, lowerBetween, if_neg hsigma, hletter]
    rfl
  refine ⟨x, ?_⟩
  rw [hparts, List.infix_cons_iff, List.prefix_cons_iff]
  rintro ((hnil | ⟨t, ht, -⟩) | hpart)
  · exact lower_ne_nil (ne_nil_of_looseStart h) hnil
  · simp [ht] at hhead
  · have heq := (hpart.eq_of_length (length_lower_eq [x].reverse [] v)).symm
    have hfree := (lowerBetween_before_iff.1 heq).start h
    exact Bool.false_ne_true (hfree.symm.trans hcased)

theorem exists_not_infix_of_loose (h : looseStart v = true ∨ looseEnd v = true) :
    ∃ a b, ¬ lower v <:+: lower (a ++ (v ++ b)) := by
  obtain h | h := h
  · obtain ⟨x, hx⟩ := exists_not_infix_of_looseStart h
    exact ⟨[x], [], by rwa [List.append_nil]⟩
  · obtain ⟨x, hx⟩ := exists_not_infix_of_looseEnd h
    exact ⟨[], [x], hx⟩

end HashtagSearch.Text
