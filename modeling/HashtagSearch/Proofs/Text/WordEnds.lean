import HashtagSearch.Naming
import HashtagSearch.Proofs.Text.CaseClasses
import HashtagSearch.Proofs.Text.Sigmas

/-!
# Sigmas at the ends of words

The small form of a text is that of its characters one by one, unless a capital sigma ends a
word. Small letters keep the ends of words where they are. So the two ways to compare names,
small forms of texts and of their characters, agree about names without a sigma there.
-/

namespace HashtagSearch.Text

variable {before before' s t : Text} {c d : Char}

/-! ## Small forms of characters -/

theorem IsLetter.meetsCased_cons (h : IsLetter c) (t : Text) : meetsCased (c :: t) = true := by
  rw [Text.meetsCased_cons, if_neg (by simp [h.solid]), h.cased]

theorem isLetter_dotted : IsLetter 'İ' ∧ IsLetter 'i' ∧ isCaseIgnorable '\u0307' = true :=
  ⟨⟨by decide +kernel, by decide +kernel⟩, ⟨by decide +kernel, by decide +kernel⟩,
    by decide +kernel⟩

theorem lowerChar_dotted : lowerChar 'İ' = ['i', '\u0307'] := by decide +kernel

theorem isLetter_sigma : IsLetter 'Σ' ∧ IsLetter 'σ' ∧ IsLetter 'ς' :=
  ⟨⟨by decide +kernel, by decide +kernel⟩, ⟨by decide +kernel, by decide +kernel⟩,
    ⟨by decide +kernel, by decide +kernel⟩⟩

theorem lowerChar_sigma : lowerChar 'Σ' = ['σ'] ∧ lowerChar 'ς' = ['ς'] := by decide +kernel

theorem meetsCased_lowerChar_append (c : Char) (t : Text) :
    meetsCased (lowerChar c ++ t) = meetsCased (c :: t) := by
  obtain hself | rfl | ⟨d, hd, hpair⟩ := lowerChar_cases c
  · rw [hself, List.singleton_append]
  · rw [lowerChar_dotted, isLetter_dotted.1.meetsCased_cons]
    exact isLetter_dotted.2.1.meetsCased_cons _
  · rw [hd, hpair.capital.meetsCased_cons]
    exact hpair.small.meetsCased_cons t

/-- In reverse, a small form is as much of a word as its character. -/
theorem meetsCased_lowerChar_reverse (c : Char) (t : Text) :
    meetsCased ((lowerChar c).reverse ++ t) = meetsCased (c :: t) := by
  obtain hself | rfl | ⟨d, hd, hpair⟩ := lowerChar_cases c
  · rw [hself]
    rfl
  · rw [lowerChar_dotted, isLetter_dotted.1.meetsCased_cons]
    change meetsCased ('\u0307' :: 'i' :: t) = true
    rw [meetsCased_cons, if_pos isLetter_dotted.2.2]
    exact isLetter_dotted.2.1.meetsCased_cons t
  · rw [hd, hpair.capital.meetsCased_cons]
    exact hpair.small.meetsCased_cons t

theorem sigma_not_mem_lowerChar (c : Char) : 'Σ' ∉ lowerChar c := by
  have hsigma : lowerChar 'Σ' ≠ ['Σ'] := by rw [lowerChar_sigma.1]; decide
  obtain hself | rfl | ⟨d, hd, hpair⟩ := lowerChar_cases c
  · rw [hself, List.mem_singleton]
    rintro rfl
    exact hsigma hself
  · rw [lowerChar_dotted]
    decide
  · rw [hd, List.mem_singleton]
    rintro rfl
    exact hsigma hpair.fixed

theorem final_mem_lowerChar_iff : 'ς' ∈ lowerChar c ↔ c = 'ς' := by
  constructor
  · obtain hself | rfl | ⟨d, hd, hpair⟩ := lowerChar_cases c
    · rw [hself, List.mem_singleton]
      exact Eq.symm
    · rw [lowerChar_dotted]
      exact fun h => absurd h (by decide)
    · rw [hd, List.mem_singleton]
      exact fun h => absurd h.symm hpair.ne_final
  · rintro rfl
    rw [lowerChar_sigma.2]
    exact List.mem_singleton_self _

theorem squash_singleton (hblank : isBlank c = false) (hmark : c ≠ '_' ∧ c ≠ '-') :
    squash [c] = lowerChar c := by
  simp [squash, hblank, hmark.1, hmark.2]

theorem IsLetter.ne_mark (h : IsLetter c) : c ≠ '_' ∧ c ≠ '-' := by
  have hmarks : isCased '_' = false ∧ isCased '-' = false := by decide +kernel
  constructor
  · rintro rfl
    exact Bool.false_ne_true (hmarks.1.symm.trans h.cased)
  · rintro rfl
    exact Bool.false_ne_true (hmarks.2.symm.trans h.cased)

/-- A small form is left out of a name if its character is, and is its own small form. -/
theorem squash_lowerChar (c : Char) : squash (lowerChar c) = squash [c] := by
  obtain hself | rfl | ⟨d, hd, hpair⟩ := lowerChar_cases c
  · rw [hself]
  · decide +kernel
  · by_cases hcd : d = c
    · rw [hd, hcd]
    -- A blank would be its own small form.
    · have hc : isBlank c = false := by
        refine Bool.eq_false_of_not_eq_true fun hb => hcd ?_
        have hmem := (mem_lowerChar (c := c) hb).2 rfl
        rw [hd] at hmem
        exact (List.mem_singleton.1 hmem).symm
      have hd' : isBlank d = false := by
        refine Bool.eq_false_of_not_eq_true fun hb => hcd ((mem_lowerChar hb).1 ?_)
        rw [hd]
        exact List.mem_singleton_self d
      rw [squash_singleton hc hpair.capital.ne_mark, hd,
        squash_singleton hd' hpair.small.ne_mark, hpair.fixed]

theorem squash_flatMap_lowerChar (t : Text) : squash (t.flatMap lowerChar) = squash t := by
  induction t with
  | nil => rfl
  | cons c t ih =>
    rw [List.flatMap_cons, squash_append, ih, squash_lowerChar, ← squash_append,
      List.singleton_append]

/-! ## Words that end in a sigma -/

/-- Whether a capital or a final sigma ends a word of a text that follows `before`, which is given
in reverse. -/
def endsWordInSigma (before : Text) : Text → Bool
  | [] => false
  | c :: t =>
    (c == 'Σ' || c == 'ς') && meetsCased before && !meetsCased t || endsWordInSigma (c :: before) t

/-- Without a sigma at the end of a word, every character has a small form by itself. -/
theorem lowerAfter_eq_flatMap (h : endsWordInSigma before t = false) :
    lowerAfter before t = t.flatMap lowerChar := by
  induction t generalizing before with
  | nil => rfl
  | cons c t ih =>
    rw [endsWordInSigma, Bool.or_eq_false_iff] at h
    rw [lowerAfter, List.flatMap_cons, ih h.2]
    split
    · next hc =>
      subst hc
      have hsigma : lowerSigma before t = 'σ' := if_neg (by simpa using h.1)
      rw [hsigma, lowerChar_sigma.1, List.singleton_append]
    · rfl

theorem isLetter_lowerSigma (before after : Text) : IsLetter (lowerSigma before after) := by
  unfold lowerSigma
  split
  · exact isLetter_sigma.2.2
  · exact isLetter_sigma.2.1

theorem meetsCased_lowerAfter (before t : Text) :
    meetsCased (lowerAfter before t) = meetsCased t := by
  induction t generalizing before with
  | nil => rfl
  | cons c t ih =>
    rw [lowerAfter]
    split
    · next hc =>
      rw [hc, isLetter_sigma.1.meetsCased_cons, (isLetter_lowerSigma before t).meetsCased_cons]
    · rw [meetsCased_lowerChar_append]
      exact meetsCased_cons_congr (ih _) c

theorem endsWordInSigma_append (hs : 'Σ' ∉ s ∧ 'ς' ∉ s) (t : Text) :
    endsWordInSigma before (s ++ t) = endsWordInSigma (s.reverse ++ before) t := by
  induction s generalizing before with
  | nil => rfl
  | cons c s ih =>
    simp only [List.mem_cons, not_or] at hs
    have hc : (c == 'Σ' || c == 'ς') = false := by simp [Ne.symm hs.1.1, Ne.symm hs.2.1]
    rw [List.cons_append, endsWordInSigma, hc, ih ⟨hs.1.2, hs.2.2⟩, List.reverse_cons,
      List.append_assoc]
    rfl

theorem endsWordInSigma_lowerAfter (h : meetsCased before' = meetsCased before) :
    endsWordInSigma before' (lowerAfter before t) = endsWordInSigma before t := by
  induction t generalizing before before' with
  | nil => rfl
  | cons c t ih =>
    rw [lowerAfter]
    split
    · next hc =>
      subst hc
      have hletters : meetsCased (lowerSigma before t :: before') = meetsCased ('Σ' :: before) := by
        rw [isLetter_sigma.1.meetsCased_cons, (isLetter_lowerSigma before t).meetsCased_cons]
      rw [endsWordInSigma, endsWordInSigma, ih hletters, meetsCased_lowerAfter, h, lowerSigma]
      cases meetsCased before <;> cases meetsCased t <;> rfl
    · next hc =>
      by_cases hfinal : c = 'ς'
      · subst hfinal
        rw [lowerChar_sigma.2, List.singleton_append, endsWordInSigma, endsWordInSigma,
          meetsCased_lowerAfter, h, ih (meetsCased_cons_congr h 'ς')]
      · have hother : (c == 'Σ' || c == 'ς') = false := by simp [hc, hfinal]
        have hnone : 'Σ' ∉ lowerChar c ∧ 'ς' ∉ lowerChar c :=
          ⟨sigma_not_mem_lowerChar c, mt final_mem_lowerChar_iff.1 hfinal⟩
        have hletters : meetsCased ((lowerChar c).reverse ++ before') = meetsCased (c :: before) := by
          rw [meetsCased_lowerChar_reverse]
          exact meetsCased_cons_congr h c
        rw [endsWordInSigma_append hnone, ih hletters, endsWordInSigma, hother]
        rfl

theorem endsWordInSigma_lower (t : Text) :
    endsWordInSigma [] (lower t) = endsWordInSigma [] t :=
  endsWordInSigma_lowerAfter rfl

/-! ## Names in both forms -/

theorem squash_lower (h : endsWordInSigma [] t = false) : squash (lower t) = squash t := by
  rw [lower, lowerAfter_eq_flatMap h, squash_flatMap_lowerChar]

/-- Texts with one small form agree character by character if no sigma ends a word of one. -/
theorem squash_eq_of_lower_eq (h : lower s = lower t) (ht : endsWordInSigma [] t = false) :
    squash s = squash t := by
  have hs : endsWordInSigma [] s = false := by
    rw [← endsWordInSigma_lower, h, endsWordInSigma_lower, ht]
  rw [← squash_lower hs, h, squash_lower ht]

theorem exists_of_endsWordInSigma (h : endsWordInSigma before t = true) :
    ∃ p c q, t = p ++ c :: q ∧ (c = 'Σ' ∨ c = 'ς') ∧ meetsCased (p.reverse ++ before) = true ∧
      meetsCased q = false := by
  induction t generalizing before with
  | nil => cases h
  | cons c t ih =>
    simp only [endsWordInSigma, Bool.or_eq_true, Bool.and_eq_true, Bool.not_eq_true',
      beq_iff_eq] at h
    obtain ⟨⟨hc, hbefore⟩, hafter⟩ | h := h
    · exact ⟨[], c, t, rfl, hc, hbefore, hafter⟩
    · obtain ⟨p, d, q, rfl, hd, hbefore, hafter⟩ := ih h
      refine ⟨c :: p, d, q, rfl, hd, ?_, hafter⟩
      rwa [List.reverse_cons, List.append_assoc]

theorem final_mem_lowerAfter (h : endsWordInSigma before t = true) : 'ς' ∈ lowerAfter before t := by
  induction t generalizing before with
  | nil => cases h
  | cons c t ih =>
    rw [endsWordInSigma, Bool.or_eq_true] at h
    rw [lowerAfter]
    split
    · next hc =>
      obtain h | h := h
      · have hsigma : lowerSigma before t = 'ς' := if_pos (by simpa [hc] using h)
        rw [hsigma]
        exact List.mem_cons_self
      · exact List.mem_cons_of_mem _ (ih h)
    · next hc =>
      obtain h | h := h
      · simp only [Bool.and_eq_true, Bool.or_eq_true, beq_iff_eq] at h
        have hfinal := h.1.1.resolve_left hc
        exact List.mem_append_left _ (final_mem_lowerChar_iff.2 hfinal)
      · exact List.mem_append_right _ (ih h)

/-- A capital and a final sigma have one small form at the end of a word. -/
theorem lower_append_sigma {p q : Text} (hc : c = 'Σ' ∨ c = 'ς')
    (hp : meetsCased p.reverse = true) (hq : meetsCased q = false) :
    lower (p ++ c :: q) = lower (p ++ 'ς' :: q) := by
  have hletter : IsLetter c := by
    obtain rfl | rfl := hc
    · exact isLetter_sigma.1
    · exact isLetter_sigma.2.2
  have hform : lowerBetween p.reverse q [c] = lowerBetween p.reverse q ['ς'] := by
    obtain rfl | rfl := hc
    · have hsigma : lowerSigma p.reverse q = 'ς' := if_pos (by simp [hp, hq])
      simp [lowerBetween, hsigma, lowerChar_sigma.2]
    · rfl
  have hsame (u : Text) : meetsCased (c :: u) = meetsCased ('ς' :: u) := by
    rw [hletter.meetsCased_cons, isLetter_sigma.2.2.meetsCased_cons]
  have hbefore : lowerBetween [] (c :: q) p = lowerBetween [] ('ς' :: q) p :=
    lowerBetween_congr rfl (hsame q) p
  have hafter : lowerBetween (c :: p.reverse) [] q = lowerBetween ('ς' :: p.reverse) [] q :=
    lowerBetween_congr (hsame p.reverse) rfl q
  have hparts (d : Char) : lower (p ++ d :: q) = lowerBetween [] (d :: q) p ++
      (lowerBetween p.reverse q [d] ++ lowerBetween (d :: p.reverse) [] q) := by
    rw [← lowerAfter_eq_lowerBetween]
    exact lower_append_append p [d] q
  rw [hparts, hparts, hbefore, hform, hafter]

theorem squash_sigma : squash ['Σ'] = ['σ'] ∧ squash ['ς'] = ['ς'] := by decide +kernel

theorem mem_squash_of_mem {x : Char} (hx : x ∈ squash [c]) (hc : c ∈ t) : x ∈ squash t := by
  obtain ⟨p, q, rfl⟩ := List.append_of_mem hc
  rw [← List.singleton_append, squash_append, squash_append]
  exact List.mem_append_right _ (List.mem_append_left _ hx)

theorem exists_small_sigma (h : endsWordInSigma [] t = true) :
    ∃ x ∈ squash t, x = 'σ' ∨ x = 'ς' := by
  obtain ⟨p, c, q, rfl, hc, -⟩ := exists_of_endsWordInSigma h
  obtain rfl | rfl := hc
  · exact ⟨'σ', mem_squash_of_mem (by rw [squash_sigma.1]; simp) (by simp), .inl rfl⟩
  · exact ⟨'ς', mem_squash_of_mem (by rw [squash_sigma.2]; simp) (by simp), .inr rfl⟩

/-- A text with a sigma at the end of a word has the small form of another one, but is no beginning
of it character by character. -/
theorem exists_same_lower (h : endsWordInSigma [] t = true) :
    ∃ s, lower s = lower t ∧ ¬ squash t <+: squash s := by
  obtain ⟨p, c, q, rfl, hc, hp, hq⟩ := exists_of_endsWordInSigma h
  rw [List.append_nil] at hp
  have hsquash (d : Char) : squash (p ++ d :: q) = squash p ++ (squash [d] ++ squash q) := by
    rw [← squash_append, ← squash_append, List.singleton_append]
  -- The other text has the other sigma there.
  have hother : ∃ d, (d = 'Σ' ∨ d = 'ς') ∧ (squash [d]).length = (squash [c]).length ∧
      squash [c] ≠ squash [d] := by
    obtain rfl | rfl := hc
    · exact ⟨'ς', .inr rfl, by rw [squash_sigma.1, squash_sigma.2]; exact ⟨rfl, by decide⟩⟩
    · exact ⟨'Σ', .inl rfl, by rw [squash_sigma.1, squash_sigma.2]; exact ⟨rfl, by decide⟩⟩
  obtain ⟨d, hd, hlength, hne⟩ := hother
  refine ⟨p ++ d :: q, ?_, fun hstart => hne ?_⟩
  · rw [lower_append_sigma hd hp hq, lower_append_sigma hc hp hq]
  · have heq := hstart.eq_of_length (by simp [hsquash, hlength])
    rw [hsquash, hsquash, List.append_cancel_left_eq] at heq
    exact List.append_inj_left heq hlength.symm

end HashtagSearch.Text
