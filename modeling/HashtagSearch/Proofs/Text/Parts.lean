import HashtagSearch.Proofs.Text.Trimming
import HashtagSearch.Proofs.Text.Words

/-!
# Words of a part of a text

Words are parts of their text. When a text is put together of two, the words are those of
both, except that the last word of the first and the first word of the second may have become
one. So a part that is cut out of a text can differ from it in the words at its ends only.
-/

namespace HashtagSearch.Text

variable {c : Char} {s t w : Text}

theorem trimStart_isSuffix (t : Text) : trimStart t <:+ t := List.dropWhile_suffix isBlank

theorem trimEnd_isPrefix (t : Text) : trimEnd t <+: t := List.rdropWhile_prefix isBlank t

theorem trim_isInfix (t : Text) : trim t <:+: t :=
  (trimEnd_isPrefix _).isInfix.trans (trimStart_isSuffix t).isInfix

/-! ## Words -/

theorem exists_words_cons (hc : isBlank c = false) (t : Text) :
    ∃ r ws, words (c :: t) = (c :: r) :: ws := by
  cases t with
  | nil => exact ⟨[], [], words_singleton hc⟩
  | cons d t =>
    cases hd : isBlank d with
    | true => exact ⟨[], words t, words_cons_blank hc hd t⟩
    | false =>
      obtain ⟨w, ws, hw⟩ := List.exists_cons_of_ne_nil (words_cons_ne_nil hd t)
      exact ⟨w, ws, by rw [words_cons_cons hc hd, hw, List.modifyHead_cons]⟩

/-- Two texts keep their words next to each other, or the words at the seam become one. -/
theorem words_append_cases (s t : Text) : words (s ++ t) = words s ++ words t ∨
    ∃ us u v vs, words s = us ++ [u] ∧ words t = v :: vs ∧
      words (s ++ t) = us ++ (u ++ v) :: vs := by
  induction s with
  | nil => exact .inl rfl
  | cons c s ih =>
    cases hc : isBlank c with
    | true => simpa only [List.cons_append, words_cons_of_blank hc] using ih
    | false =>
      cases s with
      | nil =>
        cases t with
        | nil => exact .inl (by simp [words])
        | cons d t =>
          cases hd : isBlank d with
          | true =>
            refine .inl ?_
            rw [List.singleton_append, words_cons_blank hc hd, words_singleton hc,
              words_cons_of_blank hd]
            rfl
          | false =>
            obtain ⟨v, vs, hv⟩ := List.exists_cons_of_ne_nil (words_cons_ne_nil hd t)
            refine .inr ⟨[], [c], v, vs, words_singleton hc, hv, ?_⟩
            rw [List.singleton_append, words_cons_cons hc hd, hv]
            rfl
      | cons d s =>
        cases hd : isBlank d with
        | true =>
          simp only [List.cons_append, words_cons_blank hc hd, words_cons_of_blank hd] at ih ⊢
          rcases ih with ih | ⟨us, u, v, vs, hs, ht, ih⟩
          · exact .inl (by rw [ih])
          · exact .inr ⟨[c] :: us, u, v, vs, by rw [hs]; rfl, ht, by rw [ih]; rfl⟩
        | false =>
          simp only [List.cons_append, words_cons_cons hc hd] at ih ⊢
          obtain ⟨w, ws, hw⟩ := List.exists_cons_of_ne_nil (words_cons_ne_nil hd s)
          rcases ih with ih | ⟨us, u, v, vs, hs, ht, ih⟩
          · exact .inl (by rw [ih, hw]; rfl)
          · refine .inr ?_
            rw [ih, hs]
            cases us with
            | nil => exact ⟨[], c :: u, v, vs, rfl, ht, rfl⟩
            | cons x us => exact ⟨(c :: x) :: us, u, v, vs, rfl, ht, rfl⟩

theorem words_eq_nil (h : AllBlank t) : words t = [] := by
  induction t with
  | nil => rfl
  | cons c t ih =>
    rw [words_cons_of_blank (h c List.mem_cons_self)]
    exact ih fun d hd => h d (List.mem_cons_of_mem c hd)

theorem words_append_of_allBlank (s : Text) (h : AllBlank t) : words (s ++ t) = words s := by
  cases t with
  | nil => rw [List.append_nil]
  | cons b t =>
    have ht : AllBlank t := fun c hc => h c (List.mem_cons_of_mem b hc)
    rw [words_append_blank (h b List.mem_cons_self), words_eq_nil ht, List.append_nil]

theorem words_trimStart (t : Text) : words (trimStart t) = words t := by
  induction t with
  | nil => rfl
  | cons c t ih =>
    cases hc : isBlank c with
    | true =>
      have htrim : trimStart (c :: t) = trimStart t := List.dropWhile_cons_of_pos hc
      rw [htrim, ih, words_cons_of_blank hc]
    | false => rw [trimStart_of_solidStart ⟨c, t, rfl, hc⟩]

theorem words_trimEnd (t : Text) : words (trimEnd t) = words t := by
  obtain ⟨gap, hgap, ht⟩ := exists_trimEnd_append t
  rw [← words_append_of_allBlank _ hgap, ht]

@[simp] theorem words_trim (t : Text) : words (trim t) = words t := by
  rw [trim, words_trimEnd, words_trimStart]

theorem prefix_of_words_eq_cons (hc : isBlank c = false) {ws : List Text}
    (h : words (c :: t) = w :: ws) : w <+: c :: t := by
  induction t generalizing c w ws with
  | nil =>
    rw [words_singleton hc] at h
    exact (List.cons.inj h).1 ▸ List.prefix_rfl
  | cons d t ih =>
    cases hd : isBlank d with
    | true =>
      rw [words_cons_blank hc hd] at h
      rw [← (List.cons.inj h).1]
      exact List.prefix_append [c] (d :: t)
    | false =>
      obtain ⟨u, us, hu⟩ := List.exists_cons_of_ne_nil (words_cons_ne_nil hd t)
      rw [words_cons_cons hc hd, hu, List.modifyHead_cons] at h
      rw [← (List.cons.inj h).1]
      exact (List.prefix_cons_inj c).2 (ih hd hu)

theorem infix_of_mem_words (h : w ∈ words t) : w <:+: t ∧ ∀ c ∈ w, isBlank c = false := by
  induction t generalizing w with
  | nil => simp [words] at h
  | cons d t ih =>
    have later {v : Text} (hv : v ∈ words t) : v <:+: d :: t ∧ ∀ c ∈ v, isBlank c = false :=
      ⟨(ih hv).1.trans (List.suffix_cons d t).isInfix, (ih hv).2⟩
    cases hd : isBlank d with
    | true =>
      rw [words_cons_of_blank hd] at h
      exact later h
    | false =>
      rcases words_append_cases [d] t with happ | ⟨us, u, v, vs, hs, ht, happ⟩
      · rw [← List.singleton_append, happ, words_singleton hd, List.singleton_append] at h
        rcases List.mem_cons.1 h with rfl | h
        · exact ⟨(List.prefix_append [d] t).isInfix, by simpa using hd⟩
        · exact later h
      · rw [words_singleton hd] at hs
        change [] ++ [[d]] = us ++ [u] at hs
        obtain ⟨rfl, hu⟩ := List.append_inj' hs rfl
        obtain rfl : [d] = u := (List.cons.inj hu).1
        rw [List.nil_append, List.singleton_append, List.singleton_append] at happ
        rw [happ] at h
        rcases List.mem_cons.1 h with rfl | h
        · refine ⟨(prefix_of_words_eq_cons hd happ).isInfix, fun c hc => ?_⟩
          rcases List.mem_cons.1 hc with rfl | hc
          · exact hd
          · exact (ih (ht ▸ List.mem_cons_self)).2 c hc
        · exact later (ht ▸ List.mem_cons_of_mem v h)

/-! ## The first and the last word -/

theorem allBlank_of_words (h : words t = []) : AllBlank t := by
  rw [← words_trimStart] at h
  by_contra hblank
  obtain ⟨c, r, hr, hc⟩ := solidStart_trimStart (mt trimStart_eq_nil_iff.1 hblank)
  rw [hr] at h
  exact words_cons_ne_nil hc r h

theorem head?_trimStart_of_words (h : (words t).head? = some (c :: w)) :
    (trimStart t).head? = some c := by
  rw [← words_trimStart] at h
  by_cases hne : trimStart t = []
  · rw [hne] at h
    cases h
  · obtain ⟨d, r, hd, hb⟩ := solidStart_trimStart hne
    obtain ⟨r', ws, hcons⟩ := exists_words_cons hb r
    rw [hd, hcons] at h
    obtain ⟨rfl, -⟩ := List.cons.inj (Option.some.inj h)
    rw [hd]
    rfl

theorem words_append_word {p : Text} (hp : ∀ b ∈ p.getLast?, isBlank b = true) (hne : w ≠ [])
    (hw : ∀ c ∈ w, isBlank c = false) : words (p ++ w) = words p ++ [w] := by
  rcases List.eq_nil_or_concat p with rfl | ⟨q, b, rfl⟩
  · exact words_of_no_blank hne hw
  · have hb : isBlank b = true := hp b (by simp)
    have hend : words (q ++ b :: []) = words q := by
      rw [words_append_blank hb]
      exact List.append_nil _
    rw [List.concat_eq_append, List.append_assoc, List.singleton_append, words_append_blank hb,
      words_of_no_blank hne hw, hend]

theorem exists_word_end (h : SolidEnd t) : ∃ p w, t = p ++ w ∧ w ≠ [] ∧
    (∀ c ∈ w, isBlank c = false) ∧ ∀ b ∈ p.getLast?, isBlank b = true := by
  obtain ⟨r, c, rfl, hc⟩ := h
  induction r with
  | nil => exact ⟨[], [c], rfl, by simp, by simpa using hc, by simp⟩
  | cons d r ih =>
    obtain ⟨p, w, heq, hne, hw, hp⟩ := ih
    cases p with
    | cons e p => exact ⟨d :: e :: p, w, by rw [List.cons_append, heq]; rfl, hne, hw, hp⟩
    | nil =>
      cases hd : isBlank d with
      | true => exact ⟨[d], w, by rw [List.cons_append, heq]; rfl, hne, hw, by simpa using hd⟩
      | false =>
        refine ⟨[], d :: w, by rw [List.cons_append, heq]; rfl, by simp, ?_, by simp⟩
        exact List.forall_mem_cons.2 ⟨hd, hw⟩

/-- In front of its last word a text is empty or ends with a blank, and behind it there are
blanks only. -/
theorem exists_last_word {ws : List Text} (h : words t = ws ++ [w]) :
    ∃ p g, t = p ++ (w ++ g) ∧ AllBlank g ∧ words p = ws ∧ ∀ b ∈ p.getLast?, isBlank b = true := by
  obtain ⟨gap, hgap, hend⟩ := exists_trimEnd_append t
  rw [← words_trimEnd] at h
  have hne : trimEnd t ≠ [] := by
    intro hnil
    rw [hnil] at h
    simp [words] at h
  obtain ⟨p, w', hsplit, hne', hw', hp⟩ := exists_word_end (solidEnd_trimEnd hne)
  rw [hsplit, words_append_word hp hne' hw'] at h
  obtain ⟨hws, hword⟩ := List.append_inj' h rfl
  obtain rfl : w' = w := (List.cons.inj hword).1
  exact ⟨p, gap, by rw [← List.append_assoc, ← hsplit, hend], hgap, hws, hp⟩

/-! ## Words at the ends of a part -/

/-- A word of the front of a text is a word of the text, or the text goes on with that word. -/
theorem mem_words_of_front (hc : isBlank c = false) (h : w ∈ words s) :
    w ∈ words (s ++ c :: t) ∨ ∃ r, w ++ c :: r ∈ words (s ++ c :: t) := by
  rcases words_append_cases s (c :: t) with happ | ⟨us, u, v, vs, hs, ht, happ⟩
  · exact .inl (happ ▸ List.mem_append_left _ h)
  · obtain ⟨r, ws, hcons⟩ := exists_words_cons hc t
    obtain ⟨rfl, -⟩ := List.cons.inj (ht.symm.trans hcons)
    rw [hs, List.mem_append, List.mem_singleton] at h
    rw [happ]
    rcases h with h | rfl
    · exact .inl (List.mem_append_left _ h)
    · exact .inr ⟨r, by simp⟩

theorem mem_words_of_rest (s : Text) (h : w ∈ (words t).tail) : w ∈ words (s ++ t) := by
  rcases words_append_cases s t with happ | ⟨us, u, v, vs, -, ht, happ⟩
  · exact happ ▸ List.mem_append_right _ (List.mem_of_mem_tail h)
  · rw [ht, List.tail_cons] at h
    rw [happ]
    exact List.mem_append_right _ (List.mem_cons_of_mem _ h)

end HashtagSearch.Text
