import HashtagSearch.Proofs.Splitting

/-!
# Words in any case

What the removal of a word from the head of a text says about the text, and how it goes on
when the text does. A word that is read is read again whatever follows; only a text of letters
of the word can be completed to it.
-/

namespace HashtagSearch.Text

variable {word t rest : Text}

theorem not_blank_of_isAlpha {c : Char} (h : c.isAlpha = true) : isBlank c = false := by
  have hn : (65 ≤ c.toNat ∧ c.toNat ≤ 90) ∨ (97 ≤ c.toNat ∧ c.toNat ≤ 122) := by
    simpa [Char.isAlpha, Char.isUpper, Char.isLower, UInt32.le_iff_toNat_le] using h
  simp only [isBlank, Bool.or_eq_false_iff, Bool.and_eq_false_iff, decide_eq_false_iff_not,
    beq_eq_false_iff_ne]
  omega

theorem not_blank_of_isDigit {c : Char} (h : c.isDigit = true) : isBlank c = false := by
  have hn : 48 ≤ c.toNat ∧ c.toNat ≤ 57 := by
    simpa [Char.isDigit, UInt32.le_iff_toNat_le] using h
  simp only [isBlank, Bool.or_eq_false_iff, Bool.and_eq_false_iff, decide_eq_false_iff_not,
    beq_eq_false_iff_ne]
  omega

theorem toLower_eq_iff_of_isBlank {b c : Char} (hb : isBlank b = true) : c.toLower = b ↔ c = b := by
  rcases toLower_cases c with hl | ⟨hu, hl⟩
  · rw [hl]
  · constructor
    · rintro rfl
      rw [not_blank_of_isAlpha (by simp [Char.isAlpha, hl])] at hb
      cases hb
    · rintro rfl
      rw [not_blank_of_isAlpha (by simp [Char.isAlpha, hu])] at hb
      cases hb

/-! ## Blanks and word characters -/

def blankRanges : List (Nat × Nat) :=
  [(9, 13), (0x20, 0x20), (0x85, 0x85), (0xA0, 0xA0), (0x1680, 0x1680), (0x2000, 0x200A),
    (0x2028, 0x2029), (0x202F, 0x202F), (0x205F, 0x205F), (0x3000, 0x3000)]

theorem exists_blankRange (h : isBlank c = true) :
    ∃ r ∈ blankRanges, r.1 ≤ c.toNat ∧ c.toNat ≤ r.2 := by
  simp only [isBlank, Bool.or_eq_true, Bool.and_eq_true, decide_eq_true_eq, beq_iff_eq] at h
  simp only [blankRanges, List.exists_mem_cons_iff, List.not_mem_nil, false_and, exists_false,
    or_false]
  omega

theorem wordRanges_apart : ∀ w ∈ wordRanges, ∀ r ∈ blankRanges, w.2 < r.1 ∨ r.2 < w.1 := by
  decide +kernel

theorem isWordChar_of_isBlank {b : Char} (hb : isBlank b = true) : isWordChar b = false := by
  obtain ⟨r, hr, hrange⟩ := exists_blankRange hb
  have halpha : b.isAlpha = false := by
    by_contra h
    rw [not_blank_of_isAlpha (by simpa using h)] at hb
    cases hb
  have hdigit : b.isDigit = false := by
    by_contra h
    rw [not_blank_of_isDigit (by simpa using h)] at hb
    cases hb
  have hline : b ≠ '_' := by
    rintro rfl
    exact absurd hb (by decide)
  have htable : inRanges wordRanges b.toNat = false := by
    rw [inRanges, List.any_eq_false]
    intro w hw hin
    have := wordRanges_apart w hw r hr
    simp only [Bool.and_eq_true, decide_eq_true_eq] at hin
    omega
  simp [isWordChar, Char.isAlphanum, halpha, hdigit, hline, htable]

/-! ## Words read at the head of a text -/

theorem dropWord?_of_sameIgnoringCase {m : Text} (h : sameIgnoringCase m word = true) (rest : Text) :
    dropWord? word (m ++ rest) = some rest := by
  rw [sameIgnoringCase, beq_iff_eq] at h
  induction word generalizing m with
  | nil =>
    obtain rfl : m = [] := List.map_eq_nil_iff.1 h
    rfl
  | cons w word ih =>
    cases m with
    | nil => cases h
    | cons c m =>
      obtain ⟨hc, hm⟩ := List.cons.inj h
      rw [List.cons_append, dropWord?, if_pos hc.symm]
      exact ih hm

theorem dropWord?_eq_some (h : dropWord? word t = some rest) :
    ∃ m, t = m ++ rest ∧ m.map Char.toLower = word.map Char.toLower := by
  induction word generalizing t with
  | nil =>
    cases h
    exact ⟨[], rfl, rfl⟩
  | cons w word ih =>
    cases t with
    | nil => cases h
    | cons c t =>
      rw [dropWord?] at h
      split at h
      · next hc =>
        obtain ⟨m, rfl, hm⟩ := ih h
        exact ⟨c :: m, rfl, by rw [List.map_cons, List.map_cons, hm, hc]⟩
      · cases h

theorem dropWord?_append_of_some (h : dropWord? word t = some rest) (u : Text) :
    dropWord? word (t ++ u) = some (rest ++ u) := by
  induction word generalizing t with
  | nil =>
    cases h
    rfl
  | cons w word ih =>
    cases t with
    | nil => cases h
    | cons c t =>
      rw [dropWord?] at h
      split at h
      · next hc =>
        rw [List.cons_append, dropWord?, if_pos hc]
        exact ih h
      · cases h

/-- A text that is completed to a word holds letters of that word only. -/
theorem of_dropWord?_append {u : Text} (hn : dropWord? word t = none)
    (h : dropWord? word (t ++ u) = some rest) : ∀ c ∈ t, ∃ w ∈ word, w.toLower = c.toLower := by
  induction word generalizing t with
  | nil => cases hn
  | cons w word ih =>
    cases t with
    | nil => nofun
    | cons c t =>
      rw [List.cons_append, dropWord?] at h
      rw [dropWord?] at hn
      split at h
      · next hc =>
        rw [if_pos hc] at hn
        intro d hd
        rcases List.mem_cons.1 hd with rfl | hd
        · exact ⟨w, List.mem_cons_self, hc⟩
        · obtain ⟨x, hx, heq⟩ := ih hn h d hd
          exact ⟨x, List.mem_cons_of_mem w hx, heq⟩
      · cases h

end HashtagSearch.Text

namespace HashtagSearch

theorem Apart.of_blank {b : Char} (hb : Text.isBlank b = true) (t : Text) : Apart (b :: t) := by
  refine ⟨Text.isWordChar_of_isBlank hb, Join.read?_of_head_ne ?_ t⟩
  rintro rfl
  exact absurd hb (by decide)

end HashtagSearch
