import HashtagSearch.Proofs.Text.Keywords
import HashtagSearch.Text.LowerCase

/-!
# Blanks in small letters

A text in small letters holds the same blanks as before: no blank has a small form of its
own, and no small form is a blank. For the letters beyond ASCII this is a property of the
table of capitals.
-/

namespace HashtagSearch.Text

variable {b c : Char} {t : Text}

/-! ## The table -/

theorem capitalRuns_apart : ∀ run ∈ capitalRuns, ∀ r ∈ blankRanges,
    (run.2.1 < r.1 ∨ r.2 < run.1) ∧
      (run.2.1 + run.2.2.2 < (r.1 : Int) ∨ (r.2 : Int) < run.1 + run.2.2.2) := by
  decide +kernel

theorem not_blank_of_capital {run : Nat × Nat × Nat × Int} (hrun : run ∈ capitalRuns)
    (hc : run.1 ≤ c.toNat ∧ c.toNat ≤ run.2.1) : isBlank c = false := by
  by_contra hb
  obtain ⟨r, hr, hrange⟩ := exists_blankRange (by simpa using hb)
  have hapart := (capitalRuns_apart run hrun r hr).1
  omega

theorem not_blank_of_smallLetter {run : Nat × Nat × Nat × Int} (hrun : run ∈ capitalRuns) {n : Nat}
    (hn : run.1 ≤ n ∧ n ≤ run.2.1) : isBlank (Char.ofNat (n + run.2.2.2).toNat) = false := by
  by_contra hb
  obtain ⟨r, hr, hrange⟩ := exists_blankRange (by simpa using hb)
  have hapart := (capitalRuns_apart run hrun r hr).2
  have hpos : ∀ r ∈ blankRanges, 0 < r.1 := by decide
  have hr := hpos r hr
  rw [Char.toNat_ofNat] at hrange
  split at hrange <;> omega

theorem mem_lowerChar (hb : isBlank b = true) : b ∈ lowerChar c ↔ b = c := by
  have hne {x : Char} (hx : isBlank x = false) : b ≠ x := by
    rintro rfl
    rw [hx] at hb
    cases hb
  unfold lowerChar
  split
  · rw [List.mem_singleton, eq_comm, toLower_eq_iff_of_isBlank hb, eq_comm]
  · split
    · next hc =>
      subst hc
      simp [hne (show isBlank 'i' = false by decide),
        hne (show isBlank '\u0307' = false by decide), hne (show isBlank 'İ' = false by decide)]
    · split
      · next first last step offset hrun =>
        have hmem := List.mem_of_find?_eq_some hrun
        have hrange := List.find?_some hrun
        simp only [Bool.and_eq_true, decide_eq_true_eq] at hrange
        rw [List.mem_singleton]
        exact iff_of_false (hne (not_blank_of_smallLetter hmem hrange.1))
          (hne (not_blank_of_capital hmem hrange.1))
      · rw [List.mem_singleton]

/-! ## Texts -/

theorem mem_lowerAfter (hb : isBlank b = true) (before : Text) : b ∈ lowerAfter before t ↔ b ∈ t := by
  induction t generalizing before with
  | nil => rfl
  | cons c t ih =>
    rw [lowerAfter]
    split
    · next hc =>
      have hsigma : b ≠ lowerSigma before t ∧ b ≠ c := by
        constructor
        · rintro rfl
          unfold lowerSigma at hb
          split at hb <;> exact absurd hb (by decide)
        · rintro rfl
          rw [hc] at hb
          exact absurd hb (by decide)
      rw [List.mem_cons, List.mem_cons, ih, or_iff_right hsigma.1, or_iff_right hsigma.2]
    · rw [List.mem_append, List.mem_cons, mem_lowerChar hb, ih]

theorem mem_lower (hb : isBlank b = true) : b ∈ lower t ↔ b ∈ t := mem_lowerAfter hb []

theorem lowerChar_ne_nil (c : Char) : lowerChar c ≠ [] := by
  unfold lowerChar
  split
  · simp
  · split
    · simp
    · split <;> simp

theorem lower_ne_nil (h : t ≠ []) : lower t ≠ [] := by
  obtain ⟨c, t, rfl⟩ := List.exists_cons_of_ne_nil h
  rw [lower, lowerAfter]
  split
  · simp
  · simp [lowerChar_ne_nil]

end HashtagSearch.Text
