import HashtagSearch.Proofs.Text.SmallLetters
import Mathlib.Data.List.Chain

/-!
# Capitals and their small letters

A character is its own small form, or it is a capital in the table, or the dotted capital I.
The tables agree about the capitals: they and their small letters are letters to the rule for
sigmas, and no small letter is a capital again. All this is seen run by run, on the first and the
last code point of each.
-/

namespace HashtagSearch.Text

variable {n low high step : Nat} {ranges : List (Nat × Nat)}
  {run : Nat × Nat × Nat × Int} {runs : List (Nat × Nat × Nat × Int)} {c d : Char}

/-! ## Runs and ranges

The checks below are evaluated on whole tables. They compare with `Nat.ble` and `Nat.blt`, which
the kernel computes on numerals, and stop at the first entry that decides. -/

/-- The code points from `low` to `high` in steps. -/
structure InRun (low high step n : Nat) : Prop where
  low_le : low ≤ n
  le_high : n ≤ high
  mod_eq : (n - low) % step = 0

def coversRange (low high : Nat) : List (Nat × Nat) → Bool
  | [] => false
  | (first, last) :: ranges =>
    bif Nat.ble high last then Nat.ble first low else coversRange low high ranges

def missesRange (low high : Nat) : List (Nat × Nat) → Bool
  | [] => true
  | (first, last) :: ranges =>
    bif Nat.ble low last then Nat.blt high first else missesRange low high ranges

/-- Whether the ranges hold a run, as a whole or each of its code points. -/
def coversRun (low high step : Nat) (ranges : List (Nat × Nat)) : Bool :=
  coversRange low high ranges ||
    (List.range' low ((high - low) / step + 1) step).all fun n => coversRange n n ranges

/-- Whether a run meets none of the others, which ascend: it lies in front of them, behind them or
between their code points. -/
def missesRuns (low high step : Nat) : List (Nat × Nat × Nat × Int) → Bool
  | [] => true
  | (first, last, step', _) :: runs =>
    bif Nat.blt high first then true
    else bif Nat.blt last low then missesRuns low high step runs
    else bif Nat.beq (step % step') 0 then
      bif Nat.beq (low % step') (first % step') then false else missesRuns low high step runs
    else false

theorem inRanges_cons {r : Nat × Nat} :
    inRanges (r :: ranges) n = true ↔ (r.1 ≤ n ∧ n ≤ r.2) ∨ inRanges ranges n = true := by
  simp [inRanges]

theorem inRanges_of_coversRange (h : coversRange low high ranges = true) (hlow : low ≤ n)
    (hhigh : n ≤ high) : inRanges ranges n = true := by
  induction ranges with
  | nil => cases h
  | cons r ranges ih =>
    rw [inRanges_cons]
    simp only [coversRange, Bool.cond_eq_ite, Nat.ble_eq] at h
    split at h
    · next hlast =>
      have hfirst : r.1 ≤ low := by rwa [Nat.ble_eq] at h
      exact .inl ⟨hfirst.trans hlow, hhigh.trans hlast⟩
    · exact .inr (ih h)

theorem inRanges_of_coversRun (h : coversRun low high step ranges = true)
    (hn : InRun low high step n) : inRanges ranges n = true := by
  rw [coversRun, Bool.or_eq_true] at h
  obtain h | h := h
  · exact inRanges_of_coversRange h hn.low_le hn.le_high
  · refine inRanges_of_coversRange (List.all_eq_true.1 h n ?_) le_rfl le_rfl
    refine List.mem_range'.2 ⟨(n - low) / step, ?_, ?_⟩
    · exact Nat.lt_succ_of_le (Nat.div_le_div_right (Nat.sub_le_sub_right hn.le_high low))
    · rw [Nat.mul_div_cancel' (Nat.dvd_of_mod_eq_zero hn.mod_eq), Nat.add_sub_cancel' hn.low_le]

theorem first_le_of_mem {α : Type} {first : α → Nat} {a b : α} {as : List α}
    (hsorted : (a :: as).Pairwise (first · ≤ first ·)) (hb : b ∈ a :: as) : first a ≤ first b := by
  obtain rfl | hb := List.mem_cons.1 hb
  · exact le_rfl
  · exact (List.pairwise_cons.1 hsorted).1 b hb

theorem not_inRanges_of_missesRange (hsorted : ranges.Pairwise (·.1 ≤ ·.1))
    (h : missesRange low high ranges = true) (hlow : low ≤ n) (hhigh : n ≤ high) :
    inRanges ranges n = false := by
  induction ranges with
  | nil => rfl
  | cons r ranges ih =>
    rw [← Bool.not_eq_true]
    simp only [missesRange, Bool.cond_eq_ite, Nat.ble_eq] at h
    split at h
    · rw [Nat.blt_eq] at h
      rw [inRanges, List.any_eq_true]
      rintro ⟨r', hr', hn⟩
      have hle : r.1 ≤ r'.1 := first_le_of_mem hsorted hr'
      simp only [Bool.and_eq_true, decide_eq_true_eq] at hn
      omega
    · next hlast =>
      rw [inRanges_cons, ih hsorted.of_cons h]
      rintro (hn | hn)
      · exact hlast (hlow.trans hn.2)
      · cases hn

/-- A run whose steps another divides stays at one distance from its code points. -/
theorem InRun.mod_eq_mod {step' : Nat} (hn : InRun low high step n) (h : step % step' = 0) :
    n % step' = low % step' := by
  have hdvd : step' ∣ n - low :=
    (Nat.dvd_of_mod_eq_zero h).trans (Nat.dvd_of_mod_eq_zero hn.mod_eq)
  exact ((Nat.modEq_iff_dvd' hn.low_le).2 hdvd).symm

theorem not_inRun_of_missesRuns (hsorted : runs.Pairwise (·.1 ≤ ·.1))
    (h : missesRuns low high step runs = true) (hn : InRun low high step n) :
    ∀ run ∈ runs, ¬ InRun run.1 run.2.1 run.2.2.1 n := by
  induction runs with
  | nil => nofun
  | cons run runs ih =>
    simp only [missesRuns, Bool.cond_eq_ite, Nat.blt_eq, Nat.beq_eq] at h
    split at h
    · next hbehind =>
      intro run' hrun' hin
      have hle : run.1 ≤ run'.1 := first_le_of_mem hsorted hrun'
      exact absurd (hle.trans (hin.low_le.trans hn.le_high)) (Nat.not_le.2 hbehind)
    · rw [List.forall_mem_cons]
      split at h
      · next hbefore =>
        refine ⟨fun hin => ?_, ih hsorted.of_cons h⟩
        exact absurd (hn.low_le.trans hin.le_high) (Nat.not_le.2 hbefore)
      · split at h
        · next hstep =>
          split at h
          · cases h
          · next hmod =>
            refine ⟨fun hin => hmod ?_, ih hsorted.of_cons h⟩
            rw [← hn.mod_eq_mod hstep, hin.mod_eq_mod (Nat.mod_self _)]
        · cases h

/-! ## The tables -/

/-- The runs of all capitals but the dotted I, with those of ASCII. -/
def letterRuns : List (Nat × Nat × Nat × Int) := (0x41, 0x5A, 1, 32) :: capitalRuns

def letterRanges : List (Nat × Nat) := (0x41, 0x5A) :: (0x61, 0x7A) :: casedRanges

/-- The dotted capital I and the final sigma, which no capital has for its small letter. -/
def unreachedRuns : List (Nat × Nat × Nat × Int) := [(0x130, 0x130, 1, 0), (0x3C2, 0x3C2, 1, 0)]

/-- First and last code point of the small letters of a run, and the distance between neighbours.
A single letter has none. -/
def smallRun : Nat × Nat × Nat × Int → Nat × Nat × Nat
  | (first, last, step, offset) =>
    ((first + offset).toNat, (last + offset).toNat, bif Nat.beq first last then 0 else step)

def lettersOnly (low high step : Nat) : Bool :=
  coversRun low high step letterRanges && missesRange low high caseIgnorableRanges

def charsOnly (low high : Nat) : Bool :=
  Nat.blt 0 low && (Nat.blt high 0xD800 || Nat.blt 0xDFFF low && Nat.blt high 0x110000)

theorem letterRuns_capitals :
    letterRuns.all (fun run => lettersOnly run.1 run.2.1 run.2.2.1) = true := by
  decide +kernel

theorem letterRuns_small : letterRuns.all (fun run =>
    let (low, high, step) := smallRun run
    charsOnly low high && lettersOnly low high step && missesRuns low high step letterRuns &&
      missesRuns low high step unreachedRuns) = true := by
  decide +kernel

theorem letterRuns_sorted : letterRuns.Pairwise (·.1 ≤ ·.1) :=
  List.isChain_iff_pairwise.1 (by decide +kernel)

theorem caseIgnorableRanges_sorted : caseIgnorableRanges.Pairwise (·.1 ≤ ·.1) :=
  List.isChain_iff_pairwise.1 (by decide +kernel)

/-! ## Pairs of letters -/

/-- A cased character that the rule for sigmas does not pass over. -/
structure IsLetter (c : Char) : Prop where
  cased : isCased c = true
  solid : isCaseIgnorable c = false

theorem isUpper_iff : c.isUpper = true ↔ 0x41 ≤ c.toNat ∧ c.toNat ≤ 0x5A := by
  simp [Char.isUpper, UInt32.le_iff_toNat_le]

theorem isLower_iff : c.isLower = true ↔ 0x61 ≤ c.toNat ∧ c.toNat ≤ 0x7A := by
  simp [Char.isLower, UInt32.le_iff_toNat_le]

theorem isCased_of_inRanges (h : inRanges letterRanges c.toNat = true) : isCased c = true := by
  have hbeyond : ∀ r ∈ casedRanges, 0x80 ≤ r.1 := by decide +kernel
  rw [letterRanges, inRanges_cons, inRanges_cons, ← isUpper_iff, ← isLower_iff] at h
  simp only [isCased, Char.isAlpha, Bool.or_eq_true, Bool.and_eq_true, decide_eq_true_eq]
  obtain h | h | h := h
  · exact .inl (.inl h)
  · exact .inl (.inr h)
  · refine .inr ⟨?_, h⟩
    simp only [inRanges, List.any_eq_true, Bool.and_eq_true, decide_eq_true_eq] at h
    obtain ⟨r, hr, hlow, -⟩ := h
    exact (hbeyond r hr).trans hlow

theorem isLetter_of_lettersOnly (h : lettersOnly low high step = true)
    (hn : InRun low high step c.toNat) : IsLetter c := by
  rw [lettersOnly, Bool.and_eq_true] at h
  exact ⟨isCased_of_inRanges (inRanges_of_coversRun h.1 hn),
    not_inRanges_of_missesRange caseIgnorableRanges_sorted h.2 hn.low_le hn.le_high⟩

/-- A character is its own small form, unless it is the dotted capital I or moved by the offset of
a run. -/
theorem lowerChar_run (c : Char) : lowerChar c = [c] ∨ c = 'İ' ∨
    ∃ run ∈ letterRuns, InRun run.1 run.2.1 run.2.2.1 c.toNat ∧
      lowerChar c = [Char.ofNat (c.toNat + run.2.2.2).toNat] := by
  unfold lowerChar
  split
  · by_cases hupper : c.isUpper = true
    · have hrange := isUpper_iff.1 hupper
      refine .inr (.inr ⟨(0x41, 0x5A, 1, 32), List.mem_cons_self, ⟨hrange.1, hrange.2, ?_⟩, ?_⟩)
      · exact Nat.mod_one _
      · rw [Char.toLower_eq_of_isUpper hupper]
        rfl
    · rw [Char.toLower_eq_of_not_isUpper hupper]
      exact .inl rfl
  · split
    · next hdotted => exact .inr (.inl hdotted)
    · split
      · next first last step offset hrun =>
        have hmem := List.mem_of_find?_eq_some hrun
        have hrange := List.find?_some hrun
        simp only [Bool.and_eq_true, decide_eq_true_eq, beq_iff_eq] at hrange
        exact .inr (.inr ⟨_, List.mem_cons_of_mem _ hmem, ⟨hrange.1.1, hrange.1.2, hrange.2⟩, rfl⟩)
      · exact .inl rfl

structure LetterPair (c d : Char) : Prop where
  capital : IsLetter c
  small : IsLetter d
  fixed : lowerChar d = [d]
  ne_final : d ≠ 'ς'

theorem InRun.small (hn : InRun run.1 run.2.1 run.2.2.1 n) (hpos : 0 < (smallRun run).1) :
    InRun (smallRun run).1 (smallRun run).2.1 (smallRun run).2.2 (n + run.2.2.2).toNat := by
  obtain ⟨first, last, step, offset⟩ := run
  obtain ⟨hfirst, hlast, hmod⟩ := hn
  simp only [smallRun] at hpos hfirst hlast hmod ⊢
  have hdistance : (n + offset).toNat - (first + offset).toNat = n - first := by omega
  refine ⟨by omega, by omega, ?_⟩
  simp only [hdistance, Bool.cond_eq_ite, Nat.beq_eq]
  split
  · omega
  · exact hmod

theorem first_pos_of_charsOnly (h : charsOnly low high = true) : 0 < low := by
  simp only [charsOnly, Bool.and_eq_true, Nat.blt_eq] at h
  exact h.1

theorem isValidChar_of_charsOnly (h : charsOnly low high = true) (hlow : low ≤ n)
    (hhigh : n ≤ high) : n.isValidChar := by
  simp only [charsOnly, Bool.and_eq_true, Bool.or_eq_true, Nat.blt_eq] at h
  simp only [Nat.isValidChar]
  omega

theorem letterPair_of_run (hrun : run ∈ letterRuns)
    (hn : InRun run.1 run.2.1 run.2.2.1 c.toNat) :
    LetterPair c (Char.ofNat (c.toNat + run.2.2.2).toNat) := by
  have hcapital := List.all_eq_true.1 letterRuns_capitals run hrun
  have hsmall := List.all_eq_true.1 letterRuns_small run hrun
  simp only [Bool.and_eq_true] at hsmall
  obtain ⟨⟨⟨hchars, hletters⟩, hmisses⟩, hunreached⟩ := hsmall
  have hd := hn.small (first_pos_of_charsOnly hchars)
  have hvalid := isValidChar_of_charsOnly hchars hd.low_le hd.le_high
  rw [← (Char.toNat_ofNat _).trans (if_pos hvalid)] at hd
  have hcapitals := not_inRun_of_missesRuns letterRuns_sorted hmisses hd
  have hothers := not_inRun_of_missesRuns (by decide) hunreached hd
  simp only [unreachedRuns, List.forall_mem_cons] at hothers
  obtain ⟨hdotted, hfinal, -⟩ := hothers
  refine ⟨isLetter_of_lettersOnly hcapital hn, isLetter_of_lettersOnly hletters hd, ?_, ?_⟩
  · obtain hself | hd' | ⟨run', hrun', hn', -⟩ := lowerChar_run _
    · exact hself
    · exact absurd (by rw [hd']; exact ⟨le_rfl, le_rfl, rfl⟩) hdotted
    · exact absurd hn' (hcapitals run' hrun')
  · intro hd'
    exact hfinal (by rw [hd']; exact ⟨le_rfl, le_rfl, rfl⟩)

/-- A character that is not its own small form is the dotted capital I or one of a pair. -/
theorem lowerChar_cases (c : Char) :
    lowerChar c = [c] ∨ c = 'İ' ∨ ∃ d, lowerChar c = [d] ∧ LetterPair c d := by
  obtain hself | hdotted | ⟨run, hrun, hn, heq⟩ := lowerChar_run c
  · exact .inl hself
  · exact .inr (.inl hdotted)
  · exact .inr (.inr ⟨_, heq, letterPair_of_run hrun hn⟩)

end HashtagSearch.Text
