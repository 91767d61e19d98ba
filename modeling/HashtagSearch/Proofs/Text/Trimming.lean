import HashtagSearch.Text.Basic
import Mathlib.Data.List.DropRight

/-!
# Ends of a text

What trimming and the removal of an ending do to a text that is put together. A text
that starts and ends with a character that is no blank is left alone by trimming, and so
is the front of a text when only its end is trimmed.
-/

namespace HashtagSearch.Text

/-- The text starts with a character that is no blank. -/
def SolidStart (t : Text) : Prop := ∃ c r, t = c :: r ∧ isBlank c = false

/-- The text ends with a character that is no blank. -/
def SolidEnd (t : Text) : Prop := ∃ r c, t = r ++ [c] ∧ isBlank c = false

def AllBlank (t : Text) : Prop := ∀ c ∈ t, isBlank c = true

instance (t : Text) : Decidable (AllBlank t) := List.decidableBAll (isBlank · = true) t

theorem allBlank_space : AllBlank [' '] := by simp [AllBlank, isBlank]

theorem SolidStart.append {s : Text} (h : SolidStart s) (t : Text) : SolidStart (s ++ t) := by
  obtain ⟨c, r, rfl, hc⟩ := h
  exact ⟨c, r ++ t, rfl, hc⟩

theorem SolidEnd.append {t : Text} (h : SolidEnd t) (s : Text) : SolidEnd (s ++ t) := by
  obtain ⟨r, c, rfl, hc⟩ := h
  exact ⟨s ++ r, c, by rw [List.append_assoc], hc⟩

theorem SolidStart.ne_nil {t : Text} (h : SolidStart t) : t ≠ [] := by
  obtain ⟨c, r, rfl, _⟩ := h
  simp

/-! ## Trimming -/

theorem trimEnd_eq_rdropWhile (t : Text) : trimEnd t = t.rdropWhile isBlank := rfl

theorem trimStart_of_solidStart {t : Text} (h : SolidStart t) : trimStart t = t := by
  obtain ⟨c, r, rfl, hc⟩ := h
  simp [trimStart, hc]

theorem trimEnd_of_solidEnd {t : Text} (h : SolidEnd t) : trimEnd t = t := by
  obtain ⟨r, c, rfl, hc⟩ := h
  rw [trimEnd_eq_rdropWhile]
  exact List.rdropWhile_concat_neg _ _ _ (by simp [hc])

theorem trim_of_solid {t : Text} (hs : SolidStart t) (he : SolidEnd t) : trim t = t := by
  rw [trim, trimStart_of_solidStart hs, trimEnd_of_solidEnd he]

theorem trim_of_no_blank {t : Text} (h : ∀ c ∈ t, isBlank c = false) : trim t = t := by
  by_cases hne : t = []
  · rw [hne]
    rfl
  · obtain ⟨c, r, hstart⟩ := List.exists_cons_of_ne_nil hne
    obtain ⟨s, d, hend⟩ := List.eq_nil_or_concat t |>.resolve_left hne
    have hc : c ∈ t := hstart ▸ List.mem_cons_self
    have hd : d ∈ t := by simp [hend]
    exact trim_of_solid ⟨c, r, hstart, h c hc⟩
      ⟨s, d, by rw [hend, List.concat_eq_append], h d hd⟩

theorem trimStart_append_of_allBlank {s : Text} (h : AllBlank s) (t : Text) :
    trimStart (s ++ t) = trimStart t :=
  List.dropWhile_append_of_pos h

theorem trimEnd_append_of_allBlank (s : Text) {t : Text} (h : AllBlank t) :
    trimEnd (s ++ t) = trimEnd s := by
  have hr : ∀ c ∈ t.reverse, isBlank c = true := fun c hc => h c (List.mem_reverse.1 hc)
  rw [trimEnd, List.reverse_append, List.dropWhile_append_of_pos hr]
  rfl

theorem trimStart_eq_nil_iff {t : Text} : trimStart t = [] ↔ AllBlank t :=
  List.dropWhile_eq_nil_iff

theorem solidStart_trimStart {t : Text} (h : trimStart t ≠ []) : SolidStart (trimStart t) := by
  obtain ⟨c, r, hr⟩ := List.exists_cons_of_ne_nil h
  refine ⟨c, r, hr, ?_⟩
  have := List.head?_dropWhile_not isBlank t
  change t.dropWhile isBlank = c :: r at hr
  simpa [hr] using this

theorem solidEnd_trimEnd {t : Text} (h : trimEnd t ≠ []) : SolidEnd (trimEnd t) := by
  have hs : SolidStart (trimStart t.reverse) :=
    solidStart_trimStart fun hn => h (by simpa [trimEnd, trimStart] using hn)
  obtain ⟨c, r, hr, hc⟩ := hs
  exact ⟨r.reverse, c, by rw [trimEnd, show t.reverse.dropWhile isBlank = c :: r from hr]; simp, hc⟩

theorem allBlank_takeWhile (t : Text) : AllBlank (t.takeWhile isBlank) :=
  fun _ hc => List.mem_takeWhile_imp hc

theorem exists_trimEnd_append (t : Text) : ∃ gap, AllBlank gap ∧ trimEnd t ++ gap = t :=
  ⟨t.rtakeWhile isBlank, fun _ hc => List.mem_rtakeWhile_imp hc,
    List.rdropWhile_append_rtakeWhile⟩

theorem trimEnd_append {t : Text} (s : Text) (h : trimEnd t ≠ []) :
    trimEnd (s ++ t) = s ++ trimEnd t := by
  obtain ⟨gap, hgap, ht⟩ := exists_trimEnd_append t
  calc trimEnd (s ++ t) = trimEnd (s ++ trimEnd t ++ gap) := by rw [List.append_assoc, ht]
    _ = trimEnd (s ++ trimEnd t) := trimEnd_append_of_allBlank _ hgap
    _ = s ++ trimEnd t := trimEnd_of_solidEnd ((solidEnd_trimEnd h).append s)

theorem SolidStart.trimEnd {t : Text} (h : SolidStart t) : SolidStart (trimEnd t) := by
  obtain ⟨c, r, rfl, hc⟩ := h
  by_cases hr : Text.trimEnd r = []
  · have hb : AllBlank r := by
      intro x hx
      exact List.rdropWhile_eq_nil_iff.1 hr x hx
    refine ⟨c, [], ?_, hc⟩
    rw [← List.singleton_append, trimEnd_append_of_allBlank _ hb]
    exact trimEnd_of_solidEnd ⟨[], c, rfl, hc⟩
  · exact ⟨c, Text.trimEnd r, trimEnd_append [c] hr, hc⟩

theorem trim_of_solidStart {t : Text} (h : SolidStart t) : trim t = trimEnd t := by
  rw [trim, trimStart_of_solidStart h]

theorem trim_cases (t : Text) : trim t = [] ∨ SolidStart (trim t) ∧ SolidEnd (trim t) := by
  by_cases h : trimStart t = []
  · exact .inl (by rw [trim, h]; rfl)
  · have hs : SolidStart (trim t) := (solidStart_trimStart h).trimEnd
    exact .inr ⟨hs, solidEnd_trimEnd hs.ne_nil⟩

theorem solid_of_trim_eq {t : Text} (hne : t ≠ []) (h : trim t = t) :
    SolidStart t ∧ SolidEnd t := by
  rcases trim_cases t with hn | hs
  · exact absurd (h ▸ hn) hne
  · rwa [h] at hs

@[simp] theorem trim_trim (t : Text) : trim (trim t) = trim t := by
  rcases trim_cases t with h | ⟨hs, he⟩
  · rw [h]
    rfl
  · exact trim_of_solid hs he

theorem trim_eq_nil_iff {t : Text} : trim t = [] ↔ AllBlank t := by
  rw [← trimStart_eq_nil_iff]
  constructor
  · intro h
    by_contra hs
    exact (solidStart_trimStart hs).trimEnd.ne_nil h
  · intro h
    rw [trim, h]
    rfl

@[simp] theorem trim_trimStart (t : Text) : trim (trimStart t) = trim t :=
  congrArg trimEnd (List.dropWhile_idempotent isBlank t)

theorem trim_append_of_allBlank {s : Text} (h : AllBlank s) (t : Text) :
    trim (s ++ t) = trim t := by
  rw [trim, trimStart_append_of_allBlank h, ← trim]

theorem trim_append {s t : Text} (hs : SolidStart s) (ht : SolidStart t) :
    trim (s ++ t) = s ++ trim t := by
  rw [trim_of_solidStart (hs.append t), trim_of_solidStart ht]
  exact trimEnd_append s ht.trimEnd.ne_nil

theorem trimStart_append {t : Text} (h : trimStart t ≠ []) (u : Text) :
    trimStart (t ++ u) = trimStart t ++ u := by
  rw [trimStart, List.dropWhile_append, if_neg (by simpa [trimStart] using h)]
  rfl

theorem trimStart_append_of_solidStart {u : Text} (hu : SolidStart u) (t : Text) :
    trimStart (t ++ u) = trimStart t ++ u := by
  by_cases h : trimStart t = []
  · rw [h, List.nil_append, trimStart_append_of_allBlank (trimStart_eq_nil_iff.1 h),
      trimStart_of_solidStart hu]
  · exact trimStart_append h u

theorem trimStart_ne_nil {t : Text} (h : trim t ≠ []) : trimStart t ≠ [] := by
  intro hn
  exact h (by rw [trim, hn]; rfl)

theorem trim_append_blank {q : Text} (hq : AllBlank q) (t : Text) : trim (t ++ q) = trim t := by
  by_cases h : AllBlank t
  · have hall : AllBlank (t ++ q) := fun c hc => (List.mem_append.1 hc).elim (h c) (hq c)
    rw [trim_eq_nil_iff.2 hall, trim_eq_nil_iff.2 h]
  · rw [trim, trimStart_append (mt trimStart_eq_nil_iff.1 h), trimEnd_append_of_allBlank _ hq,
      ← trim]

theorem exists_trim_split (t : Text) :
    ∃ trail, AllBlank trail ∧ t = t.takeWhile isBlank ++ (trim t ++ trail) := by
  obtain ⟨trail, htrail, hs⟩ := exists_trimEnd_append (trimStart t)
  exact ⟨trail, htrail, by rw [trim, hs, trimStart, List.takeWhile_append_dropWhile]⟩

theorem trimEnd_of_front {t s u : Text} (h : trim t = s ++ u) : trimEnd s = trim s := by
  cases s with
  | nil => rfl
  | cons c s =>
    have hstart : SolidStart (trim t) := by
      rcases trim_cases t with hnil | hsolid
      · rw [hnil] at h
        cases h
      · exact hsolid.1
    obtain ⟨d, r, hd, hb⟩ := hstart
    obtain ⟨rfl, -⟩ := List.cons.inj (hd.symm.trans h)
    exact (trim_of_solidStart ⟨d, s, rfl, hb⟩).symm

theorem trimStart_of_back {t s u : Text} (h : trim t = s ++ u) : trimStart u = trim u := by
  rcases List.eq_nil_or_concat u with rfl | ⟨r, c, rfl⟩
  · rfl
  · have hend : SolidEnd (trim t) := by
      rcases trim_cases t with hnil | hsolid
      · rw [hnil] at h
        simp at h
      · exact hsolid.2
    obtain ⟨r', d, hd, hb⟩ := hend
    rw [h, List.concat_eq_append, ← List.append_assoc] at hd
    obtain rfl : c = d := (List.append_inj' hd rfl).2 |> List.singleton_inj.1
    rw [List.concat_eq_append, trim, trimStart_append_of_solidStart ⟨c, [], rfl, hb⟩,
      trimEnd_of_solidEnd ⟨trimStart r, c, rfl, hb⟩]

theorem mem_of_mem_trim {t : Text} {c : Char} (h : c ∈ trim t) : c ∈ t :=
  (List.dropWhile_suffix isBlank).subset ((List.rdropWhile_prefix isBlank _).subset h)

/-! ## Runs -/

theorem takeWhile_append_of_head {p : Char → Bool} {s u : Text} (hs : ∀ c ∈ s, p c = true)
    (hu : ∀ c ∈ u.head?, p c = false) :
    (s ++ u).takeWhile p = s ∧ (s ++ u).dropWhile p = u := by
  rw [List.takeWhile_append_of_pos hs, List.dropWhile_append_of_pos hs]
  cases u with
  | nil => simp
  | cons c u => simp [hu c rfl]

/-! ## Endings and parts -/

theorem dropEnding?_eq_some_iff {ending t rest : Text} :
    dropEnding? ending t = some rest ↔ t = rest ++ ending := by
  unfold dropEnding?
  constructor
  · intro h
    split at h
    · next hs =>
      obtain ⟨r, rfl⟩ := List.isSuffixOf_iff_suffix.1 hs
      cases h
      simp
    · cases h
  · rintro rfl
    simp

theorem dropEnding?_eq_none_iff {ending t : Text} :
    dropEnding? ending t = none ↔ ¬ ending <:+ t := by
  simp [dropEnding?, ← List.isSuffixOf_iff_suffix]

theorem hasPart_iff {part t : Text} : hasPart part t = true ↔ part <:+: t := by
  induction t with
  | nil => simp [hasPart]
  | cons c t ih => simp [hasPart, ih, List.infix_cons_iff]

theorem hasPart_of_not_mem {a : Char} {part t : Text} (h : a ∉ t) :
    hasPart (a :: part) t = false := by
  rw [← Bool.not_eq_true, hasPart_iff]
  intro hpart
  exact h (hpart.subset List.mem_cons_self)

/-- Two texts hold a part of two characters only if one of them does or it lies across. -/
theorem hasPart_append {a b : Char} {s t : Text} (hs : hasPart [a, b] s = false)
    (ht : hasPart [a, b] t = false) (hb : t.head? ≠ some b) : hasPart [a, b] (s ++ t) = false := by
  induction s with
  | nil => exact ht
  | cons c s ih =>
    simp only [hasPart, Bool.or_eq_false_iff] at hs
    have hp : List.isPrefixOf [a, b] (c :: (s ++ t)) = false := by
      cases s with
      | cons d s => exact hs.1
      | nil =>
        rw [← Bool.not_eq_true, List.isPrefixOf_iff_prefix]
        rintro ⟨u, hu⟩
        have ht : t = b :: u := (List.cons.inj hu).2.symm
        exact hb (ht ▸ rfl)
    simp only [List.cons_append, hasPart, hp, ih hs.2, Bool.or_self]

theorem replaceFrom_length_append (part new s t : Text) :
    replaceFrom part new s.length (s ++ t) = replaceFrom part new 0 t := by
  induction s with
  | nil => rfl
  | cons c s ih => exact ih

theorem replaceFrom_of_not_mem {a : Char} {part t : Text} (h : a ∉ t) (new : Text) :
    replaceFrom (a :: part) new 0 t = t := by
  induction t with
  | nil => rfl
  | cons c t ih =>
    obtain ⟨hc, ht⟩ := not_or.1 (mt List.mem_cons.2 h)
    rw [replaceFrom, List.isPrefixOf_cons_cons, beq_false_of_ne hc, Bool.false_and,
      if_neg Bool.false_ne_true, ih ht]

/-- A part at the head of a text is replaced, and it cannot occur in a rest without its first
character. -/
theorem replace_append_of_not_mem {a : Char} {part t : Text} (h : a ∉ t) (new : Text) :
    replace (a :: part) new (a :: part ++ t) = new ++ t := by
  have hprefix : (a :: part).isPrefixOf (a :: (part ++ t)) = true :=
    List.isPrefixOf_iff_prefix.2 (List.prefix_append (a :: part) t)
  rw [replace, if_neg (by simp), List.cons_append, replaceFrom, if_pos hprefix,
    List.length_cons, Nat.add_sub_cancel, replaceFrom_length_append, replaceFrom_of_not_mem h]

end HashtagSearch.Text
