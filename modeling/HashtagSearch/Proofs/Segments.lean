import HashtagSearch.Proofs.Text.Trimming
import HashtagSearch.Segment

/-!
# Segments with a value

The names at the front of a segment and the blanks behind them decide how it is read.
Whatever value follows that front, the segment has the same shape and the same names.
-/

namespace HashtagSearch

/-- The text starts like a value: neither with a blank nor with `#`. -/
def Text.ValueStart (t : Text) : Prop := ∃ c r, t = c :: r ∧ Text.isBlank c = false ∧ c ≠ '#'

theorem Text.ValueStart.solidStart {t : Text} (h : Text.ValueStart t) : Text.SolidStart t := by
  obtain ⟨c, r, rfl, hc, -⟩ := h
  exact ⟨c, r, rfl, hc⟩

theorem Text.ValueStart.trim {t : Text} (h : Text.ValueStart t) :
    Text.ValueStart (Text.trim t) := by
  obtain ⟨d, s, hds, hd⟩ := h.solidStart.trimEnd
  rw [Text.trim_of_solidStart h.solidStart]
  obtain ⟨c, r, rfl, -, hc⟩ := h
  refine ⟨d, s, hds, hd, ?_⟩
  have hp : Text.trimEnd (c :: r) <+: c :: r := List.rdropWhile_prefix _ _
  rw [hds, List.cons_prefix_cons] at hp
  exact hp.1 ▸ hc

namespace Segment

open Text

/-- A word that can be typed behind `#`. -/
def IsName (t : Text) : Prop := t ≠ [] ∧ ∀ c ∈ t, Token.isNameChar c = true

def IsGap (t : Text) : Prop := t ≠ [] ∧ AllBlank t

theorem isGap_space : IsGap [' '] := ⟨by simp, allBlank_space⟩

def value? : Segment → Option Text
  | explicit _ _ value | continued _ value => some value
  | _ => none

def withValue (v : Text) : Segment → Segment
  | explicit column operator _ => explicit column operator v
  | continued operator _ => continued operator v
  | s => s

/-- The value of a segment stands on one line. -/
structure FitsValue (t : Text) : Prop where
  start : ValueStart t
  oneLine : '\n' ∉ t

theorem isGap_of_getLast? {p w g : Text} (hne : w ≠ []) (hw : ∀ c ∈ w, isBlank c = false)
    (hg : AllBlank g) (hend : ∀ b ∈ (p ++ (w ++ g)).getLast?, isBlank b = true) : IsGap g := by
  refine ⟨?_, hg⟩
  rintro rfl
  rw [List.append_nil] at hend
  have hlast : w.getLast hne ∈ (p ++ w).getLast? :=
    List.mem_getLast?_append_of_mem_getLast? (List.getLast?_eq_some_getLast hne)
  have hb := hend _ hlast
  rw [hw _ (List.getLast_mem hne)] at hb
  cases hb

/-! ## Readers -/

theorem readTag?_eq_some_iff {t name rest : Text} : readTag? t = some (name, rest) ↔
    t = '#' :: name ++ rest ∧ IsName name ∧ ∀ c ∈ rest.head?, Token.isNameChar c = false := by
  constructor
  · intro h
    unfold readTag? at h
    split at h
    · next t =>
      split at h
      · cases h
      · next hne =>
        cases h
        refine ⟨by simp, ⟨by simpa using hne, fun c hc => List.mem_takeWhile_imp hc⟩, ?_⟩
        intro c hc
        have := List.head?_dropWhile_not Token.isNameChar t
        simpa [Option.mem_def.1 hc] using this
    · cases h
  · rintro ⟨rfl, ⟨hne, hall⟩, hr⟩
    obtain ⟨htake, hdrop⟩ := takeWhile_append_of_head hall hr
    simp [readTag?, htake, hdrop, hne]

theorem afterGap?_eq_some_iff {t rest : Text} : afterGap? t = some rest ↔
    ∃ g, IsGap g ∧ t = g ++ rest ∧ ∀ c ∈ rest.head?, isBlank c = false := by
  constructor
  · intro h
    unfold afterGap? at h
    split at h
    · next hb =>
      cases h
      refine ⟨t.takeWhile isBlank, ⟨?_, fun c hc => List.mem_takeWhile_imp hc⟩,
        by simp [trimStart], ?_⟩
      · cases t with
        | nil => simp at hb
        | cons c t => simp_all
      · intro c hc
        have := List.head?_dropWhile_not isBlank t
        change (t.dropWhile isBlank).head? = some c at hc
        simpa [hc] using this
    · cases h
  · rintro ⟨g, ⟨hne, hall⟩, rfl, hr⟩
    obtain ⟨c, g', rfl⟩ := List.exists_cons_of_ne_nil hne
    have hc : isBlank c = true := hall c List.mem_cons_self
    have htrim : trimStart (c :: g' ++ rest) = rest := by
      rw [trimStart_append_of_allBlank hall]
      cases rest with
      | nil => rfl
      | cons d rest => exact trimStart_of_solidStart ⟨d, rest, rfl, hr d (by simp)⟩
    rw [afterGap?, htrim]
    simp [hc]

theorem isNameChar_of_isBlank {c : Char} (h : isBlank c = true) : Token.isNameChar c = false := by
  simp [Token.isNameChar, h]

theorem readTag?_gap {name g : Text} (hn : IsName name) (hg : IsGap g) (rest : Text) :
    readTag? ('#' :: name ++ (g ++ rest)) = some (name, g ++ rest) := by
  refine readTag?_eq_some_iff.2 ⟨rfl, hn, ?_⟩
  obtain ⟨c, g, rfl⟩ := List.exists_cons_of_ne_nil hg.1
  have hc : Token.isNameChar c = false := isNameChar_of_isBlank (hg.2 c List.mem_cons_self)
  simpa using hc

theorem afterGap?_gap {g rest : Text} (hg : IsGap g) (hr : SolidStart rest) :
    afterGap? (g ++ rest) = some rest := by
  obtain ⟨c, r, rfl, hc⟩ := hr
  exact afterGap?_eq_some_iff.2 ⟨g, hg, rfl, by simpa using hc⟩

theorem isValue_of_valueStart {v : Text} (h : ValueStart v) : isValue v = decide ('\n' ∉ v) := by
  obtain ⟨c, r, rfl, -, hc⟩ := h
  simp [Segment.isValue, hc]

theorem readTag?_of_valueStart {v : Text} (h : ValueStart v) : readTag? v = none := by
  obtain ⟨c, r, rfl, -, hc⟩ := h
  unfold readTag?
  split
  · next heq => exact absurd (List.cons.inj heq).1 hc
  · rfl

/-! ## Shapes -/

theorem ofText_of_name {name g rest : Text} (hn : IsName name) (hg : IsGap g)
    (hr : SolidStart rest) : ofText ('#' :: name ++ (g ++ rest)) = afterColumn name rest := by
  obtain ⟨c, r, hcr⟩ := List.exists_cons_of_ne_nil (show g ++ rest ≠ [] by simp [hg.1])
  have hgap := afterGap?_gap hg hr
  unfold ofText
  rw [readTag?_gap hn hg]
  rw [hcr] at hgap ⊢
  simp only [hgap]

theorem ofText_explicit_start {column operator g g' v : Text} (hc : IsName column) (hg : IsGap g)
    (ho : IsName operator) (hg' : IsGap g') (hv : ValueStart v) :
    ofText ('#' :: column ++ (g ++ ('#' :: operator ++ (g' ++ v)))) =
      if '\n' ∈ v then .other else .explicit column operator v := by
  obtain ⟨c, r, hcr⟩ := List.exists_cons_of_ne_nil (show g' ++ v ≠ [] by simp [hg'.1])
  have hgap := afterGap?_gap hg' hv.solidStart
  have hsolid : SolidStart ('#' :: operator ++ (g' ++ v)) := ⟨'#', _, rfl, by decide⟩
  rw [ofText_of_name hc hg hsolid]
  unfold afterColumn
  rw [readTag?_gap ho hg']
  rw [hcr] at hgap ⊢
  by_cases hl : '\n' ∈ v <;> simp [hgap, Option.filter, isValue_of_valueStart hv, hl]

theorem ofText_explicit {column operator g g' v : Text} (hc : IsName column) (hg : IsGap g)
    (ho : IsName operator) (hg' : IsGap g') (hv : FitsValue v) :
    ofText ('#' :: column ++ (g ++ ('#' :: operator ++ (g' ++ v)))) =
      .explicit column operator v := by
  rw [ofText_explicit_start hc hg ho hg' hv.start, if_neg hv.oneLine]

theorem ofText_continued_start {operator g v : Text} (ho : IsName operator) (hg : IsGap g)
    (hv : ValueStart v) : ofText ('#' :: operator ++ (g ++ v)) =
      if '\n' ∈ v then .other else .continued operator v := by
  have hh : v ≠ ['#'] := by
    obtain ⟨c, r, rfl, -, hc⟩ := hv
    intro h
    exact hc (List.cons.inj h).1
  rw [ofText_of_name ho hg hv.solidStart]
  unfold afterColumn
  rw [readTag?_of_valueStart hv]
  by_cases hl : '\n' ∈ v <;> simp [hh, isValue_of_valueStart hv, hl]

theorem ofText_continued {operator g v : Text} (ho : IsName operator) (hg : IsGap g)
    (hv : FitsValue v) : ofText ('#' :: operator ++ (g ++ v)) = .continued operator v := by
  rw [ofText_continued_start ho hg hv.start, if_neg hv.oneLine]

theorem fitsValue_of_isValue {v : Text} (hb : ∀ c ∈ v.head?, isBlank c = false)
    (h : isValue v = true) : FitsValue v := by
  cases v with
  | nil => simp [isValue] at h
  | cons c r =>
    simp only [isValue, List.head?_cons, Option.any_some, Bool.and_eq_true, bne_iff_ne, ne_eq,
      Bool.not_eq_true', List.contains_eq_mem, decide_eq_false_iff_not] at h
    exact ⟨⟨c, r, rfl, hb c rfl, h.1⟩, h.2⟩

/-- A text is a name alone, a name with a gap and something behind it, or nothing that is read
further. -/
theorem ofText_cases (t : Text) : (ofText t = .blank ∨ ofText t = .other) ∨
    (∃ name, IsName name ∧ t = '#' :: name ∧ ofText t = .tag name) ∨
    ∃ name g rest, IsName name ∧ IsGap g ∧ (∀ c ∈ rest.head?, isBlank c = false) ∧
      t = '#' :: name ++ (g ++ rest) ∧ ofText t = afterColumn name rest := by
  cases htag : readTag? t with
  | none =>
    refine .inl ?_
    simp only [ofText, htag]
    split <;> simp
  | some p =>
    obtain ⟨name, rest⟩ := p
    obtain ⟨ht, hname, -⟩ := readTag?_eq_some_iff.1 htag
    cases rest with
    | nil =>
      have ht : t = '#' :: name := by rw [ht, List.append_nil]
      exact .inr (.inl ⟨name, hname, ht, by simp only [ofText, htag]⟩)
    | cons c rest =>
      cases hafter : afterGap? (c :: rest) with
      | none => exact .inl (.inr (by simp only [ofText, htag, hafter]))
      | some after =>
        obtain ⟨g, hg, hrest, hb⟩ := afterGap?_eq_some_iff.1 hafter
        exact .inr (.inr ⟨name, g, after, hname, hg, hb, by rw [ht, hrest],
          by simp only [ofText, htag, hafter]⟩)

theorem exists_afterColumn {t v : Text} (h : (ofText t).value? = some v) :
    ∃ name g rest, IsName name ∧ IsGap g ∧ (∀ c ∈ rest.head?, isBlank c = false) ∧
      t = '#' :: name ++ (g ++ rest) ∧ ofText t = afterColumn name rest := by
  rcases ofText_cases t with (hs | hs) | ⟨name, -, -, hs⟩ | hcolumn
  · simp [hs, value?] at h
  · simp [hs, value?] at h
  · simp [hs, value?] at h
  · exact hcolumn

theorem exists_of_ofText_explicit {t column operator v : Text}
    (h : ofText t = .explicit column operator v) :
    ∃ g g', IsName column ∧ IsGap g ∧ IsName operator ∧ IsGap g' ∧ FitsValue v ∧
      t = '#' :: column ++ (g ++ ('#' :: operator ++ (g' ++ v))) := by
  obtain ⟨name, g, rest, hname, hg, -, rfl, hcolumn⟩ := exists_afterColumn (v := v) (by rw [h]; rfl)
  rw [h] at hcolumn
  unfold afterColumn at hcolumn
  split at hcolumn
  · cases hcolumn
  · next op rest' _ htag =>
    split at hcolumn
    · next value hvalue =>
      cases hcolumn
      obtain ⟨hgap, hval⟩ := Option.filter_eq_some_iff.1 hvalue
      obtain ⟨rfl, ho, -⟩ := readTag?_eq_some_iff.1 htag
      obtain ⟨g', hg', rfl, hb⟩ := afterGap?_eq_some_iff.1 hgap
      exact ⟨g, g', hname, hg, ho, hg', fitsValue_of_isValue hb hval, rfl⟩
    · cases hcolumn
  · split at hcolumn
    · cases hcolumn
    · split at hcolumn <;> cases hcolumn

theorem exists_of_ofText_continued {t operator v : Text} (h : ofText t = .continued operator v) :
    ∃ g, IsName operator ∧ IsGap g ∧ FitsValue v ∧ t = '#' :: operator ++ (g ++ v) := by
  obtain ⟨name, g, rest, hname, hg, hb, rfl, hcolumn⟩ :=
    exists_afterColumn (v := v) (by rw [h]; rfl)
  rw [h] at hcolumn
  unfold afterColumn at hcolumn
  split at hcolumn
  · cases hcolumn
  · split at hcolumn <;> cases hcolumn
  · split at hcolumn
    · cases hcolumn
    · split at hcolumn
      · next hval =>
        cases hcolumn
        exact ⟨g, hname, hg, fitsValue_of_isValue hb hval, rfl⟩
      · cases hcolumn

theorem exists_of_ofText_tag {t name : Text} (h : ofText t = .tag name) :
    IsName name ∧ t = '#' :: name := by
  rcases ofText_cases t with (hs | hs) | ⟨name', hname, ht, hs⟩ | ⟨name', g, rest, -, -, -, -, hs⟩
  · cases hs.symm.trans h
  · cases hs.symm.trans h
  · cases hs.symm.trans h
    exact ⟨hname, ht⟩
  · rw [hs] at h
    unfold afterColumn at h
    split at h
    · cases h
    · split at h <;> cases h
    · split at h
      · cases h
      · split at h <;> cases h

theorem exists_of_ofText_named {t column operator : Text} (h : ofText t = .named column operator) :
    ∃ g, IsName column ∧ IsGap g ∧ IsName operator ∧
      t = '#' :: column ++ (g ++ '#' :: operator) := by
  rcases ofText_cases t with (hs | hs) | ⟨name, -, -, hs⟩ | ⟨name, g, rest, hname, hg, -, ht, hs⟩
  · cases hs.symm.trans h
  · cases hs.symm.trans h
  · cases hs.symm.trans h
  · rw [hs] at h
    unfold afterColumn at h
    split at h
    · next htag =>
      cases h
      obtain ⟨hrest, ho, -⟩ := readTag?_eq_some_iff.1 htag
      exact ⟨g, hname, hg, ho, by rw [ht, hrest, List.append_nil]⟩
    · split at h <;> cases h
    · split at h
      · cases h
      · split at h <;> cases h

/-! ## Fronts -/

/-- A text with a value is a front and the value. Whatever starts like a value behind that front
is the value of the same shape, or of none if it runs over several lines. -/
theorem exists_front {t v : Text} (h : (ofText t).value? = some v) :
    ∃ front, SolidStart front ∧ t = front ++ v ∧ FitsValue v ∧ ∀ v', ValueStart v' →
      ofText (front ++ v') = if '\n' ∈ v' then .other else (ofText t).withValue v' := by
  cases hs : ofText t with
  | explicit column operator value =>
    obtain rfl : value = v := by simpa [hs, value?] using h
    obtain ⟨g, g', hc, hg, ho, hg', hv, rfl⟩ := exists_of_ofText_explicit hs
    refine ⟨'#' :: column ++ (g ++ ('#' :: operator ++ g')), ⟨'#', _, rfl, by decide⟩,
      by simp only [List.append_assoc, List.cons_append], hv, fun v' hv' => ?_⟩
    simpa only [List.append_assoc, List.cons_append, withValue] using
      ofText_explicit_start hc hg ho hg' hv'
  | continued operator value =>
    obtain rfl : value = v := by simpa [hs, value?] using h
    obtain ⟨g, ho, hg, hv, rfl⟩ := exists_of_ofText_continued hs
    refine ⟨'#' :: operator ++ g, ⟨'#', _, rfl, by decide⟩,
      by simp only [List.append_assoc, List.cons_append], hv, fun v' hv' => ?_⟩
    simpa only [List.append_assoc, List.cons_append, withValue] using
      ofText_continued_start ho hg hv'
  | _ => simp [hs, value?] at h

end Segment

end HashtagSearch
