import HashtagSearch.ValueRange
import HashtagSearch.Proofs.Stripping
import HashtagSearch.Proofs.Text.Keywords

/-!
# Ranges of values in a text

The ends of a range are never empty, however it was written. Two plain texts with the
mark between them are read as a range with these two ends, in any search.
-/

namespace HashtagSearch

open Text

/-- A text that stands for itself where a value is read. -/
structure Text.Plain (t : Text) : Prop where
  ne_nil : t ≠ []
  trim_eq : trim t = t
  no_hash : '#' ∉ t
  one_line : '\n' ∉ t

instance (t : Text) : Decidable t.Plain :=
  decidable_of_iff (t ≠ [] ∧ trim t = t ∧ '#' ∉ t ∧ '\n' ∉ t)
    ⟨fun ⟨hne, htrim, hhash, hline⟩ => ⟨hne, htrim, hhash, hline⟩,
      fun h => ⟨h.ne_nil, h.trim_eq, h.no_hash, h.one_line⟩⟩

theorem Text.valueStart_of_no_hash {t : Text} (hne : t ≠ []) (htrim : trim t = t)
    (hhash : '#' ∉ t) : ValueStart t := by
  obtain ⟨c, r, rfl, hc⟩ := (solid_of_trim_eq hne htrim).1
  refine ⟨c, r, rfl, hc, ?_⟩
  rintro rfl
  exact hhash List.mem_cons_self

namespace Text.Plain

variable {t : Text}

theorem solid (h : Plain t) : SolidStart t ∧ SolidEnd t := solid_of_trim_eq h.ne_nil h.trim_eq

theorem valueStart (h : Plain t) : ValueStart t :=
  valueStart_of_no_hash h.ne_nil h.trim_eq h.no_hash

/-- A plain text ends with a character that belongs to no mark. -/
theorem exists_last (h : Plain t) : ∃ r c, t = r ++ [c] ∧ isBlank c = false ∧ c ≠ '#' := by
  obtain ⟨r, c, rfl, hc⟩ := h.solid.2
  refine ⟨r, c, rfl, hc, ?_⟩
  rintro rfl
  exact h.no_hash (by simp)

theorem fitsValue (h : Plain t) : Segment.FitsValue t := ⟨h.valueStart, h.one_line⟩

theorem not_suffix (h : Plain t) {e : Text} (he : Confirmation.IsMark e) (s : Text) :
    ¬ e <:+ s ++ t := by
  obtain ⟨r, c, rfl, -, hc⟩ := h.exists_last
  rw [← List.append_assoc]
  exact he.not_suffix hc (s ++ r)

/-- A plain text at the end keeps what stands in front of it from being trimmed or taken for a
mark. -/
theorem trim_append (h : Plain t) (s : Text) : trim (s ++ t) = trimStart s ++ t := by
  rw [trim, trimStart_append_of_solidStart h.solid.1, trimEnd_of_solidEnd (h.solid.2.append _)]

theorem strip_append (h : Plain t) (s : Text) : Confirmation.strip (s ++ t) = trimStart s ++ t := by
  rw [Confirmation.strip, h.trim_append,
    Confirmation.dropEnding_of_not_suffix (h.not_suffix (.inl rfl) _),
    Confirmation.dropEnding_of_not_suffix (h.not_suffix (.inr rfl) _)]

theorem strip_eq (h : Plain t) : Confirmation.strip t = t := h.strip_append []

theorem trimEnd_append_space (h : Plain t) : trimEnd (t ++ [' ']) = t := by
  rw [trimEnd_append_of_allBlank t allBlank_space, trimEnd_of_solidEnd h.solid.2]

end Text.Plain

namespace ValueRange

/-! ## Ends -/

theorem ends_ne_nil_of_ofEnds? {ends : Text × Text} {r : ValueRange} (h : ofEnds? ends = some r) :
    r.low ≠ [] ∧ r.high ≠ [] := by
  unfold ofEnds? at h
  split at h
  · cases h
  · next hne =>
    cases h
    simpa using hne

theorem ends_ne_nil {t : Text} {confirmed : Bool} {r : ValueRange}
    (h : read? t confirmed = some r) : r.low ≠ [] ∧ r.high ≠ [] := by
  unfold read? at h
  rcases Option.or_eq_some_iff.1 h with h | ⟨-, h⟩
  · obtain ⟨ends, -, h⟩ := Option.bind_eq_some_iff.1 h
    exact ends_ne_nil_of_ofEnds? h
  · split at h
    · obtain ⟨ends, -, h⟩ := Option.bind_eq_some_iff.1 h
      exact ends_ne_nil_of_ofEnds? h
    · cases h

theorem openEnd_ne_nil {t low : Text} (h : openEnd? t = some low) : low ≠ [] := by
  unfold openEnd? at h
  split at h
  · dsimp only at h
    split at h
    · cases h
    · next hne =>
      cases h
      intro hnil
      simp [hnil] at hne
  · cases h

/-! ## Writing -/

def display (r : ValueRange) : Text := r.low ++ (" #to ".toList ++ r.high)

variable {v w : Text}

theorem splitAtMark?_append {s : Text} (hs : '#' ∉ s) (before t : Text) :
    splitAtMark? before (s ++ t) = splitAtMark? (before ++ s) t := by
  induction s generalizing before with
  | nil => simp
  | cons c s ih =>
    have hc : c ≠ '#' := fun hc => hs (hc ▸ List.mem_cons_self)
    have hmark : afterMark? (c :: (s ++ t)) = none := by
      rw [afterMark?, show "#to".toList = '#' :: ['t', 'o'] from rfl, dropWord?_of_head_ne hc]
    rw [List.cons_append, splitAtMark?, hmark, Option.filter_none]
    simp only
    rw [ih (fun h => hs (List.mem_cons_of_mem c h)), List.append_assoc, List.singleton_append]

theorem splitAtMark?_of_no_hash (h : '#' ∉ v) : splitAtMark? [] v = none := by
  have hend := splitAtMark?_append h [] []
  rw [List.append_nil] at hend
  rw [hend]
  rfl

theorem read?_of_no_hash (h : '#' ∉ v) : read? v false = none := by
  rw [read?, splitAtMark?_of_no_hash fun hx => h (mem_of_mem_trim hx)]
  rfl

theorem openEnd?_of_no_hash (h : '#' ∉ v) : openEnd? v = none := by
  unfold openEnd?
  split
  · next before hdrop =>
    obtain ⟨m, hm, hlower⟩ := dropWord?_eq_some hdrop
    match m with
    | [] => simp at hlower
    | [_] => simp at hlower
    | [_, _] => simp at hlower
    | x :: y :: z :: m =>
      have hz : z = '#' :=
        toLower_eq_hash (List.cons.inj (List.cons.inj (List.cons.inj hlower).2).2).1.symm
      have hmem : z ∈ (trim v).reverse := by simp [hm]
      exact absurd (mem_of_mem_trim (List.mem_reverse.1 hmem)) (hz ▸ h)
  · rfl

theorem fitsValue_display (hv : Plain v) (hw : Plain w) : Segment.FitsValue (display ⟨v, w⟩) := by
  obtain ⟨x, r, hx, hblank, hne⟩ := hv.valueStart
  refine ⟨⟨x, r ++ (" #to ".toList ++ w), by simp [display, hx], hblank, hne⟩, ?_⟩
  simp [display, hv.one_line, hw.one_line]

/-- The mark between the ends is the only tag in a range. -/
theorem holdsTag_display (hv : Plain v) (hw : Plain w) :
    Confirmation.holdsTag (display ⟨v, w⟩) true = false := by
  have hsplit : display ⟨v, w⟩ = v ++ ' ' :: ("#to".toList ++ ' ' :: w) := rfl
  have hmark : Confirmation.holdsTag "#to".toList true = false := by decide
  rw [hsplit, Confirmation.holdsTag_append_blank (by decide),
    Confirmation.holdsTag_append_blank (by decide), Confirmation.holdsTag_of_no_hash hv.no_hash,
    Confirmation.holdsTag_of_no_hash hw.no_hash, hmark]
  rfl

theorem trim_display (hv : Plain v) (hw : Plain w) : trim (display ⟨v, w⟩) = display ⟨v, w⟩ :=
  trim_of_solid (hv.solid.1.append _) ((hw.solid.2.append _).append _)

theorem splitAtMark?_mark {t : Text} (hv : Plain v) (hblank : t.head?.all isBlank = true)
    (hline : '\n' ∉ trimStart t) :
    splitAtMark? [] (v ++ (" #to".toList ++ t)) = some (v ++ [' '], t) := by
  have hsplit : v ++ (" #to".toList ++ t) = (v ++ [' ']) ++ ('#' :: 't' :: 'o' :: t) := by simp
  have hlow : '#' ∉ v ++ [' '] := by simpa using hv.no_hash
  have hmark : afterMark? ('#' :: 't' :: 'o' :: t) = some t := if_pos hblank
  have hboth : onOneLine (v ++ [' ']) t = true := by
    simp [onOneLine, hv.trimEnd_append_space, hv.one_line, hline]
  rw [hsplit, splitAtMark?_append hlow, splitAtMark?, hmark]
  simp [Option.filter, hboth]

theorem splitAtMark?_display (hv : Plain v) (hw : Plain w) :
    splitAtMark? [] (display ⟨v, w⟩) = some (v ++ [' '], ' ' :: w) := by
  have hhigh : '\n' ∉ trimStart (' ' :: w) := by
    rw [← List.singleton_append, trimStart_append_of_allBlank allBlank_space,
      trimStart_of_solidStart hw.solid.1]
    exact hw.one_line
  exact splitAtMark?_mark hv rfl hhigh

theorem read?_display (hv : Plain v) (hw : Plain w) (confirmed : Bool) :
    read? (display ⟨v, w⟩) confirmed = some ⟨v, w⟩ := by
  have hlow : trim (v ++ [' ']) = v := by
    rw [trim_of_solidStart (hv.solid.1.append _), hv.trimEnd_append_space]
  have hhigh : trim (' ' :: w) = w := by
    rw [← List.singleton_append, trim_append_of_allBlank allBlank_space, hw.trim_eq]
  rw [read?, trim_display hv hw, splitAtMark?_display hv hw, Option.bind_some, ofEnds?]
  simp [hlow, hhigh, hv.ne_nil, hw.ne_nil]

end ValueRange

end HashtagSearch
