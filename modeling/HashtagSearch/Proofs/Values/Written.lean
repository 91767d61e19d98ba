import HashtagSearch.Proofs.Values.Typed

/-!
# How a text writes a range

A range is read from a text that consists of its two ends and one separator between them, with
blanks around it. Nothing else is dropped. Two plain texts with a mark between them are such a
text in any search, and two with a hyphen in a confirmed one.
-/

namespace HashtagSearch

open Text

namespace ValueRange

variable {confirmed : Bool} {r : ValueRange} {t v w : Text}

/-- The trimmed text of a range. Behind a mark there is a blank, and the ends at a mark run over
one line each. The hyphen is the first one behind the first character. -/
inductive Written (confirmed : Bool) (r : ValueRange) : Text → Prop
  | mark {gap mark gap' : Text} : AllBlank gap → sameIgnoringCase mark "#to".toList = true →
      gap' ≠ [] → AllBlank gap' → '\n' ∉ r.low → '\n' ∉ r.high →
      Written confirmed r (r.low ++ (gap ++ (mark ++ (gap' ++ r.high))))
  | hyphen {gap gap' : Text} : confirmed = true → AllBlank gap → AllBlank gap' →
      '-' ∉ r.low.tail → Written confirmed r (r.low ++ (gap ++ ('-' :: (gap' ++ r.high))))

/-! ## Reading -/

/-- Around the separator a trimmed text has the ends of a range and the blanks that are trimmed
from them. -/
theorem exists_gaps {low m high : Text} (h : trim t = low ++ (m ++ high)) :
    ∃ gap gap', AllBlank gap ∧ AllBlank gap' ∧ low = trim low ++ gap ∧ high = gap' ++ trim high := by
  obtain ⟨gap, hgap, hlow⟩ := exists_trimEnd_append low
  refine ⟨gap, high.takeWhile isBlank, hgap, allBlank_takeWhile high, ?_, ?_⟩
  · rw [← trimEnd_of_front h, hlow]
  · rw [← List.append_assoc] at h
    rw [← trimStart_of_back h, trimStart, List.takeWhile_append_dropWhile]

theorem written_of_mark {low high : Text} (h : splitAtMark? [] (trim t) = some (low, high))
    (hhigh : trim high ≠ []) : Written confirmed ⟨trim low, trim high⟩ (trim t) := by
  obtain ⟨m, hspelled, hsplit, hblank, hline⟩ := splitAtMark?_eq_some h
  rw [List.nil_append, List.append_assoc] at hsplit
  obtain ⟨gap, gap', hgap, hgap', hlow, hrest⟩ := exists_gaps hsplit
  have hne : gap' ≠ [] := by
    rintro rfl
    obtain ⟨c, r, hc, hsolid⟩ := (solid_of_trim_eq hhigh (trim_trim high)).1
    rw [List.nil_append] at hrest
    have hhead : isBlank c = true := hblank c (by rw [hrest, hc]; rfl)
    rw [hhead] at hsolid
    cases hsolid
  have hlines : '\n' ∉ trim low ∧ '\n' ∉ trim high := by
    rw [← trimEnd_of_front hsplit, ← trimStart_of_back (List.append_assoc _ _ _ ▸ hsplit)]
    simpa [onOneLine] using hline
  rw [hsplit]
  conv => arg 3; rw [hlow, hrest, List.append_assoc]
  exact .mark hgap hspelled hne hgap' hlines.1 hlines.2

theorem written_of_hyphen {low high : Text} (h : splitAtHyphen? (trim t) = some (low, high))
    (hlow : trim low ≠ []) : Written true ⟨trim low, trim high⟩ (trim t) := by
  have hsplit : trim t = low ++ (['-'] ++ high) := splitAtHyphen?_eq_some h
  obtain ⟨gap, gap', hgap, hgap', hfront, hrest⟩ := exists_gaps hsplit
  have hfirst : '-' ∉ (trim low).tail := by
    intro hmem
    apply not_mem_tail_of_splitAtHyphen? h
    rw [hfront, List.tail_append_of_ne_nil hlow]
    exact List.mem_append_left gap hmem
  rw [hsplit]
  conv => arg 3; rw [hfront, hrest, List.append_assoc]
  exact .hyphen rfl hgap hgap' hfirst

theorem written_of_read? (h : read? t confirmed = some r) : Written confirmed r (trim t) := by
  obtain ⟨hlow, hhigh⟩ := ends_ne_nil h
  obtain ⟨low, high, hsplit, hends⟩ := exists_split h
  obtain rfl := eq_trim_of_ofEnds? hends
  rcases hsplit with hsplit | ⟨rfl, hsplit⟩
  · exact written_of_mark hsplit hhigh
  · exact written_of_hyphen hsplit hlow

theorem filled_of_read? (h : read? t confirmed = some r) : Filled r.low ∧ Filled r.high := by
  obtain ⟨hlow, hhigh⟩ := ends_ne_nil h
  obtain ⟨low, high, -, rfl⟩ := exists_cut h
  exact ⟨filled_trim hlow, filled_trim hhigh⟩

/-! ## Writing with a hyphen -/

theorem no_hash_hyphen (hv : Plain v) (hw : Plain w) : '#' ∉ v ++ '-' :: w := by
  simp [hv.no_hash, hw.no_hash]

theorem read?_hyphen (hv : Plain v) (hw : Plain w) (h : '-' ∉ v.tail) :
    read? (v ++ '-' :: w) true = some ⟨v, w⟩ := by
  have htrim : trim (v ++ '-' :: w) = v ++ '-' :: w :=
    trim_of_solid (hv.solid.1.append _) ((hw.solid.2.append ['-']).append v)
  rw [read?, htrim, splitAtMark?_of_no_hash (no_hash_hyphen hv hw), if_pos rfl,
    splitAtHyphen?_append hv.ne_nil h]
  simp [ofEnds?, hv.trim_eq, hw.trim_eq, hv.ne_nil, hw.ne_nil]

/-- A text is split once into the ends of a range, and nothing but blanks and the separator is
lost; plain ends are read back from what is written with a mark or a hyphen. -/
theorem read?_lossless :
    (∀ t confirmed r, read? t confirmed = some r →
      Filled r.low ∧ Filled r.high ∧ Written confirmed r (trim t)) ∧
    ∀ v w : Text, Plain v → Plain w →
      (∀ confirmed, read? (v ++ (" #to ".toList ++ w)) confirmed = some ⟨v, w⟩) ∧
      ('-' ∉ v.tail → read? (v ++ '-' :: w) true = some ⟨v, w⟩ ∧
        read? (v ++ '-' :: w) false = none) := by
  constructor
  · intro t confirmed r h
    obtain ⟨hlow, hhigh⟩ := filled_of_read? h
    exact ⟨hlow, hhigh, written_of_read? h⟩
  · intro v w hv hw
    refine ⟨read?_display hv hw, fun h => ⟨read?_hyphen hv hw h, ?_⟩⟩
    exact read?_of_no_hash (no_hash_hyphen hv hw)

/-- A sign is no separator, and the letters of a mark may be capital ones. -/
theorem read?_lossless_sign :
    Written true ⟨"-5".toList, "7".toList⟩ (trim " -5 #TO\t7 ".toList) ∧
      read? "-5 #to 7".toList false = some ⟨"-5".toList, "7".toList⟩ ∧
      read? "-5-7".toList true = some ⟨"-5".toList, "7".toList⟩ ∧
      read? "-5-7".toList false = none := by
  have hlow : Plain "-5".toList := by decide
  have hhigh : Plain "7".toList := by decide
  have hread : read? " -5 #TO\t7 ".toList true = some ⟨"-5".toList, "7".toList⟩ := by decide
  obtain ⟨hsound, hcomplete⟩ := read?_lossless
  obtain ⟨hmark, hhyphen⟩ := hcomplete _ _ hlow hhigh
  exact ⟨(hsound _ _ _ hread).2.2, hmark false, hhyphen (by decide)⟩

end ValueRange

end HashtagSearch
