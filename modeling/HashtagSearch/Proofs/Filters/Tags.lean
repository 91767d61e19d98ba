import HashtagSearch.Proofs.Filters.Sources

/-!
# Words with a `#` in a value

Before a condition is built its value is checked for words with a `#` in front, and a range
is cut out of it only then. A cut behind a hyphen can lay such a word bare, the shorthand is
not checked at all, and a tree may keep a `#` that stands alone. There is no other way.
-/

namespace HashtagSearch

open Text

/-- A word of a value that looks like a tag being typed. -/
def Text.TagIn (v w : Text) : Prop := w ∈ words v ∧ w.head? = some '#'

theorem Text.tagIn_trim {v w : Text} : TagIn (trim v) w ↔ TagIn v w := by
  rw [TagIn, words_trim, TagIn]

theorem Text.LooseHashes.eq_of_tagIn {v w : Text} (h : LooseHashes v) (hw : TagIn v w) :
    w = ['#'] := by
  obtain ⟨hmem, hhead⟩ := hw
  obtain ⟨hpart, hsolid⟩ := infix_of_mem_words hmem
  match w with
  | [] => cases hhead
  | [c] => rw [Option.some.inj hhead]
  | c :: d :: r =>
    obtain rfl := Option.some.inj hhead
    have hblank : isBlank d = true := h d ((List.prefix_append ['#', d] r).isInfix.trans hpart)
    rw [hsolid d (by simp)] at hblank
    cases hblank

namespace Confirmation

variable {v w : Text} {inRange : Bool}

/-- The word is the mark of a range, in an operator that takes one. -/
def IsRangeMark (inRange : Bool) (w : Text) : Prop :=
  inRange = true ∧ sameIgnoringCase w "#to".toList = true

theorem isRangeMark_of_tagIn (h : holdsTag v inRange = false) (hw : TagIn v w) :
    IsRangeMark inRange w := by
  obtain ⟨hmem, hhead⟩ := hw
  have hno := List.any_eq_false.1 h w hmem
  simpa [hhead, IsRangeMark] using hno

theorem not_isRangeMark_append {c : Char} (hc : c = '#' ∨ c = '-') (hhead : w.head? = some '#')
    (r : Text) : ¬ IsRangeMark inRange (w ++ c :: r) := by
  rintro ⟨-, hsame⟩
  obtain ⟨w, rfl⟩ : ∃ w', w = '#' :: w' := List.head?_eq_some_iff.1 hhead
  have hrest : (w ++ c :: r).map Char.toLower = ['t', 'o'] := by
    simpa [sameIgnoringCase] using hsame
  have hmem : c.toLower ∈ ['t', 'o'] := by
    rw [← hrest]
    exact List.mem_map_of_mem (List.mem_append_right w List.mem_cons_self)
  rcases hc with rfl | rfl <;> exact absurd hmem (by decide)

/-- A tag in the front of a value is one in the value, if a mark or a hyphen follows. -/
theorem isRangeMark_of_front {s r : Text} {c : Char} (hc : c = '#' ∨ c = '-')
    (h : holdsTag (s ++ c :: r) inRange = false) (hw : TagIn s w) : IsRangeMark inRange w := by
  obtain ⟨hmem, hhead⟩ := hw
  have hsolid : isBlank c = false := by rcases hc with rfl | rfl <;> decide
  rcases mem_words_of_front (t := r) hsolid hmem with hmem | ⟨r', hmem⟩
  · exact isRangeMark_of_tagIn h ⟨hmem, hhead⟩
  · have hlong : TagIn (s ++ c :: r) (w ++ c :: r') := ⟨hmem, by simp [hhead]⟩
    exact absurd (isRangeMark_of_tagIn h hlong) (not_isRangeMark_append hc hhead r')

theorem isRangeMark_of_rest {s r : Text} (hb : ∀ c ∈ r.head?, isBlank c = true)
    (h : holdsTag (s ++ r) inRange = false) (hw : TagIn r w) : IsRangeMark inRange w := by
  cases r with
  | nil => exact absurd hw.1 (by simp [words])
  | cons b r =>
    have hblank : isBlank b = true := hb b rfl
    refine isRangeMark_of_tagIn h ⟨?_, hw.2⟩
    rw [words_append_blank hblank]
    exact List.mem_append_right _ (words_cons_of_blank hblank r ▸ hw.1)

end Confirmation

namespace Condition

variable {catalog : Catalog} {defaultColumn : Option Column} {c : Condition} {t v w : Text}

/-- The word begins the high end of a range, and in `t` a hyphen stands right before it. -/
def LaidBare (c : Condition) (t v w : Text) : Prop :=
  c.operator = .inRange ∧ c.valueTo = some v ∧ (words v).head? = some w ∧ '-' :: w <:+: t

/-- The first word of what follows a hyphen was a part of a longer word before. -/
theorem isRangeMark_or_bare {s r : Text} {inRange : Bool}
    (h : Confirmation.holdsTag (s ++ '-' :: r) inRange = false) (hw : TagIn r w) :
    Confirmation.IsRangeMark inRange w ∨
      (words r).head? = some w ∧ '-' :: w <:+: s ++ '-' :: r := by
  have hsplit : s ++ '-' :: r = (s ++ ['-']) ++ r := by simp
  cases r with
  | nil => exact absurd hw.1 (by simp [words])
  | cons d r =>
    cases hd : isBlank d with
    | true =>
      rw [hsplit] at h
      exact .inl (Confirmation.isRangeMark_of_rest (by simpa using hd) h hw)
    | false =>
      obtain ⟨x, ws, hx⟩ := exists_words_cons hd r
      obtain ⟨hmem, hhead⟩ := hw
      rw [hx] at hmem
      rcases List.mem_cons.1 hmem with rfl | hmem
      · refine .inr ⟨by rw [hx]; rfl, ?_⟩
        have hfirst : '-' :: d :: x <+: '-' :: d :: r :=
          (List.prefix_cons_inj '-').2 (prefix_of_words_eq_cons hd hx)
        exact hfirst.isInfix.trans (List.suffix_append s _).isInfix
      · refine .inl (Confirmation.isRangeMark_of_tagIn h ⟨?_, hhead⟩)
        rw [hsplit]
        exact mem_words_of_rest _ (by rw [hx]; exact hmem)

theorem Read.tag_cases {column : Column} {operator : Operator} {y : Text}
    (h : Read column operator y c) (htrim : trim y = y)
    (htag : Confirmation.holdsTag y operator.isRange = false)
    (hv : v = c.value ∨ c.valueTo = some v) (hw : TagIn v w) :
    Confirmation.IsRangeMark operator.isRange w ∨ c.LaidBare y v w := by
  cases h with
  | whole _ =>
    rcases hv with rfl | ⟨⟨⟩⟩
    exact .inl (Confirmation.isRangeMark_of_tagIn htag hw)
  | range ho hr =>
    obtain ⟨low, high, hcut, rfl⟩ := ValueRange.exists_cut hr
    rw [htrim] at hcut
    cases hcut with
    | mark hy hblank =>
      rcases hv with rfl | ⟨⟨⟩⟩
      · rw [hy, List.append_assoc, List.cons_append] at htag
        exact .inl (Confirmation.isRangeMark_of_front (.inl rfl) htag (tagIn_trim.1 hw))
      · rw [hy] at htag
        exact .inl (Confirmation.isRangeMark_of_rest hblank htag (tagIn_trim.1 hw))
    | hyphen hy =>
      rw [hy] at htag
      rcases hv with rfl | ⟨⟨⟩⟩
      · exact .inl (Confirmation.isRangeMark_of_front (.inr rfl) htag (tagIn_trim.1 hw))
      · refine (isRangeMark_or_bare htag (tagIn_trim.1 hw)).imp_right fun ⟨hhead, hpart⟩ => ?_
        exact ⟨ho, rfl, by rwa [words_trim], hy ▸ hpart⟩
  | opened _ hr =>
    obtain ⟨before, m, hy, rfl⟩ := ValueRange.openEnd?_eq_some hr
    rw [htrim] at hy
    rw [hy] at htag
    rcases hv with rfl | ⟨⟨⟩⟩
    exact .inl (Confirmation.isRangeMark_of_front (.inl rfl) htag (tagIn_trim.1 hw))

/-- A condition that was typed keeps no tag but the mark of a range and what a hyphen lays
bare. -/
theorem Typed.tag_cases (h : c.Typed catalog defaultColumn t)
    (hv : v = c.value ∨ c.valueTo = some v) (hw : TagIn v w) :
    Confirmation.IsRangeMark c.operator.isRange w ∨ c.LaidBare t v w := by
  obtain ⟨-, -, y, hy, htrim, htag, hread⟩ := h
  refine (hread.tag_cases htrim htag hv hw).imp_right fun ⟨ho, hto, hhead, hpart⟩ => ?_
  exact ⟨ho, hto, hhead, hpart.trans hy⟩

end Condition

namespace Outcome

variable {catalog : Catalog} {defaultColumn : Option Column} {f : Filter} {c : Condition}
  {t v w : Text}

/-- A word with a `#` in front is in a value of a filter in one of four cases only: as `#to`
in a range, in the shorthand, as a lone `#` in a tree, or behind the hyphen of a range. -/
theorem filter?_tag_cases (h : (ofText catalog defaultColumn t).filter? = some f)
    (hc : c ∈ f.leaves) (hv : v = c.value ∨ c.valueTo = some v) (hw : w ∈ words v)
    (hhash : w.head? = some '#') :
    (c.operator = .inRange ∧ sameIgnoringCase w "#to".toList = true) ∨
      f.isExplicitOperator = false ∨ (f.group.isSome = true ∧ w = ['#']) ∨
      (c.operator = .inRange ∧ c.valueTo = some v ∧ (words v).head? = some w ∧
        '-' :: w <:+: t) := by
  have htyped {d : Option Column} (hc : c.Typed catalog d t) :
      (c.operator = .inRange ∧ sameIgnoringCase w "#to".toList = true) ∨ c.LaidBare t v w :=
    (hc.tag_cases hv ⟨hw, hhash⟩).imp_left fun ⟨ho, hsame⟩ => ⟨Operator.isRange_iff.1 ho, hsame⟩
  cases source_of_filter? h with
  | @grouped g _ hg hf =>
    obtain ⟨first, -, rfl⟩ := Option.map_eq_some_iff.1 hf
    have hplaced := hg.wellPlaced hc
    have hloose : LooseHashes v := by
      rcases hv with rfl | hv
      · exact hplaced.value_loose
      · exact hplaced.valueTo_loose v hv
    exact .inr (.inr (.inl ⟨rfl, hloose.eq_of_tagIn ⟨hw, hhash⟩⟩))
  | joined hr hf =>
    cases hf
    exact (htyped (hr c hc)).imp_right fun hbare => .inr (.inr hbare)
  | single hd =>
    obtain rfl : c = _ := List.mem_singleton.1 hc
    exact (htyped hd).imp_right fun hbare => .inr (.inr hbare)
  | shorthand _ => exact .inr (.inl rfl)

/-- Behind a hyphen the word that was typed with it becomes a tag. -/
theorem filter?_tag_cases_hyphen : ∃ f c,
    (ofText [⟨"price".toList, [], true, .number⟩] none "#price #inRange 5-#gt##".toList).filter? =
      some f ∧
    c ∈ f.leaves ∧ c.valueTo = some "#gt".toList ∧ "#gt".toList ∈ words "#gt".toList ∧
    ((c.operator = .inRange ∧ sameIgnoringCase "#gt".toList "#to".toList = true) ∨
      f.isExplicitOperator = false ∨ (f.group.isSome = true ∧ "#gt".toList = ['#']) ∨
      (c.operator = .inRange ∧ c.valueTo = some "#gt".toList ∧
        (words "#gt".toList).head? = some "#gt".toList ∧
        '-' :: "#gt".toList <:+: "#price #inRange 5-#gt##".toList)) := by
  have hleaves : ((ofText [⟨"price".toList, [], true, .number⟩] none
      "#price #inRange 5-#gt##".toList).filter?.map Filter.leaves) =
      some [.on ⟨"price".toList, [], true, .number⟩ .inRange ['5'] (some "#gt".toList)] := by
    decide +kernel
  obtain ⟨f, hf, hl⟩ := Option.map_eq_some_iff.1 hleaves
  have hc : Condition.on ⟨"price".toList, [], true, .number⟩ .inRange ['5'] (some "#gt".toList) ∈
      f.leaves := by simp [hl]
  have hw : "#gt".toList ∈ words "#gt".toList := by decide
  exact ⟨f, _, hf, hc, rfl, hw, filter?_tag_cases hf hc (.inr rfl) hw rfl⟩

/-- The shorthand takes a tag into its value, although its operator takes one text only. -/
theorem exists_tag_of_shorthand : ∃ f c w,
    (ofText [⟨"name".toList, [], true, .text⟩] none "#name:#asp".toList).filter? = some f ∧
    c ∈ f.leaves ∧ w ∈ words c.value ∧ w.head? = some '#' ∧ c.operator ≠ .inRange := by
  have hleaves : ((ofText [⟨"name".toList, [], true, .text⟩] none
      "#name:#asp".toList).filter?.map Filter.leaves) =
      some [.on ⟨"name".toList, [], true, .text⟩ .contains "#asp".toList] := by decide +kernel
  obtain ⟨f, hf, hl⟩ := Option.map_eq_some_iff.1 hleaves
  exact ⟨f, _, "#asp".toList, hf, by rw [hl]; exact List.mem_singleton_self _, by decide, rfl,
    by decide⟩

end Outcome

end HashtagSearch
