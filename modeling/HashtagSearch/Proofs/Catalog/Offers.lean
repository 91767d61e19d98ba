import HashtagSearch.Column
import HashtagSearch.Proofs.Text.WordEnds

/-!
# What is named is offered

A typed name is looked up in small letters as a whole text, and what is offered for it is found
by the small letters of its characters. The two agree unless a sigma ends a word of the typed
name. Operators have no sigma in their names.
-/

namespace HashtagSearch

open Text

theorem Text.squash_of_allBlank {t : Text} (h : AllBlank t) : squash t = [] := by
  rw [squash, List.filter_eq_nil_iff.2 fun c hc => by simp [h c hc]]
  rfl

theorem Text.squash_trim (t : Text) : squash (trim t) = squash t := by
  obtain ⟨trail, htrail, hsplit⟩ := exists_trim_split t
  conv_rhs => rw [hsplit]
  rw [squash_append, squash_append, squash_of_allBlank (allBlank_takeWhile t),
    squash_of_allBlank htrail, List.append_nil, List.nil_append]

namespace Naming

variable {α : Type} {names : α → List Text} {items items' : List α} {form : Text → Text}
  {typed wanted : Text} {a : α}

theorem mem_suggestions_iff : a ∈ suggestions names items typed ↔
    a ∈ items ∧ ∃ name ∈ names a, squash typed <+: squash name := by
  simp [suggestions]

theorem exists_name_of_findBy (h : findBy form names items wanted = some a) :
    ∃ name ∈ names a, form name = wanted := by
  unfold findBy at h
  split at h
  · cases h
  · simpa using List.find?_some h

/-- What is named has a name that agrees with what is typed in one of the two forms. -/
theorem exists_name_of_resolve? (h : resolve? names items typed = some a) :
    ∃ name ∈ names a, lower name = lower (trim typed) ∨
      squash name = squash (lower (trim typed)) := by
  simp only [resolve?, Option.or_eq_some_iff] at h
  obtain h | ⟨-, h⟩ := h
  · obtain ⟨name, hname, heq⟩ := exists_name_of_findBy h
    exact ⟨name, hname, .inl heq⟩
  · obtain ⟨name, hname, heq⟩ := exists_name_of_findBy h
    exact ⟨name, hname, .inr heq⟩

theorem mem_suggestions_of_resolve? (h : resolve? names items typed = some a)
    (hsigma : endsWordInSigma [] (trim typed) = false) (ha : a ∈ items') :
    a ∈ suggestions names items' typed := by
  obtain ⟨name, hname, heq⟩ := exists_name_of_resolve? h
  have hsquash : squash name = squash typed := by
    rw [← squash_trim typed]
    obtain heq | heq := heq
    · exact squash_eq_of_lower_eq heq hsigma
    · rw [heq, squash_lower hsigma]
  exact mem_suggestions_iff.2 ⟨ha, name, hname, hsquash ▸ List.prefix_rfl⟩

theorem resolve?_singleton {name : Text} (hname : name ∈ names a) (hne : trim typed ≠ [])
    (h : lower name = lower (trim typed)) : resolve? names [a] typed = some a := by
  have hfound : findBy lower names [a] (lower (trim typed)) = some a := by
    rw [findBy, if_neg (by simpa using lower_ne_nil hne), List.find?_cons_of_pos]
    exact List.any_eq_true.2 ⟨name, hname, by simpa using h⟩
  rw [resolve?, hfound, Option.some_or]

end Naming

namespace Operator

variable {type : ValueType} {typed : Text} {o : Operator}

theorem final_not_mem_names (o : Operator) :
    ∀ name ∈ o.names, 'ς' ∉ lower name ∧ 'ς' ∉ squash name := by
  cases o <;> decide +kernel

theorem endsWordInSigma_of_resolve? (h : resolve? type typed = some o) :
    endsWordInSigma [] (trim typed) = false := by
  refine Bool.eq_false_of_not_eq_true fun hsigma => ?_
  have hfinal : 'ς' ∈ lower (trim typed) := final_mem_lowerAfter hsigma
  obtain ⟨name, hname, heq⟩ := Naming.exists_name_of_resolve? h
  obtain ⟨hlower, hsquash⟩ := final_not_mem_names o name hname
  obtain heq | heq := heq
  · exact hlower (heq ▸ hfinal)
  · refine hsquash (heq ▸ mem_squash_of_mem ?_ hfinal)
    rw [squash_sigma.2]
    exact List.mem_singleton_self _

end Operator

namespace Catalog

variable {catalog : Catalog} {typed : Text} {c : Column}

theorem suggestions_of_no_hash (hhash : '#' ∉ typed) : catalog.suggestions typed =
    Naming.suggestions Column.names (catalog.filter (·.searchable)) typed := by
  have hplain : typed.dropWhile (· == '#') = typed := by
    cases typed with
    | nil => rfl
    | cons x typed =>
      exact List.dropWhile_cons_of_neg (by simpa using fun hx => hhash (by simp [hx]))
  rw [suggestions, hplain]

theorem mem_suggestions_of_resolve? (h : catalog.resolve? typed = some c)
    (hsearchable : c.searchable = true) (hhash : '#' ∉ typed)
    (hsigma : endsWordInSigma [] (trim typed) = false) : c ∈ catalog.suggestions typed := by
  rw [suggestions_of_no_hash hhash]
  refine Naming.mem_suggestions_of_resolve? h hsigma ?_
  exact List.mem_filter.2 ⟨mem_of_resolve? h, hsearchable⟩

/-- A text with a sigma at the end of a word names a column of a faultless catalog that is not
offered for it. -/
theorem exists_hidden (hhash : '#' ∉ typed) (hsigma : endsWordInSigma [] (trim typed) = true) :
    ∃ (catalog : Catalog) (c : Column), catalog.check = none ∧ c.searchable = true ∧
      catalog.resolve? typed = some c ∧ c ∉ catalog.suggestions typed := by
  obtain ⟨name, hlower, hother⟩ := exists_same_lower hsigma
  have hne : trim typed ≠ [] := by
    intro hnil
    rw [hnil] at hsigma
    cases hsigma
  have hnamed : name ∈ (⟨"name".toList, name, true, .text⟩ : Column).names := by
    simp [Column.names]
  refine ⟨[⟨"name".toList, name, true, .text⟩], _, rfl, rfl,
    Naming.resolve?_singleton hnamed hne hlower, ?_⟩
  rw [suggestions_of_no_hash hhash, Naming.mem_suggestions_iff, ← squash_trim typed]
  rintro ⟨-, other, hmem, hstart⟩
  simp only [Column.names, List.mem_cons, List.not_mem_nil, or_false] at hmem
  obtain rfl | rfl := hmem
  -- There is no sigma in the field either.
  · obtain ⟨x, hx, hletter⟩ := exists_small_sigma hsigma
    have hfield : 'σ' ∉ squash "name".toList ∧ 'ς' ∉ squash "name".toList := by decide +kernel
    have hx := hstart.subset hx
    obtain rfl | rfl := hletter
    · exact hfield.1 hx
    · exact hfield.2 hx
  · exact hother hstart

/-- Every column that can be searched is offered for a text that names it, if no sigma ends a word
of the text; for any other text a faultless catalog has a column that is not. Every operator is
offered for a text that names it. -/
theorem offers_named (typed : Text) :
    ('#' ∉ typed →
      (endsWordInSigma [] (trim typed) = false → ∀ (catalog : Catalog) (c : Column),
        catalog.resolve? typed = some c → c.searchable = true → c ∈ catalog.suggestions typed) ∧
      (endsWordInSigma [] (trim typed) = true → ∃ (catalog : Catalog) (c : Column),
        catalog.check = none ∧ c.searchable = true ∧ catalog.resolve? typed = some c ∧
          c ∉ catalog.suggestions typed)) ∧
    ∀ (type : ValueType) (o : Operator), Operator.resolve? type typed = some o →
      o ∈ Operator.suggestions type typed := by
  constructor
  · intro hhash
    constructor
    · intro hsigma catalog c h hsearchable
      exact mem_suggestions_of_resolve? h hsearchable hhash hsigma
    · exact exists_hidden hhash
  · intro type o h
    exact Naming.mem_suggestions_of_resolve? h (Operator.endsWordInSigma_of_resolve? h)
      (Naming.mem_of_resolve? h)

/-- Sigmas inside a word and alone do no harm to a name, and one that ends a word does. -/
theorem offers_named_dose : ∃ (catalog : Catalog) (c : Column),
    catalog = [c] ∧ c = ⟨"dose".toList, "Δοση Σ".toList, true, .number⟩ ∧
    '#' ∉ " ΔΟΣΗ_Σ ".toList ∧ endsWordInSigma [] (trim " ΔΟΣΗ_Σ ".toList) = false ∧
    catalog.resolve? " ΔΟΣΗ_Σ ".toList = some c ∧ c.searchable = true ∧
    c ∈ catalog.suggestions " ΔΟΣΗ_Σ ".toList ∧
    ('#' ∉ "οδος".toList ∧ endsWordInSigma [] (trim "οδος".toList) = true ∧
      ∃ (catalog : Catalog) (c : Column), catalog.check = none ∧ c.searchable = true ∧
        catalog.resolve? "οδος".toList = some c ∧ c ∉ catalog.suggestions "οδος".toList) ∧
    Operator.resolve? .number "Greater-Than".toList = some .greaterThan ∧
    .greaterThan ∈ Operator.suggestions .number "Greater-Than".toList := by
  have hdose : '#' ∉ " ΔΟΣΗ_Σ ".toList ∧
      endsWordInSigma [] (trim " ΔΟΣΗ_Σ ".toList) = false := by decide +kernel
  have hstreet : '#' ∉ "οδος".toList ∧ endsWordInSigma [] (trim "οδος".toList) = true := by
    decide +kernel
  have hresolve : Catalog.resolve? [⟨"dose".toList, "Δοση Σ".toList, true, .number⟩]
      " ΔΟΣΗ_Σ ".toList = some ⟨"dose".toList, "Δοση Σ".toList, true, .number⟩ := by
    decide +kernel
  have hgreater : Operator.resolve? .number "Greater-Than".toList = some .greaterThan := by
    decide +kernel
  exact ⟨_, _, rfl, rfl, hdose.1, hdose.2, hresolve, rfl,
    ((offers_named _).1 hdose.1).1 hdose.2 _ _ hresolve rfl,
    ⟨hstreet.1, hstreet.2, ((offers_named _).1 hstreet.1).2 hstreet.2⟩,
    hgreater, (offers_named _).2 _ _ hgreater⟩

/-- The street that a name means is not offered while the name is typed. -/
theorem exists_resolved_not_offered : ∃ (catalog : Catalog) (c : Column) (typed : Text),
    catalog = [c] ∧ c = ⟨"ΟΔΟΣ".toList, [], true, .text⟩ ∧ typed = "οδος".toList ∧
    catalog.check = none ∧ '#' ∉ typed ∧ catalog.resolve? typed = some c ∧
    c.searchable = true ∧ c ∉ catalog.suggestions typed := by
  refine ⟨_, _, _, rfl, rfl, rfl, ?_⟩
  decide +kernel

end Catalog

end HashtagSearch
