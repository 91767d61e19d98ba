import HashtagSearch.Proofs.Matching.Scales
import HashtagSearch.Proofs.Text.Sigmas

/-!
# Finding a text by a part of it

Cells and values are compared in small letters, which are made of each as a whole. A part of a
cell is found wherever it stands undisturbed. A capital sigma at a loose end of it, which is
another small letter in the cell than in the value, is what hides a part.
-/

namespace HashtagSearch.Row

open Text

variable {row : Row} {catalog : Catalog} {column : Column} {field s t v : Text}
  {high : Option Text}

def HasText (row : Row) (field s : Text) : Prop := Json.lookup? field row = some (.string s)

theorem HasText.cell? (h : row.HasText field s) : row.cell? field = some (.string s) := by
  rw [Row.cell?, show Json.lookup? field row = _ from h]
  rfl

theorem HasText.meets_contains (h : row.HasText field s) :
    row.meets field column .contains v high = true ↔ lower v <:+: lower s := by
  rw [← hasPart_iff, meets, Condition.accepts, h.cell?]
  rfl

theorem HasText.meets_startsWith (h : row.HasText field s) :
    row.meets field column .startsWith v high = true ↔ lower v <+: lower s := by
  rw [← List.isPrefixOf_iff_prefix, meets, Condition.accepts, h.cell?]
  rfl

theorem HasText.meets_endsWith (h : row.HasText field s) :
    row.meets field column .endsWith v high = true ↔ lower v <:+ lower s := by
  rw [← List.isSuffixOf_iff_suffix, meets, Condition.accepts, h.cell?]
  rfl

theorem HasText.holdsText (h : row.HasText field s)
    (hcolumn : ∃ c ∈ catalog, c.searchable = true ∧ c.field = field)
    (hpart : lower (trim t) <:+: lower s) : row.holdsText catalog t = true := by
  obtain ⟨c, hc, hsearchable, rfl⟩ := hcolumn
  simp only [Row.holdsText, Bool.or_eq_true, List.any_eq_true, List.mem_filter]
  refine .inr ⟨c, ⟨hc, hsearchable⟩, ?_⟩
  rw [show Json.lookup? c.field row = _ from h]
  exact hasPart_iff.2 hpart

/-- In a catalog of one column, free text is looked for in its cell only. -/
theorem HasText.part_of_holdsText (h : row.HasText column.field s)
    (hheld : row.holdsText [column] t = true) : lower (trim t) <:+: lower s := by
  simp only [Row.holdsText, Bool.or_eq_true, List.any_eq_true, List.mem_filter] at hheld
  obtain hempty | ⟨c, ⟨hc, -⟩, hpart⟩ := hheld
  · rw [List.isEmpty_iff.1 hempty]
    exact List.nil_infix
  · rw [List.mem_singleton.1 hc, show Json.lookup? column.field row = _ from h] at hpart
    exact hasPart_iff.1 hpart

/-- A part that stands undisturbed in a cell is found by what looks for it anywhere, as is every
part without a capital sigma. A part at an end of a cell is found there exactly if it stands
undisturbed. Every part with a loose end is missed in some cell. -/
theorem meets_literal (v : Text) :
    ('Σ' ∉ v → ∀ a b, Undisturbed a v b) ∧
    (∀ a b, Undisturbed a v b → ∀ (row : Row) field, row.HasText field (a ++ (v ++ b)) →
      (∀ column high, row.meets field column .contains v high = true) ∧
      ∀ (catalog : Catalog) t, (∃ c ∈ catalog, c.searchable = true ∧ c.field = field) →
        trim t = v → row.holdsText catalog t = true) ∧
    (∀ b (row : Row) field column high, row.HasText field (v ++ b) →
      (row.meets field column .startsWith v high = true ↔ Undisturbed [] v b)) ∧
    (∀ a (row : Row) field column high, row.HasText field (a ++ v) →
      (row.meets field column .endsWith v high = true ↔ Undisturbed a v [])) ∧
    (looseStart v = true ∨ looseEnd v = true → ∃ a b, ∀ (row : Row) (column : Column),
      row.HasText column.field (a ++ (v ++ b)) →
      (∀ high, row.meets column.field column .contains v high = false) ∧
      ∀ t, trim t = v → row.holdsText [column] t = false) := by
  refine ⟨Undisturbed.of_not_mem, ?_, ?_, ?_, ?_⟩
  · intro a b hfree row field htext
    refine ⟨fun column high => htext.meets_contains.2 hfree.isInfix, ?_⟩
    rintro catalog t hcolumn rfl
    exact htext.holdsText hcolumn hfree.isInfix
  · intro b row field column high htext
    rw [htext.meets_startsWith, lower_isPrefix_iff]
  · intro a row field column high htext
    rw [htext.meets_endsWith, lower_isSuffix_iff]
  · intro hloose
    obtain ⟨a, b, hmissed⟩ := exists_not_infix_of_loose hloose
    refine ⟨a, b, fun row column htext => ⟨fun high => ?_, ?_⟩⟩
    · exact Bool.eq_false_of_not_eq_true (mt htext.meets_contains.1 hmissed)
    · rintro t rfl
      exact Bool.eq_false_of_not_eq_true (mt htext.part_of_holdsText hmissed)

/-- The sigma at the end of a first word has no letter behind it in the cell either. With a
letter there, it can be missed. -/
theorem meets_literal_street : ∃ row : Row,
    row = [("street".toList, .string "ΟΔΟΣ ΕΡΜΟΥ".toList)] ∧
    row.HasText "street".toList ("Ο".toList ++ ("ΔΟΣ".toList ++ " ΕΡΜΟΥ".toList)) ∧
    Undisturbed "Ο".toList "ΔΟΣ".toList " ΕΡΜΟΥ".toList ∧
    row.meets "street".toList ⟨"street".toList, [], true, .text⟩ .contains "ΔΟΣ".toList = true ∧
    (∃ c ∈ [(⟨"street".toList, [], true, .text⟩ : Column)],
      c.searchable = true ∧ c.field = "street".toList) ∧
    trim " ΔΟΣ ".toList = "ΔΟΣ".toList ∧
    row.holdsText [⟨"street".toList, [], true, .text⟩] " ΔΟΣ ".toList = true ∧
    looseEnd "ΔΟΣ".toList = true ∧
    ∃ a b, ∀ (row : Row) (column : Column),
      row.HasText column.field (a ++ ("ΔΟΣ".toList ++ b)) →
      (∀ high, row.meets column.field column .contains "ΔΟΣ".toList high = false) ∧
      ∀ t, trim t = "ΔΟΣ".toList → row.holdsText [column] t = false := by
  obtain ⟨-, hfound, -, -, hmissed⟩ := meets_literal "ΔΟΣ".toList
  have hfree : Undisturbed "Ο".toList "ΔΟΣ".toList " ΕΡΜΟΥ".toList :=
    ⟨by decide +kernel, by decide +kernel⟩
  have hloose : looseEnd "ΔΟΣ".toList = true := by decide +kernel
  have hcolumn : ∃ c ∈ [(⟨"street".toList, [], true, .text⟩ : Column)],
      c.searchable = true ∧ c.field = "street".toList := ⟨_, List.mem_singleton.2 rfl, rfl, rfl⟩
  have htrim : trim " ΔΟΣ ".toList = "ΔΟΣ".toList := by decide +kernel
  obtain ⟨hcontains, hholds⟩ := hfound "Ο".toList " ΕΡΜΟΥ".toList hfree
    [("street".toList, .string "ΟΔΟΣ ΕΡΜΟΥ".toList)] "street".toList rfl
  exact ⟨_, rfl, rfl, hfree, hcontains _ none, hcolumn, htrim, hholds _ _ hcolumn htrim, hloose,
    hmissed (.inr hloose)⟩

/-- A value can be a part of a cell, begin it or end it, and none of the ways to look for it
finds it. -/
theorem exists_missed_part : ∃ (row : Row) (column : Column),
    row = [("name".toList, .string "ΑΣ".toList), ("street".toList, .string "ΑΣΑ".toList)] ∧
    column = ⟨"name".toList, [], true, .text⟩ ∧
    "Σ".toList <:+ "ΑΣ".toList ∧ "ΑΣ".toList <+: "ΑΣΑ".toList ∧ trim "Σ".toList = "Σ".toList ∧
    row.meets "name".toList column .contains "Σ".toList = false ∧
    row.meets "name".toList column .endsWith "Σ".toList = false ∧
    row.holdsText [column] "Σ".toList = false ∧
    row.meets "street".toList { column with field := "street".toList } .startsWith "ΑΣ".toList =
      false := by
  refine ⟨_, _, rfl, rfl, ?_⟩
  decide +kernel

end HashtagSearch.Row
