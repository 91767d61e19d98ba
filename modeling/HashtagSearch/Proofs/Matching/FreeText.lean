import HashtagSearch.Proofs.Matching.Joining
import HashtagSearch.Proofs.Text.SmallLetters

/-!
# Free text as a search

Free text is looked for in the cells of all searchable columns. That is what the conditions ask
that contain it, one for each of these columns and joined by `or`. Both treat every cell alike:
one that is missing or null holds nothing, and the others are looked through by their texts.
-/

namespace HashtagSearch

open Text

/-- The tree of conditions that free text stands for. -/
def Group.ofFreeText (catalog : Catalog) (t : Text) (isExplicit : Bool) : Group :=
  ⟨.or, (catalog.filter (·.searchable)).map fun c => .condition (.on c .contains (trim t)),
    isExplicit⟩

theorem Join.applyAll_or {α : Type} (as : List α) (answer : α → Bool) :
    Join.or.applyAll (as.map answer) = as.any answer := by
  induction as with
  | nil => rfl
  | cons a as ih => rw [List.map_cons, applyAll_cons, ih, List.any_cons, Join.apply]

namespace Row

variable {row : Row} {catalog : Catalog} {t : Text}

theorem accepts_contains (row : Row) (field : Text) (column : Column) (v : Text) :
    Condition.accepts ⟨field, column, .contains, v, none⟩ row =
      ((Json.lookup? field row).bind Json.cellText?).any fun s => hasPart (lower v) (lower s) := by
  rw [Condition.accepts, cell?]
  cases Json.lookup? field row with
  | none => rfl
  | some cell =>
    cases cell with
    | null => rfl
    | bool | number | string | array | object => rfl

/-- Text that is not blank is held by a searchable column that contains it. -/
theorem holdsText_eq_any (h : ¬ AllBlank t) :
    row.holdsText catalog t = (catalog.filter (·.searchable)).any fun c =>
      (Condition.on c .contains (trim t)).accepts row := by
  have hpart : (lower (trim t)).isEmpty = false := by
    simpa using lower_ne_nil (mt trim_eq_nil_iff.1 h)
  simp only [holdsText, hpart, Bool.false_or, Condition.on, accepts_contains]

/-- Free text that is not blank asks the same of every row as the tree of its conditions, and
as each filter with that tree. -/
theorem holdsText_eq_accepts (h : ¬ AllBlank t) (isExplicit : Bool) :
    row.holdsText catalog t = (Group.ofFreeText catalog t isExplicit).accepts row ∧
      ∀ f : Filter, f.group = some (Group.ofFreeText catalog t isExplicit) →
        f.accepts row = row.holdsText catalog t := by
  have htree : row.holdsText catalog t =
      (Group.ofFreeText catalog t isExplicit).accepts row := by
    rw [holdsText_eq_any h, Group.accepts_eq, Group.ofFreeText, List.map_map]
    exact (Join.applyAll_or _ _).symm
  refine ⟨htree, ?_⟩
  intro f hf
  rw [htree, Filter.accepts, hf]

/-- A number in a list is found by its digits, although the columns in front hold null and
nothing, and although the column that is not searchable would do. -/
theorem holdsText_eq_accepts_nested : ∃ (catalog : Catalog) (row : Row),
    catalog = [⟨"name".toList, [], true, .text⟩, ⟨"code".toList, [], false, .text⟩,
      ⟨"note".toList, [], true, .text⟩, ⟨"sizes".toList, [], true, .number⟩] ∧
    row = [("name".toList, .null), ("code".toList, .string "12".toList),
      ("sizes".toList, .array [.null, .number (.integer 5), .array [.string "12 ML".toList]])] ∧
    ¬ AllBlank " 5, 12 Ml ".toList ∧ row.holdsText catalog " 5, 12 Ml ".toList = true ∧
    (Group.ofFreeText catalog " 5, 12 Ml ".toList true).accepts row = true := by
  have hblank : ¬ AllBlank " 5, 12 Ml ".toList := by
    intro h
    exact absurd (h '5' (by simp)) (by decide)
  obtain ⟨htree, -⟩ := @holdsText_eq_accepts
    [("name".toList, .null), ("code".toList, .string "12".toList),
      ("sizes".toList, .array [.null, .number (.integer 5), .array [.string "12 ML".toList]])]
    [⟨"name".toList, [], true, .text⟩, ⟨"code".toList, [], false, .text⟩,
      ⟨"note".toList, [], true, .text⟩, ⟨"sizes".toList, [], true, .number⟩]
    _ hblank true
  exact ⟨_, _, rfl, rfl, hblank, by decide +kernel, htree.symm.trans (by decide +kernel)⟩

end Row

end HashtagSearch
