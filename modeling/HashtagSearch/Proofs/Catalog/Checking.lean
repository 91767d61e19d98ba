import HashtagSearch.Column
import HashtagSearch.Proofs.Text.SmallLetters
import HashtagSearch.Proofs.Text.Trimming

/-!
# Catalogs without faults

A catalog passes its check exactly when every field is a word that can be typed and no two
fields are the same in small letters, blanks at their ends aside. A field that is typed then
names its own column, unless an earlier column is displayed by that name.
-/

namespace HashtagSearch

open Text

/-- The form in which fields are compared with each other. -/
def Column.key (c : Column) : Text := lower (trim c.field)

/-- The field is a word of the search language, blanks at its ends aside. -/
def Column.HasWord (c : Column) : Prop :=
  trim c.field ≠ [] ∧ Catalog.isUntypeable (trim c.field) = false

namespace Catalog

variable {catalog before after : Catalog} {c d : Column}

/-! ## Checking -/

theorem checkFrom_cons_eq_none {index : Nat} {seen : List Text} :
    Catalog.checkFrom index seen (c :: catalog) = none ↔
      c.HasWord ∧ c.key ∉ seen ∧ catalog.checkFrom (index + 1) (c.key :: seen) = none := by
  rw [checkFrom, Column.HasWord, Column.key]
  cases hempty : (trim c.field).isEmpty with
  | true => simp [List.isEmpty_iff.1 hempty]
  | false =>
    have hne : trim c.field ≠ [] := by simpa using hempty
    cases hbad : isUntypeable (trim c.field) with
    | true => simp
    | false => by_cases hseen : lower (trim c.field) ∈ seen <;> simp [hne, hseen]

theorem checkFrom_eq_none_iff {index : Nat} {seen : List Text} :
    catalog.checkFrom index seen = none ↔
      (∀ c ∈ catalog, c.HasWord ∧ c.key ∉ seen) ∧ (catalog.map Column.key).Nodup := by
  induction catalog generalizing index seen with
  | nil => simp [checkFrom]
  | cons c rest ih =>
    rw [checkFrom_cons_eq_none, ih, List.forall_mem_cons, List.map_cons, List.nodup_cons]
    constructor
    · rintro ⟨hword, hseen, hrest, hnodup⟩
      refine ⟨⟨⟨hword, hseen⟩, fun d hd => ?_⟩, fun hmem => ?_, hnodup⟩
      · exact ⟨(hrest d hd).1, fun h => (hrest d hd).2 (List.mem_cons_of_mem _ h)⟩
      · obtain ⟨d, hd, heq⟩ := List.mem_map.1 hmem
        exact (hrest d hd).2 (heq ▸ List.mem_cons_self)
    · rintro ⟨⟨⟨hword, hseen⟩, hrest⟩, hfirst, hnodup⟩
      refine ⟨hword, hseen, fun d hd => ⟨(hrest d hd).1, fun h => ?_⟩, hnodup⟩
      rcases List.mem_cons.1 h with heq | h
      · exact hfirst (heq ▸ List.mem_map_of_mem hd)
      · exact (hrest d hd).2 h

/-- A catalog without faults has fields that can be typed and told apart. -/
theorem check_eq_none_iff : catalog.check = none ↔
    (∀ c ∈ catalog, c.HasWord) ∧ (catalog.map Column.key).Nodup := by
  simp [check, checkFrom_eq_none_iff]

/-! ## Naming a column by its field -/

theorem no_blank_of_hasWord (h : c.HasWord) (hc : trim c.field = c.field) :
    ∀ x ∈ c.field, isBlank x = false := by
  have hfield := h.2
  rw [hc, isUntypeable, Bool.or_eq_false_iff, Bool.or_eq_false_iff] at hfield
  exact fun x hx => by simpa using List.any_eq_false.1 hfield.1.1 x hx

/-- Whether the name, in small letters, is the field or the display name. -/
def answersTo (wanted : Text) (c : Column) : Bool := c.names.any (lower · == wanted)

theorem answersTo_iff {wanted : Text} :
    answersTo wanted c = true ↔ lower c.field = wanted ∨ lower c.displayName = wanted := by
  simp [answersTo, Column.names]

/-- A field without blanks is shared with no other column in any case, even if the other one
has blanks at its ends: they stay there in small letters. -/
theorem lower_field_ne (hcheck : Catalog.check (before ++ c :: after) = none)
    (hc : trim c.field = c.field) (hd : d ∈ before) : lower d.field ≠ lower c.field := by
  obtain ⟨hwords, hnodup⟩ := check_eq_none_iff.1 hcheck
  intro heq
  have hblank := no_blank_of_hasWord (hwords c (by simp)) hc
  have htrim : trim d.field = d.field := by
    apply trim_of_no_blank
    intro x hx
    by_contra hx'
    have hb : isBlank x = true := by simpa using hx'
    have hmem : x ∈ c.field := (mem_lower hb).1 (heq ▸ (mem_lower hb).2 hx)
    rw [hblank x hmem] at hb
    cases hb
  have hkey : d.key = c.key := by rw [Column.key, Column.key, htrim, hc, heq]
  rw [List.map_append, List.map_cons] at hnodup
  exact List.disjoint_of_nodup_append hnodup (List.mem_map_of_mem hd) (hkey ▸ List.mem_cons_self)

/-- The field that is typed names its column exactly when no earlier column is displayed by
that name. -/
theorem resolve?_field_iff (hcheck : Catalog.check (before ++ c :: after) = none)
    (hc : trim c.field = c.field) :
    Catalog.resolve? (before ++ c :: after) c.field = some c ↔
      ∀ d ∈ before, lower d.displayName ≠ lower c.field := by
  obtain ⟨hwords, hnodup⟩ := check_eq_none_iff.1 hcheck
  have hne : c.field ≠ [] := hc ▸ (hwords c (by simp)).1
  have hself : answersTo (lower c.field) c = true := answersTo_iff.2 (.inl rfl)
  have hfind : Catalog.resolve? (before ++ c :: after) c.field =
      (before.find? (answersTo (lower c.field))).or (some c) := by
    have hfirst : Naming.findBy lower Column.names (before ++ c :: after) (lower c.field) =
        (before ++ c :: after).find? (answersTo (lower c.field)) := by
      rw [Naming.findBy, if_neg (by simpa using lower_ne_nil hne)]
      rfl
    rw [resolve?, Naming.resolve?, hc, hfirst, List.find?_append,
      List.find?_cons_of_pos hself]
    cases before.find? (answersTo (lower c.field)) <;> rfl
  rw [hfind]
  constructor
  · intro h d hd heq
    have hcol : before.find? (answersTo (lower c.field)) = some c := by
      cases hb : before.find? (answersTo (lower c.field)) with
      | some e => rwa [hb] at h
      | none => exact absurd (answersTo_iff.2 (.inr heq)) (List.find?_eq_none.1 hb d hd)
    exact lower_field_ne hcheck hc (List.mem_of_find?_eq_some hcol) rfl
  · intro h
    have hnone : before.find? (answersTo (lower c.field)) = none := by
      rw [List.find?_eq_none]
      intro d hd hd'
      rcases answersTo_iff.1 hd' with heq | heq
      · exact lower_field_ne hcheck hc hd heq
      · exact h d hd heq
    rw [hnone, Option.none_or]

end Catalog

end HashtagSearch
