import HashtagSearch.Column
import Mathlib.Data.List.Basic

/-!
# Typing more narrows what is offered

The letters of a text are the beginning of the letters of every longer one, also when the
hashes in front of it are dropped. So what is offered after one more letter was offered before
it, in the same order, and with nothing typed everything is offered.
-/

namespace HashtagSearch

open Text

namespace Naming

variable {α : Type} {names : α → List Text} {items : List α} {typed longer : Text}

theorem suggestions_sublist (h : squash typed <+: squash longer) :
    (suggestions names items longer).Sublist (suggestions names items typed) := by
  apply List.monotone_filter_right
  intro a ha
  obtain ⟨name, hname, hlonger⟩ := List.any_eq_true.1 ha
  have htyped : squash typed <+: squash name := h.trans (List.isPrefixOf_iff_prefix.1 hlonger)
  exact List.any_eq_true.2 ⟨name, hname, List.isPrefixOf_iff_prefix.2 htyped⟩

theorem suggestions_of_squash_eq_nil (hnames : ∀ a ∈ items, names a ≠ [])
    (h : squash typed = []) : suggestions names items typed = items := by
  rw [suggestions, h, List.filter_eq_self]
  intro a ha
  obtain ⟨name, hname⟩ := List.exists_mem_of_ne_nil _ (hnames a ha)
  exact List.any_eq_true.2 ⟨name, hname, rfl⟩

end Naming

theorem Text.squash_dropHashes_append (p q : Text) :
    squash (p.dropWhile (· == '#')) <+: squash ((p ++ q).dropWhile (· == '#')) := by
  rw [List.dropWhile_append]
  split
  · next hempty =>
    rw [List.isEmpty_iff.1 hempty]
    exact List.nil_prefix
  · rw [squash_append]
    exact List.prefix_append _ _

namespace Catalog

/-- Typing more takes columns and operators from what is offered and changes nothing else. The
columns are among those that can be searched, and hashes alone offer all of these. -/
theorem suggestions_append_sublist (catalog : Catalog) (p q : Text) :
    (catalog.suggestions (p ++ q)).Sublist (catalog.suggestions p) ∧
    (catalog.suggestions p).Sublist (catalog.filter (·.searchable)) ∧
    (∀ n, catalog.suggestions (List.replicate n '#') = catalog.filter (·.searchable)) ∧
    ∀ type : ValueType,
      (Operator.suggestions type (p ++ q)).Sublist (Operator.suggestions type p) ∧
      (Operator.suggestions type p).Sublist (Operator.ofType type) ∧
      Operator.suggestions type [] = Operator.ofType type := by
  refine ⟨?columns, List.filter_sublist, ?hashes,
    fun type => ⟨?operators, List.filter_sublist, ?all⟩⟩
  case columns => exact Naming.suggestions_sublist (squash_dropHashes_append p q)
  case hashes =>
    intro n
    apply Naming.suggestions_of_squash_eq_nil
    · simp [Column.names]
    · rw [List.dropWhile_replicate_eq_filter_not]
      simp
  case operators =>
    apply Naming.suggestions_sublist
    rw [squash_append]
    exact List.prefix_append _ _
  case all =>
    apply Naming.suggestions_of_squash_eq_nil
    · simp [Operator.names]
    · exact squash_nil

end Catalog

end HashtagSearch
