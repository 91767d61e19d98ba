import HashtagSearch.Outcome
import HashtagSearch.Proofs.Filters.Shape
import HashtagSearch.Proofs.Grouped.Reading
import HashtagSearch.Proofs.Values.Searches

/-!
# Filters of search texts

A search text leads to a filter in one of four ways: as a tree, as a list of conditions that
is finished or a preview, as a single condition or as the shorthand. Whichever it was, the
parts of the filter fit together.
-/

namespace HashtagSearch

namespace Outcome

variable {catalog : Catalog} {defaultColumn : Option Column} {t : Text} {f : Filter}

/-- The ways in which the text `t` leads to a filter. -/
inductive Source (catalog : Catalog) (defaultColumn : Option Column) (t : Text) : Filter → Prop
  | grouped {g : Group} {f : Filter} : Grouped.SearchWritten catalog g (Token.ofText (Text.trim t)) →
      Filter.ofGroup? g = some f → Source catalog defaultColumn t f
  | joined {r : Joined Condition} {f : Filter} : (∀ c ∈ r.items, c.Typed catalog none t) →
      Filter.ofJoined? r = some f → Source catalog defaultColumn t f
  | single {c : Condition} : c.Typed catalog defaultColumn t →
      Source catalog defaultColumn t (Filter.single c)
  | shorthand {c : Condition} : c.WellFormed catalog defaultColumn →
      Source catalog defaultColumn t { Filter.single c with isExplicitOperator := false }

theorem filter?_ofFilter? (f : Option Filter) : (ofFilter? f).filter? = f := by
  cases f <;> rfl

theorem source_of_grouped (h : Grouped.read? catalog t = some f) :
    Source catalog defaultColumn t f := by
  unfold Grouped.read? at h
  split at h
  · obtain ⟨g, hg, hf⟩ := Option.bind_eq_some_iff.1 h
    exact .grouped (Grouped.tree?_eq_some_iff.1 hg) hf
  · cases h

theorem source_of_ofTagged (h : (ofTagged catalog defaultColumn t).filter? = some f) :
    Source catalog defaultColumn t f := by
  unfold ofTagged at h
  split at h
  · rw [filter?_ofFilter?] at h
    exact source_of_grouped h
  · split at h
    · split at h
      · rw [filter?_ofFilter?] at h
        obtain ⟨r, hf, hr⟩ := Confirmed.typed_of_read? h
        exact .joined hr hf
      · cases hs : TypingState.ofText? catalog t with
        | none =>
          rw [hs] at h
          cases h
        | some s =>
          rw [hs] at h
          obtain ⟨r, hf, hr⟩ := TypingState.typed_of_ofText? hs h
          exact .joined hr hf
    · split at h
      · rw [filter?_ofFilter?] at h
        obtain ⟨c, hc, rfl⟩ := Option.map_eq_some_iff.1 h
        exact .single (Condition.typed_of_ofText? hc)
      · rw [filter?_ofFilter?] at h
        obtain ⟨c, rfl, hc⟩ := Shorthand.exists_of_read? defaultColumn h
        exact .shorthand hc

theorem source_of_filter? (h : (ofText catalog defaultColumn t).filter? = some f) :
    Source catalog defaultColumn t f := by
  unfold ofText at h
  split at h
  · cases h
  · exact source_of_ofTagged h
  · cases h

theorem Source.wellFormed (h : Source catalog defaultColumn t f) :
    f.WellFormed catalog defaultColumn := by
  cases h with
  | grouped hg hf => exact Filter.wellFormed_ofGroup? hf hg fun c hc => hg.wellPlaced hc
  | joined hr hf =>
    exact Filter.wellFormed_ofJoined? hf fun c hc => (hr c hc).wellFormed.with_default defaultColumn
  | single hc => exact Filter.wellFormed_single hc.wellFormed true
  | shorthand hc => exact Filter.wellFormed_single hc false

/-- Whatever is typed, the parts of a filter that is applied or previewed fit together. -/
theorem filter?_wellFormed (h : (ofText catalog defaultColumn t).filter? = some f) :
    f.WellFormed catalog defaultColumn :=
  (source_of_filter? h).wellFormed

/-- A preview with a range that has both of its ends. -/
theorem filter?_wellFormed_preview : ∃ f,
    (ofText [⟨"name".toList, [], true, .text⟩, ⟨"price".toList, [], true, .number⟩] none
      "#name #has x #or #price #inRange 5 #to 9".toList).filter? = some f ∧
    f.WellFormed [⟨"name".toList, [], true, .text⟩, ⟨"price".toList, [], true, .number⟩] none := by
  obtain ⟨f, hf⟩ := Option.isSome_iff_exists.1 (show (ofText
    [⟨"name".toList, [], true, .text⟩, ⟨"price".toList, [], true, .number⟩] none
    "#name #has x #or #price #inRange 5 #to 9".toList).filter?.isSome = true by decide +kernel)
  exact ⟨f, hf, filter?_wellFormed hf⟩

end Outcome

end HashtagSearch
