import HashtagSearch.Proofs.Continuation
import HashtagSearch.Proofs.Typing.Invariant

/-!
# Typing on

What is typed behind a text whose last segment has been begun goes to that segment or opens
further ones. The drafts of the segments in front are confirmed by what follows them, before
and after, and so they stay as they are.
-/

namespace HashtagSearch

variable {catalog : Catalog} {t u : Text}

/-! ## Drafts of a common front -/

namespace Draft

variable {base running : Column} {triggered triggered' : Bool} {p p' : Join × Text}
  {more more' : List (Join × Text)}

theorem length_ofSegments (tail : List (Join × Text)) :
    (ofSegments catalog base triggered running tail).length = tail.length := by
  have hjoins : (ofSegments catalog base triggered running tail).map (·.1) = tail.map (·.1) :=
    joins_ofSegments triggered tail
  simpa using congrArg List.length hjoins

theorem getElem?_ofSegments {init : List (Join × Text)} {i : Nat} (hi : i < init.length) :
    (ofSegments catalog base triggered running (init ++ p :: more))[i]? =
      (ofSegments catalog base triggered' running (init ++ p' :: more'))[i]? := by
  induction init generalizing running i with
  | nil => cases hi
  | cons q init ih =>
    -- Both lists go on, which confirms `q` whatever the trigger is.
    have hrest (r : Join × Text) (rest : List (Join × Text)) :
        (!(init ++ r :: rest).isEmpty) = true := by simp
    simp only [List.cons_append, ofSegments, hrest, Bool.true_or]
    cases i with
    | zero => rfl
    | succ i => exact ih (Nat.lt_of_succ_lt_succ hi)

theorem getElem?_items_ofSegments {first : Draft} {init : List (Join × Text)} {i : Nat}
    (hi : i ≤ init.length) :
    (Joined.items ⟨first, ofSegments catalog base triggered running (init ++ p :: more)⟩)[i]? =
      (Joined.items
        ⟨first, ofSegments catalog base triggered' running (init ++ p' :: more')⟩)[i]? := by
  cases i with
  | zero => rfl
  | succ i =>
    simp only [Joined.items, List.getElem?_cons_succ, List.getElem?_map]
    exact congrArg (Option.map (·.2)) (getElem?_ofSegments hi)

end Draft

namespace Joined

theorem countJoins_ne_zero_iff : countJoins t ≠ 0 ↔ (ofText t).tail ≠ [] :=
  List.length_eq_zero_iff.not

theorem exists_init {α : Type} {s : Joined α} (h : s.tail ≠ []) :
    ∃ init join, s.tail = init ++ [(join, s.last)] := by
  obtain ⟨x, tail⟩ := s
  rcases List.eq_nil_or_concat tail with rfl | ⟨init, ⟨join, y⟩, rfl⟩
  · exact absurd rfl h
  · exact ⟨init, join, by simp [last, items]⟩

end Joined

namespace TypingState

/-- A text that goes on is being typed as long as it is not confirmed. -/
theorem exists_of_ofFirst? {base : Column} {first : Draft} (hcount : countJoins t ≠ 0)
    (hmark : ¬ Confirmation.mark <:+ t)
    (hfirst : Draft.ofFirst? catalog (Joined.ofText t).head = some (base, first)) :
    ∃ s, ofText? catalog t = some s ∧
      s.drafts = ⟨first, Draft.ofSegments catalog base (Confirmation.isTriggered t) base
        (Joined.ofText t).tail⟩ := by
  have hopen : (countJoins t = 0 || Confirmation.mark.isSuffixOf t) = false := by
    simpa [hcount, ← Bool.not_eq_true, List.isSuffixOf_iff_suffix] using hmark
  rw [ofText?, hopen, if_neg Bool.false_ne_true, ofSegments?, hfirst, Option.map_some]
  exact ⟨_, rfl, drafts_ofDrafts _ _⟩

/-- Typing on, without confirming, keeps the joins and every draft but the last. -/
theorem ofText?_append {s : TypingState} (h : ofText? catalog t = some s)
    (hlast : (Joined.ofText t).last ≠ []) (hmark : ¬ Confirmation.mark <:+ t ++ u) :
    ∃ s', ofText? catalog (t ++ u) = some s' ∧ s.drafts.joins <+: s'.drafts.joins ∧
      ∀ i < s.drafts.items.length - 1, s'.drafts.items[i]? = s.drafts.items[i]? := by
  obtain ⟨hcount, base, first, hfirst, rfl⟩ := ofText?_eq_some h
  obtain ⟨init, join, htail⟩ := Joined.exists_init (Joined.countJoins_ne_zero_iff.1 hcount)
  obtain ⟨y, more, hmore⟩ := Joined.ofText_continues t u init join _ htail hlast
  have hcount' : countJoins (t ++ u) ≠ 0 := by
    rw [Joined.countJoins_ne_zero_iff, hmore]
    simp
  have hfirst' : Draft.ofFirst? catalog (Joined.ofText (t ++ u)).head = some (base, first) := by
    rw [hmore]
    exact hfirst
  obtain ⟨s', hs', hdrafts⟩ := exists_of_ofFirst? hcount' hmark hfirst'
  refine ⟨s', hs', ?_, fun i hi => ?_⟩
  · rw [drafts_ofDrafts, hdrafts, hmore, htail, Joined.joins, Joined.joins,
      Draft.joins_ofSegments, Draft.joins_ofSegments, List.map_append, List.map_append]
    exact (List.prefix_append_right_inj _).2 ⟨more.map (·.1), rfl⟩
  · rw [drafts_ofDrafts] at hi ⊢
    rw [hdrafts, hmore, htail]
    have hlength : i < init.length + 1 := by
      simpa [Joined.items, Draft.length_ofSegments, htail] using hi
    exact Draft.getElem?_items_ofSegments (Nat.le_of_lt_succ hlength)

/-- A keyword that was half typed is completed, and a further condition is begun. -/
theorem ofText?_append_keyword : ∃ s s',
    ofText? [⟨"price".toList, [], true, .number⟩] "#price #gt 3 #or #lt 9 #an".toList = some s ∧
    (Joined.ofText "#price #gt 3 #or #lt 9 #an".toList).last ≠ [] ∧
    ¬ Confirmation.mark <:+ "#price #gt 3 #or #lt 9 #an".toList ++ "d #pri".toList ∧
    ofText? [⟨"price".toList, [], true, .number⟩]
      ("#price #gt 3 #or #lt 9 #an".toList ++ "d #pri".toList) = some s' ∧
    s.drafts.joins <+: s'.drafts.joins ∧
    ∀ i < s.drafts.items.length - 1, s'.drafts.items[i]? = s.drafts.items[i]? := by
  obtain ⟨s, hs⟩ := Option.isSome_iff_exists.1 (show (ofText? [⟨"price".toList, [], true, .number⟩]
    "#price #gt 3 #or #lt 9 #an".toList).isSome = true by decide +kernel)
  have hlast : (Joined.ofText "#price #gt 3 #or #lt 9 #an".toList).last ≠ [] := by decide +kernel
  have hmark : ¬ Confirmation.mark <:+
      "#price #gt 3 #or #lt 9 #an".toList ++ "d #pri".toList := by decide
  obtain ⟨s', hs', hjoins, hitems⟩ := ofText?_append hs hlast hmark
  exact ⟨s, s', hs, hlast, hmark, hs', hjoins, hitems⟩

end TypingState

end HashtagSearch
