import HashtagSearch.Proofs.Continuation
import HashtagSearch.Proofs.Typing.Committing
import HashtagSearch.Proofs.Values.Typed

/-!
# Conditions of searches with joins

The conditions of a confirmed search and those of a preview are typed in the text, each in
a segment of its own. A draft has its values from the same places as a finished condition.
-/

namespace HashtagSearch

variable {catalog : Catalog} {base running column : Column}

/-! ## Sequences with gaps -/

namespace Joined

variable {α β : Type}

theorem items_filterMap {s : Joined α} {f : α → Option β} {r : Joined β}
    (h : s.filterMap f = some r) : r.items = s.items.filterMap f := by
  obtain ⟨a, tail⟩ := s
  have hkept : (tail.filterMap fun p => (f p.2).map (p.1, ·)).map (·.2) =
      (tail.map (·.2)).filterMap f := by
    rw [List.map_filterMap, List.filterMap_map]
    congr 1
    funext p
    simp [Function.comp_def]
  simp only [filterMap] at h
  simp only [items, List.filterMap_cons]
  split at h
  · next hhead =>
    cases h
    rw [hhead, hkept]
  · next hhead heq =>
    cases h
    rw [hhead, ← hkept, heq]
    rfl
  · cases h

theorem exists_of_mem_filterMap {s : Joined α} {f : α → Option β} {r : Joined β}
    (h : s.filterMap f = some r) {b : β} (hb : b ∈ r.items) : ∃ a ∈ s.items, f a = some b := by
  rw [items_filterMap h] at hb
  exact List.mem_filterMap.1 hb

end Joined

/-! ## Drafts -/

namespace Draft

variable {operator : Operator} {d : Draft} {c : Condition} {confirmed : Bool} {t v raw : Text}

theorem isComplete_of_condition? (h : d.condition? = some c) : d.isComplete = true := by
  unfold condition? at h
  split at h
  · next hk ho hv => simp [isComplete, hasValue, hk, ho, hv]
  · cases h

theorem read_of_ofStripped (h : (ofStripped column operator v confirmed).condition? = some c) :
    Confirmation.holdsTag v operator.isRange = false ∧ Condition.Read column operator v c := by
  have htag := not_holdsTag_of_isComplete (isComplete_of_condition? h)
  refine ⟨htag, ?_⟩
  have hwhole (h : ((ofOperator column operator).withValue v).condition? = some c) :
      Condition.Read column operator v c := by
    have hv := ne_nil_of_isComplete_withValue (isComplete_of_condition? h)
    rw [condition?_withValue hv] at h
    cases h
    exact .whole hv
  rw [ofStripped, htag, if_neg Bool.false_ne_true] at h
  split at h
  · next ho =>
    have ho := Operator.isRange_iff.1 ho
    cases hread : ValueRange.read? v confirmed with
    | some r =>
      obtain ⟨x, low, hlow⟩ := List.exists_cons_of_ne_nil (ValueRange.ends_ne_nil hread).1
      obtain rfl : Condition.on column operator r.low (some r.high) = c := by
        simpa [ofRange, hread, condition?, ofOperator, ofColumn, hlow] using h
      exact .range ho hread
    | none =>
      cases hopen : ValueRange.openEnd? v with
      | some low =>
        obtain ⟨x, rest, rfl⟩ := List.exists_cons_of_ne_nil (ValueRange.openEnd_ne_nil hopen)
        obtain rfl : Condition.on column operator (x :: rest) = c := by
          simpa [ofRange, hread, hopen, condition?, ofOperator, ofColumn] using h
        exact .opened ho hopen
      | none =>
        simp only [ofRange, hread, hopen] at h
        exact hwhole h
  · exact hwhole h

theorem typed_of_ofValue (h : (ofValue column operator raw confirmed).condition? = some c)
    (hraw : raw <:+: t) (hk : column ∈ catalog)
    (hs : operator.supports column.valueType = true) : c.Typed catalog none t := by
  obtain ⟨htag, hread⟩ := read_of_ofStripped h
  exact hread.typed ((Confirmation.strip_isInfix raw).trans hraw) (Confirmation.trim_strip raw) htag
    (.inl hk) hs

theorem typed_of_ofSegment (hbase : base ∈ catalog)
    (h : (ofSegment catalog base running confirmed
      (Segment.ofText (Text.trim t))).condition? = some c) : c.Typed catalog none t := by
  cases hs : Segment.ofText (Text.trim t) with
  | explicit name operatorName value =>
    simp only [hs, ofSegment] at h
    split at h
    · next hr =>
      obtain ⟨hk, ho⟩ := Condition.known_of_resolve? hr
      exact typed_of_ofValue h (Segment.infix_of_value?_trim (by rw [hs]; rfl)) hk ho
    · cases h
  | continued operatorName value =>
    simp only [hs, ofSegment] at h
    split at h
    · next ho =>
      exact typed_of_ofValue h (Segment.infix_of_value?_trim (by rw [hs]; rfl)) hbase
        (Operator.supports_of_resolve? ho)
    · cases h
  | _ =>
    obtain ⟨k, o, v, hv, -⟩ := exists_ofValue_of_isComplete (isComplete_of_condition? h)
    rw [hs] at hv
    cases hv

theorem typed_of_ofFirst? (h : ofFirst? catalog t = some (base, d)) :
    base ∈ catalog ∧ ∀ c, d.condition? = some c → c.Typed catalog none t := by
  unfold ofFirst? at h
  split at h
  · next name operatorName value hs =>
    obtain ⟨⟨k, o⟩, hr, heq⟩ := Option.map_eq_some_iff.1 h
    cases heq
    obtain ⟨hk, ho⟩ := Condition.known_of_resolve? hr
    exact ⟨hk, fun c hc => typed_of_ofValue hc (Segment.infix_of_value?_trim (by rw [hs]; rfl)) hk ho⟩
  · cases h

theorem typed_of_ofSegments {triggered : Bool} {tail : List (Join × Text)} (hbase : base ∈ catalog)
    (ht : ∀ p ∈ tail, p.2 <:+: t) :
    ∀ p ∈ ofSegments catalog base triggered running tail, ∀ c, p.2.condition? = some c →
      c.Typed catalog none t := by
  induction tail generalizing running with
  | nil => simp [ofSegments]
  | cons p rest ih =>
    obtain ⟨hp, hrest⟩ := List.forall_mem_cons.1 ht
    intro q hq c hc
    rcases List.mem_cons.1 hq with rfl | hq
    · exact (typed_of_ofSegment hbase hc).of_part hp
    · exact ih hrest q hq c hc

end Draft

/-! ## Previews -/

namespace TypingState

variable {drafts : Joined Draft} {f : Filter} {t : Text}

theorem exists_of_preview {triggered : Bool} {last : Text}
    (h : (ofDrafts drafts triggered last).preview = some f) :
    ∃ r, Filter.ofJoined? r = some f ∧ ∀ c ∈ r.items, ∃ d ∈ drafts.items, d.condition? = some c := by
  have hwith {selector : Option Selector} {isConfirmed : Bool}
      (h : (withPreview drafts selector isConfirmed).preview = some f) :
      ∃ r, Filter.ofJoined? r = some f ∧
        ∀ c ∈ r.items, ∃ d ∈ drafts.items, d.condition? = some c := by
    obtain ⟨r, hr, hf⟩ := Option.bind_eq_some_iff.1 h
    refine ⟨r, hf, fun c hc => ?_⟩
    unfold settledConditions? at hr
    split at hr
    · exact Joined.exists_of_mem_filterMap hr hc
    · obtain ⟨d, hd, hdc⟩ := Joined.exists_of_mem_filterMap hr hc
      have htail : drafts.tail.dropLast ⊆ drafts.tail := List.dropLast_subset _
      exact ⟨d, List.cons_subset_cons _ (List.map_subset _ htail) hd, hdc⟩
  unfold ofDrafts at h
  split at h
  · exact hwith h
  · split at h
    · exact hwith h
    · exact hwith h

/-- The conditions of a preview are typed in the text. -/
theorem typed_of_ofText? {s : TypingState} (h : ofText? catalog t = some s)
    (hf : s.preview = some f) :
    ∃ r, Filter.ofJoined? r = some f ∧ ∀ c ∈ r.items, c.Typed catalog none t := by
  obtain ⟨-, base, first, hfirst, rfl⟩ := ofText?_eq_some h
  obtain ⟨r, hr, hdrafts⟩ := exists_of_preview hf
  obtain ⟨hbase, htyped⟩ := Draft.typed_of_ofFirst? hfirst
  refine ⟨r, hr, fun c hc => ?_⟩
  obtain ⟨d, hd, hdc⟩ := hdrafts c hc
  have hpart {x : Text} (hx : x ∈ (Joined.ofText t).items) : x <:+: t :=
    Joined.infix_of_mem_ofText hx
  rcases List.mem_cons.1 hd with rfl | hd
  · exact (htyped c hdc).of_part (hpart List.mem_cons_self)
  · obtain ⟨p, hp, rfl⟩ := List.mem_map.1 hd
    refine Draft.typed_of_ofSegments hbase (fun q hq => ?_) p hp c hdc
    exact hpart (List.mem_cons_of_mem _ (List.mem_map_of_mem hq))

end TypingState

/-! ## Confirmed searches -/

namespace Confirmed

variable {f : Filter} {t : Text}

theorem body?_isInfix {body : Text} (h : body? t = some body) : body <:+: t := by
  have hend := Text.dropEnding?_eq_some_iff.1 h
  have hbody : body <+: Text.trimEnd t := hend ▸ List.prefix_append body _
  exact (hbody.trans (Text.trimEnd_isPrefix t)).isInfix

/-- The conditions of a confirmed search are typed in the text. The column that the first one
passes on to the others is known. -/
theorem typed_of_read? (h : read? catalog t = some f) :
    ∃ r, Filter.ofJoined? r = some f ∧ ∀ c ∈ r.items, c.Typed catalog none t := by
  unfold read? at h
  split at h
  · cases h
  · obtain ⟨body, hbody, h⟩ := Option.bind_eq_some_iff.1 h
    obtain ⟨r, hr, h⟩ := Option.bind_eq_some_iff.1 h
    split at h
    · cases h
    · refine ⟨r, h, fun c hc => ?_⟩
      obtain ⟨x, hx, hxc⟩ := Joined.exists_of_mem_filterMap hr hc
      refine (Condition.typed_of_ofText? hxc).mono
        ((Joined.infix_of_mem_ofText hx).trans (body?_isInfix hbody)) fun k hk => ?_
      obtain ⟨first, hfirst, rfl⟩ := Option.map_eq_some_iff.1 hk
      exact .inl ((Condition.typed_of_ofText? hfirst).column_known.resolve_right nofun)

end Confirmed

namespace Shorthand

variable {f : Filter} {t : Text}

theorem operator_supports (column : Column) :
    (operator column).supports column.valueType = true := by
  unfold operator
  split
  · assumption
  · rfl

/-- The shorthand gives one condition, with an operator that its column takes. -/
theorem exists_of_read? (defaultColumn : Option Column) (h : read? catalog t = some f) :
    ∃ c : Condition, f = { Filter.single c with isExplicitOperator := false } ∧
      c.WellFormed catalog defaultColumn := by
  obtain ⟨⟨name, raw⟩, -, h⟩ := Option.bind_eq_some_iff.1 h
  obtain ⟨column, hk, h⟩ := Option.bind_eq_some_iff.1 h
  dsimp only at h
  split at h
  · cases h
  · next hne =>
    refine ⟨_, (Option.some.inj h).symm, ?_⟩
    have hfilled : Text.Filled (Confirmation.strip raw) :=
      ⟨by simpa using hne, Confirmation.trim_strip raw⟩
    exact ⟨.inl (Catalog.mem_of_resolve? hk), rfl, operator_supports column, hfilled, nofun⟩

end Shorthand

end HashtagSearch
