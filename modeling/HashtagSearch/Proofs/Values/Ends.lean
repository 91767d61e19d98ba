import HashtagSearch.Proofs.Ranges
import HashtagSearch.Proofs.Text.Keywords
import HashtagSearch.Proofs.Text.Parts

/-!
# Ends of a range in a text

The ends of a range are cut out of the text that is read, at the mark `#to` or at a hyphen,
and trimmed. Behind a mark the high end starts anew; behind a hyphen it need not.
-/

namespace HashtagSearch

open Text

theorem Text.splitAtChar?_eq_some {c : Char} {t l r : Text}
    (h : splitAtChar? c t = some (l, r)) : t = l ++ c :: r := by
  induction t generalizing l with
  | nil => cases h
  | cons d t ih =>
    rw [splitAtChar?] at h
    split at h
    · next hd =>
      cases h
      exact hd ▸ rfl
    · obtain ⟨⟨l', r'⟩, hl, heq⟩ := Option.map_eq_some_iff.1 h
      cases heq
      rw [ih hl]
      rfl

theorem Text.not_mem_of_splitAtChar? {c : Char} {t l r : Text}
    (h : splitAtChar? c t = some (l, r)) : c ∉ l := by
  induction t generalizing l with
  | nil => cases h
  | cons d t ih =>
    rw [splitAtChar?] at h
    split at h
    · cases h
      simp
    · next hd =>
      obtain ⟨⟨l', r'⟩, hl, heq⟩ := Option.map_eq_some_iff.1 h
      cases heq
      exact List.not_mem_cons_of_ne_of_not_mem (Ne.symm hd) (ih hl)

theorem Text.splitAtChar?_eq_none {c : Char} {t : Text} (h : c ∉ t) :
    splitAtChar? c t = none := by
  induction t with
  | nil => rfl
  | cons d t ih =>
    obtain ⟨hd, ht⟩ := List.ne_and_not_mem_of_not_mem_cons h
    rw [splitAtChar?, if_neg hd.symm, ih ht, Option.map_none]

theorem Text.splitAtChar?_of_not_mem {c : Char} {l : Text} (h : c ∉ l) (r : Text) :
    splitAtChar? c (l ++ c :: r) = some (l, r) := by
  induction l with
  | nil => exact if_pos rfl
  | cons d l ih =>
    obtain ⟨hd, hl⟩ := List.ne_and_not_mem_of_not_mem_cons h
    rw [List.cons_append, splitAtChar?, if_neg hd.symm, ih hl, Option.map_some]

namespace ValueRange

variable {t low high : Text}

/-- Where a trimmed text can be cut into the two ends of a range. -/
inductive Cut (t : Text) : Text → Text → Prop
  /-- at a mark, behind which the high end starts with a blank -/
  | mark {low m high : Text} : t = low ++ '#' :: m ++ high →
      (∀ c ∈ high.head?, isBlank c = true) → Cut t low high
  | hyphen {low high : Text} : t = low ++ '-' :: high → Cut t low high

theorem afterMark?_eq_some {after : Text} (h : afterMark? t = some after) :
    ∃ m, sameIgnoringCase ('#' :: m) "#to".toList = true ∧ t = '#' :: m ++ after ∧
      ∀ c ∈ after.head?, isBlank c = true := by
  unfold afterMark? at h
  split at h
  · next rest hdrop =>
    split at h
    · next hblank =>
      cases h
      obtain ⟨m, rfl, hm⟩ := dropWord?_eq_some hdrop
      cases m with
      | nil => cases hm
      | cons c m =>
        obtain rfl := toLower_eq_hash (List.cons.inj hm).1.symm
        refine ⟨m, by rw [sameIgnoringCase, hm, beq_self_eq_true], rfl, fun c hc => ?_⟩
        rw [Option.mem_def.1 hc] at hblank
        exact hblank
    · cases h
  · cases h

theorem splitAtMark?_eq_some {before : Text} (h : splitAtMark? before t = some (low, high)) :
    ∃ m, sameIgnoringCase ('#' :: m) "#to".toList = true ∧ before ++ t = low ++ '#' :: m ++ high ∧
      (∀ c ∈ high.head?, isBlank c = true) ∧ onOneLine low high = true := by
  induction t generalizing before with
  | nil => cases h
  | cons c t ih =>
    rw [splitAtMark?] at h
    split at h
    · next hmark =>
      cases h
      obtain ⟨hafter, hline⟩ := Option.filter_eq_some_iff.1 hmark
      obtain ⟨m, hspelled, hm, hblank⟩ := afterMark?_eq_some hafter
      exact ⟨m, hspelled, by rw [hm, List.append_assoc], hblank, hline⟩
    · obtain ⟨m, hspelled, hm, hblank, hline⟩ := ih h
      refine ⟨m, hspelled, ?_, hblank, hline⟩
      rw [← hm, List.append_assoc, List.singleton_append]

theorem splitAtHyphen?_eq_some (h : splitAtHyphen? t = some (low, high)) :
    t = low ++ '-' :: high := by
  cases t with
  | nil => cases h
  | cons c t =>
    obtain ⟨⟨l, r⟩, hl, heq⟩ := Option.map_eq_some_iff.1 h
    cases heq
    rw [splitAtChar?_eq_some hl]
    rfl

theorem not_mem_tail_of_splitAtHyphen? (h : splitAtHyphen? t = some (low, high)) :
    '-' ∉ low.tail := by
  cases t with
  | nil => cases h
  | cons c t =>
    obtain ⟨⟨l, r⟩, hl, heq⟩ := Option.map_eq_some_iff.1 h
    cases heq
    exact not_mem_of_splitAtChar? hl

theorem splitAtHyphen?_eq_none (h : '-' ∉ t.tail) : splitAtHyphen? t = none := by
  cases t with
  | nil => rfl
  | cons c t =>
    rw [List.tail_cons] at h
    rw [splitAtHyphen?, splitAtChar?_eq_none h, Option.map_none]

theorem splitAtHyphen?_append (hlow : low ≠ []) (h : '-' ∉ low.tail) (high : Text) :
    splitAtHyphen? (low ++ '-' :: high) = some (low, high) := by
  obtain ⟨c, low, rfl⟩ := List.exists_cons_of_ne_nil hlow
  rw [List.tail_cons] at h
  rw [List.cons_append, splitAtHyphen?, splitAtChar?_of_not_mem h, Option.map_some]

theorem eq_trim_of_ofEnds? {r : ValueRange} (h : ofEnds? (low, high) = some r) :
    r = ⟨trim low, trim high⟩ := by
  unfold ofEnds? at h
  split at h
  · cases h
  · exact (Option.some.inj h).symm

/-- A range is read where the text is split at a mark, or at a hyphen in a confirmed search. -/
theorem exists_split {confirmed : Bool} {r : ValueRange} (h : read? t confirmed = some r) :
    ∃ low high, (splitAtMark? [] (trim t) = some (low, high) ∨
      confirmed = true ∧ splitAtHyphen? (trim t) = some (low, high)) ∧
      ofEnds? (low, high) = some r := by
  unfold read? at h
  rcases Option.or_eq_some_iff.1 h with h | ⟨-, h⟩
  · obtain ⟨⟨low, high⟩, hsplit, h⟩ := Option.bind_eq_some_iff.1 h
    exact ⟨low, high, .inl hsplit, h⟩
  · split at h
    · next hconfirmed =>
      obtain ⟨⟨low, high⟩, hsplit, h⟩ := Option.bind_eq_some_iff.1 h
      exact ⟨low, high, .inr ⟨hconfirmed, hsplit⟩, h⟩
    · cases h

theorem exists_cut {confirmed : Bool} {r : ValueRange} (h : read? t confirmed = some r) :
    ∃ low high, Cut (trim t) low high ∧ r = ⟨trim low, trim high⟩ := by
  obtain ⟨low, high, hsplit | ⟨-, hsplit⟩, h⟩ := exists_split h
  · obtain ⟨m, -, hm, hblank, -⟩ := splitAtMark?_eq_some hsplit
    exact ⟨low, high, .mark hm hblank, eq_trim_of_ofEnds? h⟩
  · exact ⟨low, high, .hyphen (splitAtHyphen?_eq_some hsplit), eq_trim_of_ofEnds? h⟩

theorem Cut.isInfix (h : Cut t low high) : low <:+: t ∧ high <:+: t := by
  cases h with
  | mark ht =>
    rw [ht, List.append_assoc]
    refine ⟨(List.prefix_append _ _).isInfix, ?_⟩
    exact ((List.suffix_append _ high).trans (List.suffix_cons '#' _)).isInfix.trans
      (List.suffix_append low _).isInfix
  | hyphen ht =>
    rw [ht]
    exact ⟨(List.prefix_append _ _).isInfix,
      (List.suffix_cons '-' high).isInfix.trans (List.suffix_append low _).isInfix⟩

theorem infix_of_read? {confirmed : Bool} {r : ValueRange} (h : read? t confirmed = some r) :
    r.low <:+: t ∧ r.high <:+: t := by
  obtain ⟨low, high, hcut, rfl⟩ := exists_cut h
  exact ⟨(trim_isInfix low).trans (hcut.isInfix.1.trans (trim_isInfix t)),
    (trim_isInfix high).trans (hcut.isInfix.2.trans (trim_isInfix t))⟩

theorem openEnd?_eq_some (h : openEnd? t = some low) :
    ∃ before m, trim t = before ++ '#' :: m ∧ low = trim before := by
  unfold openEnd? at h
  split at h
  · next rest hdrop =>
    dsimp only at h
    split at h
    · cases h
    · cases h
      obtain ⟨m, hrest, hm⟩ := dropWord?_eq_some hdrop
      have htrim : trim t = rest.reverse ++ m.reverse := by
        rw [← List.reverse_append, ← hrest, List.reverse_reverse]
      have hmark : m.reverse.map Char.toLower = "#to".toList.map Char.toLower := by
        rw [List.map_reverse, hm]
        rfl
      rcases hr : m.reverse with - | ⟨c, m'⟩
      · rw [hr] at hmark
        cases hmark
      · rw [hr] at hmark htrim
        obtain rfl := toLower_eq_hash (List.cons.inj hmark).1.symm
        exact ⟨rest.reverse, m', htrim, trimEnd_of_front htrim⟩
  · cases h

end ValueRange

end HashtagSearch
