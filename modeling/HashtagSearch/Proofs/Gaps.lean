import HashtagSearch.Proofs.Cuts
import HashtagSearch.Proofs.Typing.Extending
import HashtagSearch.Proofs.Values.Searches

/-!
# Searches with gaps

A segment that is no condition leaves a gap in the search. The filter takes the conditions that
are there in their order, and each brings the join in front of its own segment with it, wherever
the gaps are: the join in front of a gap is lost, and so is the one behind a gap at the start. A
confirmed search drops its unread segments in this way, and the preview of a search that is being
typed its unfinished drafts.
-/

namespace HashtagSearch

open Text

/-! ## Keywords in a text -/

namespace Join

/-- The keyword in any case behind a `#`, which follows a blank unless it begins the text. -/
inductive Spelled (join : Join) : Text → Prop
  | first {word : Text} : sameIgnoringCase word join.keyword.toList = true →
      Spelled join ('#' :: word)
  | later {b : Char} {word : Text} : isBlank b = true →
      sameIgnoringCase word join.keyword.toList = true → Spelled join (b :: '#' :: word)

/-- The join in front of the item at a place, where `joins` stand between the items. -/
def before? (joins : List Join) : Nat → Option Join
  | 0 => none
  | i + 1 => joins[i]?

end Join

namespace Joined

/-- The text is the segments with the keywords of the joins between them. -/
inductive Spells : Joined Text → Text → Prop
  | single (x : Text) : Spells ⟨x, []⟩ x
  | cons {join : Join} {s : Joined Text} {word t : Text} (x : Text) : join.Spelled word →
      Spells s t → Spells (s.cons x join) (x ++ (word ++ t))

theorem CutBehind.spells {s : Joined Text} {t : Text} (h : CutBehind s t) : Spells s t := by
  induction h with
  | last _ => exact .single _
  | cons _ hb hword _ ih => exact Spells.cons _ (.later hb hword.spelled) ih

/-- A text is cut at keywords, and nothing of it is lost. -/
theorem spells_ofText (t : Text) : Spells (ofText t) t := by
  have hcut := cut_ofText t
  generalize ofText t = s at hcut ⊢
  cases hcut with
  | start hword hs => exact Spells.cons [] (.first hword.spelled) hs.spells
  | behind _ hs => exact hs.spells

/-! ## Places -/

variable {α β : Type}

theorem getElem?_filter_findIdxs (p : α → Bool) (xs : List α) (k : Nat) :
    (xs.filter p)[k]? = (xs.findIdxs p)[k]?.bind (xs[·]?) := by
  have hlength : (xs.findIdxs p).length = (xs.filter p).length := by
    rw [List.length_findIdxs, List.countP_eq_length_filter]
  by_cases hk : k < (xs.filter p).length
  · rw [List.getElem?_eq_getElem hk, List.getElem?_eq_getElem (hlength ▸ hk), Option.bind_some,
      List.getElem_filter_eq_getElem_getElem_findIdxs]
    exact (List.getElem?_eq_getElem _).symm
  · have hk : (xs.filter p).length ≤ k := Nat.le_of_not_lt hk
    rw [List.getElem?_eq_none hk, List.getElem?_eq_none (hlength ▸ hk), Option.bind_none]

theorem map_some_reduceOption (images : List (Option β)) :
    images.reduceOption.map some = images.filter Option.isSome := by
  induction images with
  | nil => rfl
  | cons image images ih =>
    cases image with
    | none => simpa [List.reduceOption_cons_of_none] using ih
    | some b => simpa [List.reduceOption_cons_of_some] using ih

theorem getElem?_reduceOption (images : List (Option β)) (k : Nat) :
    images.reduceOption[k]? =
      (images.findIdxs Option.isSome)[k]?.bind fun i : Nat => images[i]?.join := by
  calc images.reduceOption[k]?
      = (images.reduceOption[k]?.map some).join := by cases images.reduceOption[k]? <;> rfl
    _ = (images.filter Option.isSome)[k]?.join := by
        rw [← List.getElem?_map, map_some_reduceOption]
    _ = _ := by
        rw [getElem?_filter_findIdxs]
        cases (images.findIdxs Option.isSome)[k]? <;> rfl

/-- The joins of the kept items of a tail are the joins in front of them. -/
theorem map_fst_filterMap (f : α → Option β) (tail : List (Join × α)) :
    (tail.filterMap fun p => (f p.2).map (p.1, ·)).map (·.1) =
      (tail.filter fun p => (f p.2).isSome).map (·.1) := by
  induction tail with
  | nil => rfl
  | cons p tail ih => cases hp : f p.2 <;> simp [hp, ih]

theorem filterMap_eq_none_iff {s : Joined α} {f : α → Option β} :
    s.filterMap f = none ↔ ∀ a ∈ s.items, f a = none := by
  obtain ⟨a, tail⟩ := s
  simp only [filterMap, items, List.forall_mem_cons, List.forall_mem_map]
  cases ha : f a with
  | some b => simp
  | none =>
    cases hkept : tail.filterMap fun p => (f p.2).map (p.1, ·) with
    | nil => simpa [List.filterMap_eq_nil_iff] using hkept
    | cons p kept =>
      obtain ⟨q, hq, hp⟩ := List.mem_filterMap.1 (hkept ▸ List.mem_cons_self : p ∈ _)
      have hne : f q.2 ≠ none := fun hnone => by simp [hnone] at hp
      simpa using ⟨q.1, q.2, hq, hne⟩

/-- The join of a kept item is the one in front of it. -/
theorem getElem?_joins_filterMap {s : Joined α} {f : α → Option β} {r : Joined β}
    (h : s.filterMap f = some r) (k : Nat) :
    r.joins[k]? =
      ((s.items.map f).findIdxs Option.isSome)[k + 1]?.bind (Join.before? s.joins) := by
  obtain ⟨a, tail⟩ := s
  have hshift : ((tail.map (·.2)).map f).findIdxs Option.isSome 1 =
      (tail.findIdxs fun p => (f p.2).isSome).map (· + 1) := by
    rw [List.map_map, List.findIdxs_start, List.findIdxs_map]
    rfl
  have hkept (k : Nat) : ((tail.filterMap fun p => (f p.2).map (p.1, ·)).map (·.1))[k]? =
      ((tail.findIdxs fun p => (f p.2).isSome).map (· + 1))[k]?.bind
        (Join.before? (tail.map (·.1))) := by
    rw [map_fst_filterMap, List.getElem?_map, getElem?_filter_findIdxs, List.getElem?_map]
    cases (tail.findIdxs fun p => (f p.2).isSome)[k]? with
    | none => rfl
    | some i => simp [Join.before?]
  simp only [filterMap] at h
  rw [items, List.map_cons, List.findIdxs_cons, hshift]
  split at h
  · next b hb =>
    cases h
    rw [hb, Option.isSome_some, if_pos rfl, List.getElem?_cons_succ]
    exact hkept k
  · next j b kept hb heq =>
    cases h
    rw [hb, Option.isSome_none, if_neg Bool.false_ne_true]
    rw [heq] at hkept
    exact hkept (k + 1)
  · cases h

end Joined

/-! ## Filters with gaps -/

namespace Filter

variable {f : Filter} {images : List (Option Condition)} {joins : List Join}

/-- The filter holds the conditions that are there among the `images` of a sequence, each behind
the join that stands in front of its place there. -/
structure Keeps (f : Filter) (images : List (Option Condition)) (joins : List Join) : Prop where
  conditions_eq : f.conditions = images.reduceOption
  condition_at : ∀ k : Nat, f.conditions[k]? =
    (images.findIdxs Option.isSome)[k]?.bind fun i : Nat => images[i]?.join
  join_at : ∀ k : Nat, f.joins[k]? =
    (images.findIdxs Option.isSome)[k + 1]?.bind (Join.before? joins)

theorem keeps_of_filterMap {α : Type} {s : Joined α} {g : α → Option Condition}
    {r : Joined Condition} (hr : s.filterMap g = some r) (hf : ofJoined? r = some f) :
    f.Keeps (s.items.map g) s.joins := by
  cases hf
  have hitems : r.items = (s.items.map g).reduceOption := by
    rw [Joined.items_filterMap hr, List.reduceOption, List.filterMap_map]
    rfl
  refine ⟨hitems, fun k => ?_, Joined.getElem?_joins_filterMap hr⟩
  exact (congrArg (·[k]?) hitems).trans (Joined.getElem?_reduceOption _ k)

theorem of_filterMap {α : Type} (s : Joined α) (g : α → Option Condition) :
    ((s.filterMap g).bind ofJoined? = none ↔ ∀ image ∈ s.items.map g, image = none) ∧
      ∀ f, (s.filterMap g).bind ofJoined? = some f → f.Keeps (s.items.map g) s.joins := by
  constructor
  · rw [List.forall_mem_map, ← Joined.filterMap_eq_none_iff]
    cases s.filterMap g with
    | none => simp
    | some r => simp [ofJoined?, ofConditions?, Joined.items]
  · intro f hf
    obtain ⟨r, hr, hf⟩ := Option.bind_eq_some_iff.1 hf
    exact keeps_of_filterMap hr hf

theorem Keeps.concat_none (h : f.Keeps images joins) (hlength : images.length ≤ joins.length + 1)
    (join : Join) : f.Keeps (images ++ [none]) (joins ++ [join]) := by
  have hplaces : (images ++ [none]).findIdxs Option.isSome = images.findIdxs Option.isSome := by
    simp [List.findIdxs_append]
  have hlt {i k : Nat} (hi : (images.findIdxs Option.isSome)[k]? = some i) : i < images.length :=
    (List.mem_findIdxs_iff_exists_getElem_pos.1 (List.mem_of_getElem? hi)).1
  refine ⟨?_, fun k => ?_, fun k => ?_⟩
  · rw [h.conditions_eq, List.reduceOption_append, List.reduceOption_cons_of_none,
      List.reduceOption_nil, List.append_nil]
  · rw [h.condition_at, hplaces]
    cases hi : (images.findIdxs Option.isSome)[k]? with
    | none => rfl
    | some i => simp only [Option.bind_some, List.getElem?_append_left (hlt hi)]
  · rw [h.join_at, hplaces]
    cases hi : (images.findIdxs Option.isSome)[k + 1]? with
    | none => rfl
    | some i =>
      have := hlt hi
      cases i with
      | zero => rfl
      | succ i =>
        have hi : i < joins.length := by omega
        simp only [Option.bind_some, Join.before?, List.getElem?_append_left hi]

end Filter

/-! ## Previews -/

theorem Draft.isSome_condition? (d : Draft) : d.condition?.isSome = d.isComplete := by
  cases hd : d.isComplete with
  | true =>
    obtain ⟨c, hc, -⟩ := condition?_of_isComplete hd
    rw [hc, Option.isSome_some]
  | false =>
    rw [Option.isSome_eq_false_iff, Option.isNone_iff_eq_none]
    by_contra hne
    obtain ⟨c, hc⟩ := Option.ne_none_iff_exists'.1 hne
    rw [isComplete_of_condition? hc] at hd
    cases hd

namespace TypingState

variable {catalog : Catalog} {t : Text} {s : TypingState} {f : Filter}

/-- Whether the last draft counts if it is complete. -/
def settled (s : TypingState) : Bool :=
  s.isConfirmed || (s.selector.isNone && !s.drafts.last.waitingForValueTo)

def images (s : TypingState) : List (Option Condition) :=
  s.drafts.items.mapIdx fun i d =>
    if i + 1 < s.drafts.items.length || s.settled then d.condition? else none

theorem preview_eq (h : ofText? catalog t = some s) :
    s.preview = (settledConditions? s.drafts s.settled).bind Filter.ofJoined? := by
  obtain ⟨-, base, first, -, rfl⟩ := ofText?_eq_some h
  unfold ofDrafts
  split
  · rfl
  · split <;> rfl

theorem images_of_settled (h : s.settled = true) :
    s.images = s.drafts.items.map Draft.condition? := by
  refine List.ext_getElem? fun i => ?_
  simp [images, h]

theorem images_of_not_settled (h : s.settled = false) {init : List (Join × Draft)} {join : Join}
    (htail : s.drafts.tail = init ++ [(join, s.drafts.last)]) :
    s.images = (Joined.mk s.drafts.head init).items.map Draft.condition? ++ [none] := by
  have hitems : s.drafts.items = (Joined.mk s.drafts.head init).items ++ [s.drafts.last] := by
    simp [Joined.items, htail]
  rw [images, hitems, List.mapIdx_concat]
  congr 1
  · refine List.ext_getElem? fun i => ?_
    by_cases hi : i < (Joined.mk s.drafts.head init).items.length
    · simp [hi]
    · simp [Nat.le_of_not_lt hi]
  · simp [h]

theorem getElem?_images {i : Nat} {d : Draft} (hd : s.drafts.items[i]? = some d) :
    (∃ c, s.images[i]? = some (some c)) ↔
      d.isComplete = true ∧ (i + 1 < s.drafts.items.length ∨ s.settled = true) := by
  simp [images, hd, ← d.isSome_condition?, Option.isSome_iff_exists, and_comm]

theorem tail_ne_nil (h : ofText? catalog t = some s) : s.drafts.tail ≠ [] := by
  obtain ⟨hcount, base, first, -, rfl⟩ := ofText?_eq_some h
  rw [drafts_ofDrafts, ← List.length_pos_iff, Draft.length_ofSegments, List.length_pos_iff]
  exact Joined.countJoins_ne_zero_iff.1 hcount

theorem joins_drafts (h : ofText? catalog t = some s) :
    s.drafts.joins = (Joined.ofText t).joins := by
  obtain ⟨-, base, first, -, rfl⟩ := ofText?_eq_some h
  rw [drafts_ofDrafts]
  exact Draft.joins_ofSegments _ _

/-- The preview keeps the conditions of the drafts that count, and there is none without one. -/
theorem preview_images (h : ofText? catalog t = some s) :
    (s.preview = none ↔ ∀ image ∈ s.images, image = none) ∧
      ∀ f, s.preview = some f → f.Keeps s.images s.drafts.joins := by
  rw [preview_eq h]
  cases hsettled : s.settled with
  | true =>
    rw [settledConditions?, if_pos rfl, images_of_settled hsettled]
    exact Filter.of_filterMap s.drafts Draft.condition?
  | false =>
    obtain ⟨init, join, htail⟩ := Joined.exists_init (tail_ne_nil h)
    have hinit : s.drafts.tail.dropLast = init := by rw [htail, List.dropLast_concat]
    have hjoins : s.drafts.joins = (Joined.mk s.drafts.head init).joins ++ [join] := by
      simp [Joined.joins, htail]
    rw [settledConditions?, if_neg Bool.false_ne_true, hinit,
      images_of_not_settled hsettled htail, hjoins]
    obtain ⟨hnone, hkeeps⟩ := Filter.of_filterMap (Joined.mk s.drafts.head init) Draft.condition?
    refine ⟨?_, fun f hf => (hkeeps f hf).concat_none ?_ join⟩
    · simpa only [List.forall_mem_append, List.forall_mem_singleton, and_true] using hnone
    · rw [List.length_map, Joined.length_joins]

end TypingState

/-! ## Confirmed searches -/

namespace Confirmed

variable {catalog : Catalog} {t : Text} {f : Filter}

/-- The column that the first segment passes on to the others. -/
def column? (catalog : Catalog) (segments : Joined Text) : Option Column :=
  (Condition.ofText? none catalog segments.head).map (·.column)

/-- A confirmed search keeps the conditions of its segments. -/
theorem exists_segments (h : read? catalog t = some f) :
    ∃ body r, trimEnd t = body ++ Confirmation.mark ∧
      (Joined.ofText body).filterMap
        (Condition.ofText? (column? catalog (Joined.ofText body)) catalog) = some r ∧
      Filter.ofJoined? r = some f := by
  unfold read? at h
  split at h
  · cases h
  · obtain ⟨body, hbody, h⟩ := Option.bind_eq_some_iff.1 h
    obtain ⟨r, hr, h⟩ := Option.bind_eq_some_iff.1 h
    split at h
    · cases h
    · exact ⟨body, r, dropEnding?_eq_some_iff.1 hbody, hr, h⟩

/-- The filter of a confirmed search begins with the condition of the first segment. If that
segment is no condition by itself it is dropped, and all conditions of the filter name their own
columns. -/
theorem first_of_read? (h : read? catalog t = some f) :
    ∃ body, trimEnd t = body ++ Confirmation.mark ∧
      f.conditions.head? = some f.primary ∧
      (∀ c, Condition.ofText? none catalog (Joined.ofText body).head = some c → f.primary = c) ∧
      (Condition.ofText? none catalog (Joined.ofText body).head = none →
        ∀ c ∈ f.conditions, ∃ p ∈ (Joined.ofText body).tail,
          Condition.ofText? none catalog p.2 = some c) := by
  obtain ⟨body, r, hbody, hr, hf⟩ := exists_segments h
  cases hf
  refine ⟨body, hbody, rfl, fun c hc => ?_, fun hnone c hc => ?_⟩
  · have hitems := Joined.items_filterMap hr
    rw [Joined.items, Joined.items, List.filterMap_cons,
      Condition.ofText?_of_none hc] at hitems
    exact (List.cons.inj hitems).1
  · obtain ⟨x, hx, hxc⟩ := Joined.exists_of_mem_filterMap hr hc
    rw [column?, hnone, Option.map_none] at hxc
    rcases List.mem_cons.1 hx with rfl | hx
    · cases hnone.symm.trans hxc
    · obtain ⟨p, hp, rfl⟩ := List.mem_map.1 hx
      exact ⟨p, hp, hxc⟩

/-- A search whose first segment names a column that is not there. -/
theorem first_of_read?_unread : ∃ f,
    read? [⟨"stock".toList, [], true, .number⟩]
      "#bogus 5 #and #stock #gt 10 #or #stock #lt 50##".toList = some f ∧
    ∃ body, trimEnd "#bogus 5 #and #stock #gt 10 #or #stock #lt 50##".toList =
        body ++ Confirmation.mark ∧
      f.conditions.head? = some f.primary ∧
      (∀ c, Condition.ofText? none [⟨"stock".toList, [], true, .number⟩]
        (Joined.ofText body).head = some c → f.primary = c) ∧
      (Condition.ofText? none [⟨"stock".toList, [], true, .number⟩] (Joined.ofText body).head =
          none →
        ∀ c ∈ f.conditions, ∃ p ∈ (Joined.ofText body).tail,
          Condition.ofText? none [⟨"stock".toList, [], true, .number⟩] p.2 = some c) := by
  obtain ⟨f, hf⟩ := Option.isSome_iff_exists.1
    (show (read? [⟨"stock".toList, [], true, .number⟩]
      "#bogus 5 #and #stock #gt 10 #or #stock #lt 50##".toList).isSome = true by decide +kernel)
  exact ⟨f, hf, first_of_read? hf⟩

/-- A confirmed search can be read although its first segment is no condition by itself. -/
theorem exists_unread_first : ∃ f body,
    read? [⟨"stock".toList, [], true, .number⟩] (body ++ Confirmation.mark) = some f ∧
      Condition.ofText? none [⟨"stock".toList, [], true, .number⟩] (Joined.ofText body).head =
        none := by
  have hread : (read? [⟨"stock".toList, [], true, .number⟩]
      ("#bogus 5 #and #stock #gt 10 #or #stock #lt 50".toList ++ Confirmation.mark)).isSome =
        true := by decide +kernel
  obtain ⟨f, hf⟩ := Option.isSome_iff_exists.1 hread
  exact ⟨f, _, hf, by decide +kernel⟩

end Confirmed

/-- A search in both of its stages. A confirmed text spells segments and joins in front of its
confirmation, and the filter keeps the conditions of these segments. In a state of the typing the
joins are those of the text, and the preview keeps the conditions of the complete drafts, the last
of them only if the state is settled. There is a preview unless nothing is kept. -/
theorem Filter.keeps_of_text (catalog : Catalog) (t : Text) :
    (∀ f, Confirmed.read? catalog t = some f →
      ∃ body, trimEnd t = body ++ Confirmation.mark ∧ (Joined.ofText body).Spells body ∧
        f.Keeps ((Joined.ofText body).items.map
            (Condition.ofText? (Confirmed.column? catalog (Joined.ofText body)) catalog))
          (Joined.ofText body).joins) ∧
    ∀ s, TypingState.ofText? catalog t = some s →
      (Joined.ofText t).Spells t ∧ s.drafts.joins = (Joined.ofText t).joins ∧
      (∀ i d, s.drafts.items[i]? = some d → ((∃ c, s.images[i]? = some (some c)) ↔
        d.isComplete = true ∧ (i + 1 < s.drafts.items.length ∨ s.settled = true))) ∧
      (s.preview = none ↔ ∀ image ∈ s.images, image = none) ∧
      ∀ f, s.preview = some f → f.Keeps s.images s.drafts.joins := by
  constructor
  · intro f hf
    obtain ⟨body, r, hbody, hr, hfilter⟩ := Confirmed.exists_segments hf
    exact ⟨body, hbody, Joined.spells_ofText body, keeps_of_filterMap hr hfilter⟩
  · intro s hs
    exact ⟨Joined.spells_ofText t, TypingState.joins_drafts hs,
      fun i d => TypingState.getElem?_images, TypingState.preview_images hs⟩

/-- Segments are dropped at the start and in the middle of a confirmed search, and in the middle
and at the end of one that is being typed. -/
theorem Filter.keeps_of_text_gaps : ∃ f s g,
    Confirmed.read? [⟨"price".toList, [], true, .number⟩]
      "#huh 1 #and #price #gt 3 #or #huh 2 #and #price #lt 9##".toList = some f ∧
    (∃ body, trimEnd "#huh 1 #and #price #gt 3 #or #huh 2 #and #price #lt 9##".toList =
        body ++ Confirmation.mark ∧ (Joined.ofText body).Spells body ∧
      f.Keeps ((Joined.ofText body).items.map (Condition.ofText?
          (Confirmed.column? [⟨"price".toList, [], true, .number⟩] (Joined.ofText body))
          [⟨"price".toList, [], true, .number⟩])) (Joined.ofText body).joins) ∧
    TypingState.ofText? [⟨"price".toList, [], true, .number⟩]
      "#price #gt 3 #or #huh 2 #and #lt 9 #or #price #inRange 5 #to".toList = some s ∧
    s.preview = some g ∧ g.Keeps s.images s.drafts.joins := by
  obtain ⟨f, hf⟩ := Option.isSome_iff_exists.1
    (show (Confirmed.read? [⟨"price".toList, [], true, .number⟩]
      "#huh 1 #and #price #gt 3 #or #huh 2 #and #price #lt 9##".toList).isSome = true by
        decide +kernel)
  have hstate : ((TypingState.ofText? [⟨"price".toList, [], true, .number⟩]
      "#price #gt 3 #or #huh 2 #and #lt 9 #or #price #inRange 5 #to".toList).any
        (·.preview.isSome)) = true := by decide +kernel
  obtain ⟨s, hs, hsome⟩ := (Option.any_eq_true _ _).1 hstate
  obtain ⟨g, hg⟩ := Option.isSome_iff_exists.1 hsome
  exact ⟨f, s, g, hf, (keeps_of_text _ _).1 f hf, hs, hg,
    ((keeps_of_text _ _).2 s hs).2.2.2.2 g hg⟩

end HashtagSearch
