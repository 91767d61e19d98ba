import HashtagSearch.Proofs.Catalog.Checking

/-!
# The first fault of a catalog

Three rules hold for the field of a column, blanks at its ends aside: it is not empty, it is a
word of the search language, and it differs in small letters from the fields of the columns
before it. The check names the first column that breaks a rule, and of several rules that it
breaks the first. Which catalogs pass does not depend on the order of their columns.
-/

namespace HashtagSearch

open Text

/-- The rules for the field of a column by itself. -/
structure Column.Sound (c : Column) : Prop where
  ne_nil : trim c.field ≠ []
  no_blank : ∀ x ∈ trim c.field, isBlank x = false
  no_hash : '#' ∉ trim c.field
  not_reserved : ∀ word ∈ Catalog.reservedWords, sameIgnoringCase (trim c.field) word = false

namespace Catalog

variable {catalog rest before after : Catalog} {c : Column} {index : Nat} {seen other : List Text}
  {fault : Fault}

/-! ## Rules -/

theorem isUntypeable_eq_false_iff {field : Text} : isUntypeable field = false ↔
    (∀ x ∈ field, isBlank x = false) ∧ '#' ∉ field ∧
      ∀ word ∈ reservedWords, sameIgnoringCase field word = false := by
  simp [isUntypeable, and_assoc]

theorem hasWord_iff_sound : c.HasWord ↔ c.Sound := by
  rw [Column.HasWord, isUntypeable_eq_false_iff]
  constructor
  · rintro ⟨hne, hblank, hhash, hreserved⟩
    exact ⟨hne, hblank, hhash, hreserved⟩
  · intro h
    exact ⟨h.ne_nil, h.no_blank, h.no_hash, h.not_reserved⟩

/-- The fault of a column at a place behind columns with the fields `seen`: of the rules that
it breaks, the first. -/
inductive Offends (index : Nat) (seen : List Text) (c : Column) : Fault → Prop
  | empty : trim c.field = [] → Offends index seen c (.emptyField index)
  | invalid : trim c.field ≠ [] → ¬ c.Sound → Offends index seen c (.invalidField (trim c.field))
  | duplicate : c.Sound → c.key ∈ seen → Offends index seen c (.duplicateField (trim c.field))

theorem not_offends_iff (index : Nat) :
    (∀ fault, ¬ Offends index seen c fault) ↔ c.Sound ∧ c.key ∉ seen := by
  constructor
  · intro h
    have hne : trim c.field ≠ [] := fun hempty => h _ (.empty hempty)
    have hsound : c.Sound := by
      by_contra hbad
      exact h _ (.invalid hne hbad)
    exact ⟨hsound, fun hseen => h _ (.duplicate hsound hseen)⟩
  · rintro ⟨hsound, hnew⟩ fault hfault
    cases hfault with
    | empty hempty => exact hsound.ne_nil hempty
    | invalid _ hbad => exact hbad hsound
    | duplicate _ hseen => exact hnew hseen

/-- The order of the columns before one is of no account for its fault. -/
theorem Offends.congr (h : Offends index seen c fault) (hseen : ∀ t, t ∈ seen → t ∈ other) :
    Offends index other c fault := by
  cases h with
  | empty hempty => exact .empty hempty
  | invalid hne hbad => exact .invalid hne hbad
  | duplicate hsound hmem => exact .duplicate hsound (hseen _ hmem)

/-! ## The check -/

theorem checkFrom_of_offends (h : Offends index seen c fault) :
    checkFrom index seen (c :: rest) = some fault := by
  cases h with
  | empty hempty => simp [checkFrom, hempty]
  | invalid hne hbad =>
    have hword : isUntypeable (trim c.field) = true := by
      by_contra hword
      exact hbad (hasWord_iff_sound.1 ⟨hne, by simpa using hword⟩)
    simp [checkFrom, hne, hword]
  | duplicate hsound hseen =>
    obtain ⟨hne, hword⟩ := hasWord_iff_sound.2 hsound
    have hlower : lower (trim c.field) ∈ seen := hseen
    simp [checkFrom, hne, hword, hlower]

theorem checkFrom_of_sound (hsound : c.Sound) (hnew : c.key ∉ seen) :
    checkFrom index seen (c :: rest) = checkFrom (index + 1) (c.key :: seen) rest := by
  obtain ⟨hne, hword⟩ := hasWord_iff_sound.2 hsound
  have hlower : lower (trim c.field) ∉ seen := hnew
  simp [checkFrom, hne, hword, hlower, Column.key]

theorem checkFrom_append (h : checkFrom index seen before = none) :
    checkFrom index seen (before ++ rest) =
      checkFrom (index + before.length) ((before.map Column.key).reverse ++ seen) rest := by
  induction before generalizing index seen with
  | nil => rfl
  | cons c before ih =>
    obtain ⟨hword, hnew, hbefore⟩ := checkFrom_cons_eq_none.1 h
    have hindex : index + 1 + before.length = index + (before.length + 1) := by omega
    rw [List.cons_append, checkFrom_of_sound (hasWord_iff_sound.1 hword) hnew, ih hbefore, hindex]
    simp

theorem exists_offends_of_checkFrom (h : checkFrom index seen catalog = some fault) :
    ∃ before c after, catalog = before ++ c :: after ∧ checkFrom index seen before = none ∧
      Offends (index + before.length) ((before.map Column.key).reverse ++ seen) c fault := by
  induction catalog generalizing index seen with
  | nil => cases h
  | cons c rest ih =>
    by_cases hgood : c.Sound ∧ c.key ∉ seen
    · rw [checkFrom_of_sound hgood.1 hgood.2] at h
      obtain ⟨before, d, after, rfl, hbefore, hd⟩ := ih h
      refine ⟨c :: before, d, after, rfl, ?_, ?_⟩
      · rwa [checkFrom_of_sound hgood.1 hgood.2]
      · have hindex : index + 1 + before.length = index + (before.length + 1) := by omega
        rw [hindex] at hd
        simpa using hd
    · rw [← not_offends_iff index] at hgood
      push Not at hgood
      obtain ⟨other, hother⟩ := hgood
      rw [checkFrom_of_offends hother] at h
      cases h
      exact ⟨[], c, rest, rfl, rfl, hother⟩

theorem check_append_of_some (rest : Catalog) (h : before.check = some fault) :
    Catalog.check (before ++ rest) = some fault := by
  obtain ⟨first, c, after, rfl, hfirst, hc⟩ := exists_offends_of_checkFrom h
  rw [check, List.append_assoc, checkFrom_append hfirst]
  exact checkFrom_of_offends hc

/-! ## Places of faults -/

/-- The column at a place has the fault, taken with the columns before it. -/
def FaultAt (catalog : Catalog) (i : Nat) (fault : Fault) : Prop :=
  ∃ c, catalog[i]? = some c ∧ Offends i ((catalog.take i).map Column.key) c fault

theorem check_of_faultAt {i : Nat} (h : FaultAt catalog i fault)
    (hbefore : Catalog.check (catalog.take i) = none) : catalog.check = some fault := by
  obtain ⟨c, hc, hfault⟩ := h
  obtain ⟨hi, rfl⟩ := List.getElem?_eq_some_iff.1 hc
  have hlength : (catalog.take i).length = i := List.length_take_of_le (Nat.le_of_lt hi)
  have hsplit : catalog = catalog.take i ++ catalog[i] :: catalog.drop (i + 1) := by simp
  rw [hsplit, check, checkFrom_append hbefore, hlength]
  apply checkFrom_of_offends
  rw [Nat.zero_add]
  exact hfault.congr (by simp)

theorem exists_faultAt_of_check (h : catalog.check = some fault) :
    ∃ i, FaultAt catalog i fault ∧ Catalog.check (catalog.take i) = none := by
  obtain ⟨before, c, after, rfl, hbefore, hc⟩ := exists_offends_of_checkFrom h
  rw [Nat.zero_add] at hc
  refine ⟨before.length, ⟨c, by simp, ?_⟩, ?_⟩
  · rw [List.take_left]
    exact hc.congr (by simp)
  · rwa [List.take_left]

theorem faultAt_take_iff {i j : Nat} (hj : j < i) :
    FaultAt (catalog.take i) j fault ↔ FaultAt catalog j fault := by
  rw [FaultAt, FaultAt, List.getElem?_take_of_lt hj, List.take_take,
    Nat.min_eq_left (Nat.le_of_lt hj)]

theorem check_take_eq_none_iff {i : Nat} : Catalog.check (catalog.take i) = none ↔
    ∀ j < i, ∀ fault, ¬ FaultAt catalog j fault := by
  constructor
  · intro h j hj fault hfault
    cases hbefore : Catalog.check (catalog.take j) with
    | none =>
      have htake : (catalog.take i).take j = catalog.take j := by
        rw [List.take_take, Nat.min_eq_left (Nat.le_of_lt hj)]
      have hsome := check_of_faultAt ((faultAt_take_iff hj).2 hfault) (htake ▸ hbefore)
      rw [h] at hsome
      cases hsome
    | some first =>
      have hinitial : catalog.take j <+: catalog.take i :=
        List.take_prefix_take_left (Nat.le_of_lt hj)
      obtain ⟨rest, hrest⟩ := hinitial
      have hsome := check_append_of_some rest hbefore
      rw [hrest, h] at hsome
      cases hsome
  · intro h
    by_contra hsome
    obtain ⟨fault, hsome⟩ := Option.ne_none_iff_exists'.1 hsome
    obtain ⟨j, hfault, -⟩ := exists_faultAt_of_check hsome
    have hj : j < i := by
      obtain ⟨c, hc, -⟩ := hfault
      obtain ⟨hj, -⟩ := List.getElem?_eq_some_iff.1 hc
      exact Nat.lt_of_lt_of_le hj (List.length_take_le _ _)
    exact h j hj fault ((faultAt_take_iff hj).1 hfault)

/-- A catalog passes its check exactly when every field is a word by itself and no two are the
same in small letters, so in any order of its columns. Any other catalog has the fault of the
first column that breaks a rule, taken with those before it. -/
theorem check_finds_first (catalog : Catalog) :
    (catalog.check = none ↔ (∀ c ∈ catalog, c.Sound) ∧ (catalog.map Column.key).Nodup) ∧
    (∀ other : Catalog, catalog.Perm other → (catalog.check = none ↔ other.check = none)) ∧
    ∀ fault, catalog.check = some fault ↔
      ∃ i, FaultAt catalog i fault ∧ ∀ j < i, ∀ earlier, ¬ FaultAt catalog j earlier := by
  have hpass (catalog : Catalog) : catalog.check = none ↔
      (∀ c ∈ catalog, c.Sound) ∧ (catalog.map Column.key).Nodup := by
    simp only [check_eq_none_iff, hasWord_iff_sound]
  refine ⟨hpass catalog, fun other hperm => ?order, fun fault => ?first⟩
  case order =>
    rw [hpass, hpass, (hperm.map Column.key).nodup_iff]
    simp only [hperm.mem_iff]
  case first =>
    constructor
    · intro h
      obtain ⟨i, hfault, hbefore⟩ := exists_faultAt_of_check h
      exact ⟨i, hfault, check_take_eq_none_iff.1 hbefore⟩
    · rintro ⟨i, hfault, hbefore⟩
      exact check_of_faultAt hfault (check_take_eq_none_iff.2 hbefore)

/-- Two columns change places without harm. Of three faults the first is found: a field with
other letters than an earlier one, in front of a keyword and of an empty field. -/
theorem check_finds_first_mixed : ∃ id name same keyword empty : Column,
    id = ⟨"id".toList, [], true, .number⟩ ∧ name = ⟨" Name ".toList, [], true, .text⟩ ∧
    same = ⟨"nAME".toList, [], true, .text⟩ ∧ keyword = ⟨"And".toList, [], true, .text⟩ ∧
    empty = ⟨"  ".toList, [], true, .text⟩ ∧
    List.Perm [id, name] [name, id] ∧ Catalog.check [id, name] = none ∧
    Catalog.check [name, id] = none ∧
    ∃ i, FaultAt [id, name, same, keyword, empty] i (.duplicateField "nAME".toList) ∧
      ∀ j < i, ∀ earlier, ¬ FaultAt [id, name, same, keyword, empty] j earlier := by
  refine ⟨_, _, _, _, _, rfl, rfl, rfl, rfl, rfl, List.Perm.swap _ _ _, ?_, ?_, ?_⟩
  · decide +kernel
  · rw [← (check_finds_first _).2.1 _ (List.Perm.swap _ _ [])]
    decide +kernel
  · rw [← (check_finds_first _).2.2]
    decide +kernel

end Catalog

end HashtagSearch
