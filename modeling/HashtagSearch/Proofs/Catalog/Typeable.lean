import HashtagSearch.Pattern
import HashtagSearch.Proofs.Catalog.Checking
import HashtagSearch.Proofs.Continuation
import HashtagSearch.Proofs.Flat.Reading
import HashtagSearch.Proofs.Tokens
import HashtagSearch.Proofs.Values.Ends

/-!
# Columns that can be typed

The field of a column of a catalog without faults is one token, and no join. Picking the
column, an operator that it takes and a word as the value gives the filter with that one
condition, unless an earlier column is displayed by the same name: the first one that answers
to a name is meant.
-/

namespace HashtagSearch

open Text

/-- The field is written as it is compared, and no mark or keyword begins in it. -/
structure Column.Unmarked (c : Column) : Prop where
  trim_eq : trim c.field = c.field
  no_parenthesis : c.field.head? ≠ some '(' ∧ c.field.head? ≠ some ')'
  no_colon : ':' ∉ c.field
  no_keyword : ∀ join rest, dropWord? (Join.keyword join).toList c.field = some rest →
    rest ≠ [] → startsWithWordChar rest = true

/-- A value without the characters that part a search; every alphanumeric word is one. -/
structure Text.BareWord (t : Text) : Prop where
  ne_nil : t ≠ []
  bare : ∀ x ∈ t, isBlank x = false ∧ x ≠ '#' ∧ x ≠ ':' ∧ x ≠ '-'

/-! ## The field as a token -/

namespace Token

variable {name : Text}

theorem ofText_hashtag (hn : Segment.IsName name)
    (hp : name.head? ≠ some '(' ∧ name.head? ≠ some ')') :
    ofText ('#' :: name) = [.hashtag name] := by
  have hproper : Proper (.hashtag name) := ⟨hn, hp⟩
  have hread := ofText_displayAll ⟨by simpa using hproper, List.isChain_singleton _⟩
  rwa [displayAll_singleton] at hread

end Token

/-! ## The value -/

namespace Text.BareWord

variable {v : Text}

theorem not_mem (h : BareWord v) : '#' ∉ v ∧ ':' ∉ v ∧ '-' ∉ v :=
  ⟨fun hx => (h.bare _ hx).2.1 rfl, fun hx => (h.bare _ hx).2.2.1 rfl,
    fun hx => (h.bare _ hx).2.2.2 rfl⟩

theorem plain (h : BareWord v) : Plain v where
  ne_nil := h.ne_nil
  trim_eq := trim_of_no_blank fun x hx => (h.bare x hx).1
  no_hash := h.not_mem.1
  one_line hx := absurd (h.bare _ hx).1 (by decide)

theorem read?_eq_none (h : BareWord v) (confirmed : Bool) :
    ValueRange.read? v confirmed = none := by
  have hmark : ValueRange.splitAtMark? [] v = none :=
    ValueRange.splitAtMark?_of_no_hash h.not_mem.1
  have hhyphen : ValueRange.splitAtHyphen? v = none := by
    by_contra hsome
    obtain ⟨⟨low, high⟩, hsome⟩ := Option.ne_none_iff_exists'.1 hsome
    exact h.not_mem.2.2 (by simp [ValueRange.splitAtHyphen?_eq_some hsome])
  rw [ValueRange.read?, h.plain.trim_eq, hmark, hhyphen]
  cases confirmed <;> rfl

end Text.BareWord

/-! ## Searches on a picked column -/

namespace Column

variable {before after : Catalog} {c : Column}

theorem Unmarked.isName (hc : c.Unmarked) (h : c.HasWord) : Segment.IsName c.field := by
  have hblank := Catalog.no_blank_of_hasWord h hc.trim_eq
  obtain ⟨hne, hword⟩ := h
  rw [hc.trim_eq] at hne hword
  refine ⟨hne, fun x hx => ?_⟩
  have hhash : x ≠ '#' := by
    rintro rfl
    simp [Catalog.isUntypeable, hx] at hword
  simp [Token.isNameChar, hblank x hx, hhash]

/-- A field that is longer than a keyword is none. -/
theorem Unmarked.read?_field (hc : c.Unmarked) (h : c.HasWord) :
    Join.read? ('#' :: c.field) = none := by
  have hafter (join : Join) : join.afterKeyword? ('#' :: c.field) = none := by
    by_contra hsome
    obtain ⟨rest, hsome⟩ := Option.ne_none_iff_exists'.1 hsome
    obtain ⟨hdrop, hend⟩ := Join.afterKeyword?_eq_some_iff.1 hsome
    rw [dropWord?, if_pos rfl] at hdrop
    by_cases hrest : rest = []
    · obtain ⟨m, hm, hsame⟩ := dropWord?_eq_some hdrop
      rw [hrest, List.append_nil] at hm
      have hreserved : Catalog.isUntypeable (trim c.field) = true := by
        rw [hc.trim_eq, hm, Catalog.isUntypeable, Bool.or_eq_true]
        right
        cases join <;> simp [Catalog.reservedWords, sameIgnoringCase, hsame, Join.keyword]
      rw [h.2] at hreserved
      cases hreserved
    · rw [hc.no_keyword join rest hdrop hrest] at hend
      cases hend
  rw [Join.read?, hafter, hafter]
  rfl

theorem Unmarked.countJoins_field (hc : c.Unmarked) (h : c.HasWord) :
    countJoins ('#' :: c.field) = 0 :=
  Joined.countJoins_of_whole (hc.isName h).whole (hc.read?_field h)

theorem Unmarked.typeable {catalog : Catalog} (hc : c.Unmarked) (h : c.HasWord)
    (hresolve : catalog.resolve? c.field = some c) : c.Typeable catalog :=
  ⟨hresolve, hc.isName h, hc.no_parenthesis.1, hc.countJoins_field h⟩

theorem Typeable.writable {catalog : Catalog} (hc : c.Typeable catalog) {o : Operator}
    (ho : o.supports c.valueType = true) {v : Text} (hv : BareWord v) :
    (Condition.on c o v).Writable catalog where
  field_eq := rfl
  column := hc
  supported := ho
  value := hv.plain
  valueTo := nofun
  whole_value _ _ := hv.read?_eq_none true

theorem display_on (o : Operator) (v : Text) : (Condition.on c o v).display =
    c.pattern .space ++ '#' :: o.name.toList ++ ' ' :: v := by
  simp [Condition.display, Condition.operand, Condition.on, pattern, PatternMode.ending]

theorem colon_not_mem_display (hc : ':' ∉ c.field) (o : Operator) {v : Text} (hv : BareWord v) :
    ':' ∉ (Condition.on c o v).display := by
  simp [Condition.display, Condition.operand, Condition.on, hc, o.colon_not_mem_name,
    hv.not_mem.2.1]

/-- In a catalog without faults the field of a column is one token and no join. The token
names the column, and with an operator and a word it gives the filter with that condition,
exactly when no earlier column is displayed by that field. -/
theorem pattern_typeable_iff (hcheck : Catalog.check (before ++ c :: after) = none)
    (hc : c.Unmarked) :
    Token.ofText (c.pattern .bare) = [.hashtag c.field] ∧ countJoins (c.pattern .bare) = 0 ∧
      ((Catalog.resolve? (before ++ c :: after) c.field = some c ∧
          ∀ (o : Operator) (v : Text), o.supports c.valueType = true → BareWord v →
            Outcome.ofText (before ++ c :: after) none
              (c.pattern .space ++ '#' :: o.name.toList ++ ' ' :: v ++ Confirmation.mark) =
                .filter (Filter.single (.on c o v))) ↔
        ∀ d ∈ before, lower d.displayName ≠ lower c.field) := by
  have hword : c.HasWord := (Catalog.check_eq_none_iff.1 hcheck).1 c (by simp)
  have hbare : c.pattern .bare = '#' :: c.field := List.append_nil _
  rw [hbare, ← Catalog.resolve?_field_iff hcheck hc.trim_eq]
  refine ⟨Token.ofText_hashtag (hc.isName hword) hc.no_parenthesis, hc.countJoins_field hword,
    And.left, fun hresolve => ⟨hresolve, fun o v ho hv => ?_⟩⟩
  have hwritable := (hc.typeable hword hresolve).writable ho hv
  rw [← display_on]
  exact hwritable.ofText_single (colon_not_mem_display hc.no_colon o hv) none

/-- A field that begins with the letters of a keyword, behind a column with another name. -/
theorem pattern_typeable_iff_order :
    Catalog.check [⟨"title".toList, "Title".toList, true, .text⟩,
      ⟨"order".toList, [], true, .number⟩] = none ∧
    Unmarked ⟨"order".toList, [], true, .number⟩ ∧
    Token.ofText "#order".toList = [.hashtag "order".toList] ∧ countJoins "#order".toList = 0 ∧
    Catalog.resolve? [⟨"title".toList, "Title".toList, true, .text⟩,
      ⟨"order".toList, [], true, .number⟩] "order".toList =
        some ⟨"order".toList, [], true, .number⟩ ∧
    ∀ (o : Operator) (v : Text), o.supports .number = true → BareWord v →
      Outcome.ofText [⟨"title".toList, "Title".toList, true, .text⟩,
          ⟨"order".toList, [], true, .number⟩] none
        ("#order ".toList ++ '#' :: o.name.toList ++ ' ' :: v ++ Confirmation.mark) =
          .filter (Filter.single (.on ⟨"order".toList, [], true, .number⟩ o v)) := by
  have hcheck : Catalog.check ([⟨"title".toList, "Title".toList, true, .text⟩] ++
      ⟨"order".toList, [], true, .number⟩ :: []) = none := by decide +kernel
  have hc : Unmarked ⟨"order".toList, [], true, .number⟩ := by
    refine ⟨by decide, by decide, by decide, fun join rest hdrop _ => ?_⟩
    cases join with
    | and => cases hdrop
    | or =>
      obtain rfl := Option.some.inj hdrop
      decide
  obtain ⟨htoken, hcount, hiff⟩ := pattern_typeable_iff hcheck hc
  obtain ⟨hresolve, houtcome⟩ := hiff.2 (by decide +kernel)
  exact ⟨hcheck, hc, htoken, hcount, hresolve, houtcome⟩

/-- A catalog without faults can have a column that its field does not name, since an earlier
one is displayed by it, or a field that is read as a mark, as a join or as the shorthand. -/
theorem exists_untypeable :
    (Catalog.check [⟨"title".toList, "name".toList, true, .text⟩,
        ⟨"name".toList, [], true, .text⟩] = none ∧
      Catalog.resolve? [⟨"title".toList, "name".toList, true, .text⟩,
        ⟨"name".toList, [], true, .text⟩] "name".toList ≠ some ⟨"name".toList, [], true, .text⟩) ∧
    (Catalog.check [⟨"(a".toList, [], true, .text⟩] = none ∧
      Token.ofText (pattern ⟨"(a".toList, [], true, .text⟩ .bare) ≠ [.hashtag "(a".toList]) ∧
    (Catalog.check [⟨" name".toList, [], true, .text⟩] = none ∧
      Token.ofText (pattern ⟨" name".toList, [], true, .text⟩ .bare) ≠
        [.hashtag " name".toList]) ∧
    (Catalog.check [⟨"and-x".toList, [], true, .text⟩] = none ∧
      countJoins (pattern ⟨"and-x".toList, [], true, .text⟩ .bare) ≠ 0) ∧
    (Catalog.check [⟨"a:b".toList, [], true, .text⟩] = none ∧
      (Outcome.ofText [⟨"a:b".toList, [], true, .text⟩] none
        (pattern ⟨"a:b".toList, [], true, .text⟩ .space ++ "#equals x##".toList)).filter?.isSome =
          false) := by
  decide +kernel

end Column

end HashtagSearch
