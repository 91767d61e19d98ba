import HashtagSearch.Picker
import HashtagSearch.Proofs.Catalog.Typeable
import HashtagSearch.Proofs.Dispatch
import HashtagSearch.Proofs.Values.Typed

/-!
# Picking an operator

The picker tells from the words in front of a `#` that an operator can stand there and on which
column. The three places where it can are the ones at which the readers of searches read it:
behind a column, where the search is one condition, and in a later condition with or without a
column of its own. So an operator that is picked and a word as its value give a condition on
the column that the picker found.
-/

namespace HashtagSearch

open Text

def Filter.lastCondition (f : Filter) : Condition := f.conditions.getLast?.getD f.primary

/-! ## What the picker looks at -/

theorem Text.splitAtChar?_append {c : Char} {t l r : Text} (h : splitAtChar? c t = some (l, r))
    (u : Text) : splitAtChar? c (t ++ u) = some (l, r ++ u) := by
  induction t generalizing l with
  | nil => cases h
  | cons d t ih =>
    rw [splitAtChar?] at h
    rw [List.cons_append, splitAtChar?]
    split at h
    · next hd =>
      cases h
      rw [if_pos hd]
    · next hd =>
      obtain ⟨⟨l', r'⟩, hsplit, heq⟩ := Option.map_eq_some_iff.1 h
      cases heq
      rw [if_neg hd, ih hsplit]
      rfl

theorem Text.splitAtLast?_eq_some {c : Char} {t p q : Text} (h : splitAtLast? c t = some (p, q)) :
    t = p ++ c :: q := by
  obtain ⟨⟨after, before⟩, hsplit, heq⟩ := Option.map_eq_some_iff.1 h
  cases heq
  have hreverse := congrArg List.reverse (splitAtChar?_eq_some hsplit)
  simpa using hreverse

theorem Text.splitAtLast?_append {c : Char} {t p q : Text} (h : splitAtLast? c t = some (p, q))
    (s : Text) : splitAtLast? c (s ++ t) = some (s ++ p, q) := by
  obtain ⟨⟨after, before⟩, hsplit, heq⟩ := Option.map_eq_some_iff.1 h
  cases heq
  rw [splitAtLast?, List.reverse_append, splitAtChar?_append hsplit, Option.map_some]
  simp

namespace Picker

variable {catalog : Catalog} {t before term word : Text} {ws : List Text} {c : Column}

def beforeHash (t : Text) : Text := ((splitAtLast? '#' t).map (·.1)).getD []

/-- The word that names the column of an operator behind the text. -/
def namingWord? (before : Text) : Option Text :=
  if (words before).getLast?.any Confirmation.isJoinTag then (words before).head?
  else (words before).getLast?

/-- At a place for an operator the text is cut in front of its last `#`. -/
theorem exists_of_operatorTerm? (h : operatorTerm? t = some term) : ∃ before,
    t = before ++ '#' :: term ∧ beforeHash t = before ∧
      splitAtLast? '#' (trimStart t) = some (trimStart before, term) ∧
      (∀ b ∈ before.getLast?, isBlank b = true) ∧ admitsOperator (words before) = true := by
  unfold operatorTerm? at h
  split at h
  · next p q hsplit =>
    split at h
    · next hplace =>
      obtain rfl : q = term := Option.some.inj h
      simp only [Bool.and_eq_true] at hplace
      obtain ⟨⟨-, hend⟩, hwords⟩ := hplace
      obtain ⟨b, hb, hblank⟩ := (Option.any_eq_true _ _).1 hend
      obtain ⟨lead, hlead⟩ := trimStart_isSuffix t
      have hlast : b ∈ (lead ++ p).getLast? := List.mem_getLast?_append_of_mem_getLast? hb
      have hcut := splitAtLast?_append hsplit lead
      rw [hlead] at hcut
      have ht : t = lead ++ p ++ '#' :: q := splitAtLast?_eq_some hcut
      have hfront : trimStart (lead ++ p) = p := by
        have htrim : trimStart t = trimStart (lead ++ p) ++ '#' :: q := by
          conv_lhs => rw [ht]
          exact trimStart_append_of_solidStart ⟨'#', q, rfl, by decide⟩ _
        exact List.append_cancel_right (htrim.symm.trans (splitAtLast?_eq_some hsplit))
      refine ⟨lead ++ p, ht, by rw [beforeHash, hcut]; rfl, by rw [hfront, hsplit], ?_, ?_⟩
      · intro d hd
        rwa [Option.mem_unique hd hlast]
      · rwa [← words_trimStart, hfront]
    · cases h
  · cases h

theorem operatorColumn?_eq (h : operatorTerm? t = some term) :
    operatorColumn? catalog t =
      ((namingWord? (beforeHash t)).bind tagName?).bind catalog.resolve? := by
  obtain ⟨before, -, hbefore, hsplit, -⟩ := exists_of_operatorTerm? h
  rw [hbefore]
  simp only [operatorColumn?, hsplit, Option.bind_eq_bind, Option.bind_some, words_trimStart,
    namingWord?]
  cases hlast : (words before).getLast? with
  | none => rfl
  | some word =>
    rw [Option.any_some, Option.bind_some]
    unfold Confirmation.isJoinTag
    split
    · next name =>
      rw [tagName?, Option.bind_some]
      split <;> rfl
    · next hne =>
      have hname : tagName? word = none := by
        unfold tagName?
        split
        · next name => exact absurd rfl (hne name)
        · rfl
      simp [hname]

/-! ## Places for an operator -/

/-- The texts behind which an operator can stand, with the word that names its column. What
stands in front of a keyword is empty or ends with a blank. -/
inductive Place : Text → Text → Prop
  /-- `#column ` -/
  | first {lead name g : Text} : AllBlank lead → Segment.IsName name → Segment.IsGap g →
      Place (lead ++ ('#' :: name ++ g)) ('#' :: name)
  /-- `… #and ` -/
  | sameColumn {front keyword g word : Text} {join : Join} :
      (∀ b ∈ front.getLast?, isBlank b = true) → Join.ofKeyword? keyword = some join →
      Segment.IsGap g → (words front).head? = some word →
      Place (front ++ ('#' :: keyword ++ g)) word
  /-- `… #and #column ` -/
  | otherColumn {front keyword g name g' : Text} {join : Join} :
      (∀ b ∈ front.getLast?, isBlank b = true) → Join.ofKeyword? keyword = some join →
      Segment.IsGap g → Segment.IsName name → Segment.IsGap g' →
      Place (front ++ ('#' :: keyword ++ (g ++ ('#' :: name ++ g')))) ('#' :: name)

theorem exists_of_isJoinTag (h : Confirmation.isJoinTag word = true) :
    ∃ keyword join, word = '#' :: keyword ∧ Join.ofKeyword? keyword = some join := by
  unfold Confirmation.isJoinTag at h
  split at h
  · next keyword =>
    obtain ⟨join, hjoin⟩ := Option.isSome_iff_exists.1 h
    exact ⟨keyword, join, rfl, hjoin⟩
  · cases h

theorem exists_of_isTag (h : isTag word = true) (hw : ∀ x ∈ word, isBlank x = false) :
    ∃ name, word = '#' :: name ∧ Segment.IsName name := by
  unfold isTag at h
  split at h
  · next name =>
    simp only [Bool.and_eq_true, Bool.not_eq_true', List.isEmpty_eq_false_iff,
      List.contains_eq_mem, decide_eq_false_iff_not] at h
    refine ⟨name, rfl, h.1, fun x hx => ?_⟩
    have hhash : x ≠ '#' := fun hx' => h.2 (hx' ▸ hx)
    simp [Token.isNameChar, hw x (List.mem_cons_of_mem '#' hx), hhash]
  · cases h

theorem admitsOperator_cases (h : admitsOperator ws = true) : ∃ init word, ws = init ++ [word] ∧
    (Confirmation.isJoinTag word = true ∨ isTag word = true ∧
      (init = [] ∨ ∃ init' tag, init = init' ++ [tag] ∧ Confirmation.isJoinTag tag = true)) := by
  rcases List.eq_nil_or_concat ws with rfl | ⟨init, word, rfl⟩
  · cases h
  · refine ⟨init, word, List.concat_eq_append, ?_⟩
    rcases List.eq_nil_or_concat init with rfl | ⟨init', tag, rfl⟩
    · have hone : isTag word = true ∨ Confirmation.isJoinTag word = true := by
        simpa [admitsOperator] using h
      exact hone.symm.imp_right fun htag => ⟨htag, .inl rfl⟩
    · have hmore : Confirmation.isJoinTag word = true ∨
          isTag word = true ∧ Confirmation.isJoinTag tag = true := by
        simpa [admitsOperator] using h
      exact hmore.imp_right fun ⟨htag, hjoin⟩ =>
        ⟨htag, .inr ⟨init', tag, List.concat_eq_append, hjoin⟩⟩

/-- Where the picker finds a place for an operator there is one, if the naming word is no
keyword. -/
theorem exists_place (hend : ∀ b ∈ before.getLast?, isBlank b = true)
    (hadmits : admitsOperator (words before) = true)
    (hnaming : ∀ word ∈ namingWord? before, countJoins word = 0) :
    ∃ word, namingWord? before = some word ∧ Place before word := by
  obtain ⟨init, word, hwords, hcases⟩ := admitsOperator_cases hadmits
  have hword : ∀ x ∈ word, isBlank x = false :=
    (infix_of_mem_words (t := before) (by simp [hwords])).2
  obtain ⟨p, g, rfl, hg, hp, hfront⟩ := exists_last_word hwords
  by_cases hjoin : Confirmation.isJoinTag word = true
  · obtain ⟨keyword, join, rfl, hkeyword⟩ := exists_of_isJoinTag hjoin
    have hgap := Segment.isGap_of_getLast? (List.cons_ne_nil _ _) hword hg hend
    have hname : namingWord? (p ++ ('#' :: keyword ++ g)) = (init ++ ['#' :: keyword]).head? := by
      rw [namingWord?, hwords, List.getLast?_concat, Option.any_some, if_pos hjoin]
    cases init with
    | nil =>
      -- The keyword itself would name the column.
      have hcount := hnaming _ hname
      have hread : Join.read? ('#' :: keyword ++ []) = some (join, []) :=
        Join.read?_of_ofKeyword? hkeyword rfl
      rw [List.append_nil, Join.read?_of_countJoins hcount] at hread
      cases hread
    | cons first init =>
      exact ⟨first, hname, .sameColumn hfront hkeyword hgap (by rw [hp]; rfl)⟩
  · obtain ⟨htag, hinit⟩ := hcases.resolve_left hjoin
    obtain ⟨name, rfl, hname⟩ := exists_of_isTag htag hword
    have hgap := Segment.isGap_of_getLast? (List.cons_ne_nil _ _) hword hg hend
    refine ⟨'#' :: name, ?_, ?_⟩
    · rw [namingWord?, hwords, List.getLast?_concat, Option.any_some, if_neg hjoin]
    · rcases hinit with rfl | ⟨init', tag, rfl, htag⟩
      · exact .first (allBlank_of_words hp) hname hgap
      · obtain ⟨keyword, join, rfl, hkeyword⟩ := exists_of_isJoinTag htag
        have hsolid' : ∀ x ∈ '#' :: keyword, isBlank x = false :=
          (infix_of_mem_words (t := p) (by simp [hp])).2
        obtain ⟨front, g', rfl, hg', -, hfront'⟩ := exists_last_word hp
        have hgap' := Segment.isGap_of_getLast? (List.cons_ne_nil _ _) hsolid' hg' hfront
        have hplace := Place.otherColumn hfront' hkeyword hgap' hname hgap
        simpa only [List.append_assoc] using hplace

/-! ## What is picked -/

section Choice

variable {o : Operator} {v name lead g : Text}

def choice (o : Operator) (v : Text) : Text := '#' :: o.name.toList ++ ' ' :: v

theorem choice_eq (o : Operator) (v : Text) :
    choice o v = '#' :: o.name.toList ++ ([' '] ++ v) := rfl

theorem solidStart_choice (o : Operator) (v : Text) : SolidStart (choice o v) :=
  ⟨'#', _, rfl, by decide⟩

theorem read?_choice (o : Operator) (v : Text) : Join.read? (choice o v) = none := by
  rw [choice, Join.read?_append (apart_space v), Operator.read?_name, Option.map_none]

theorem whole_choice (o : Operator) (hv : BareWord v) : Joined.Whole (choice o v) := by
  have hvalue : Joined.Whole (' ' :: v) := Joined.whole_of_no_hash (by simp [hv.not_mem.1])
  exact (Operator.isName_name o).whole.append (apart_space v) hvalue

theorem ungrouped_choice (o : Operator) (hv : BareWord v) : Ungrouped (choice o v) := by
  have hname : Ungrouped ('#' :: o.name.toList) := by cases o <;> rfl
  have hvalue : Ungrouped (' ' :: v) := .of_no_hash (by simp [hv.not_mem.1])
  exact hname.append hvalue (by simp)

theorem colon_not_mem_choice (o : Operator) (hv : BareWord v) : ':' ∉ choice o v := by
  simp [choice, o.colon_not_mem_name, hv.not_mem.2.1]

theorem ofTrimmed?_bareWord (c : Column) (o : Operator) (hv : BareWord v) :
    Condition.ofTrimmed? c o (Confirmation.strip v) = some (.on c o v) := by
  rw [hv.plain.strip_eq]
  exact Condition.ofTrimmed?_of_whole hv.ne_nil (Confirmation.holdsTag_of_no_hash hv.not_mem.1 _)
    fun _ => hv.read?_eq_none true

theorem ofText?_choice (hg : AllBlank g) (ho : o.supports c.valueType = true) (hv : BareWord v) :
    Condition.ofText? (some c) catalog (g ++ choice o v) = some (.on c o v) := by
  have htrim : trim (g ++ choice o v) = choice o v := by
    rw [trim_append_of_allBlank hg]
    exact trim_of_solid (solidStart_choice o v)
      ((hv.plain.solid.2.append [' ']).append ('#' :: o.name.toList))
  have hshape : Segment.ofText (trim (g ++ choice o v)) = .continued o.name.toList v := by
    rw [htrim, choice_eq]
    exact Segment.ofText_continued (Operator.isName_name o) Segment.isGap_space
      hv.plain.fitsValue
  rw [Condition.ofText?_continued hshape, Operator.resolve?_name ho, Option.bind_some,
    ofTrimmed?_bareWord c o hv]

theorem ofText?_name_choice (hlead : AllBlank lead) (hname : Segment.IsName name)
    (hg : Segment.IsGap g) (hc : catalog.resolve? name = some c)
    (ho : o.supports c.valueType = true) (hv : BareWord v) (defaultColumn : Option Column) :
    Condition.ofText? defaultColumn catalog (lead ++ ('#' :: name ++ (g ++ choice o v))) =
      some (.on c o v) := by
  have hend : SolidEnd ('#' :: name ++ (g ++ choice o v)) :=
    (((hv.plain.solid.2.append [' ']).append ('#' :: o.name.toList)).append g).append ('#' :: name)
  have htrim : trim (lead ++ ('#' :: name ++ (g ++ choice o v))) =
      '#' :: name ++ (g ++ choice o v) := by
    rw [trim_append_of_allBlank hlead]
    exact trim_of_solid ⟨'#', _, rfl, by decide⟩ hend
  have hshape : Segment.ofText (trim (lead ++ ('#' :: name ++ (g ++ choice o v)))) =
      .explicit name o.name.toList v := by
    rw [htrim, choice_eq]
    exact Segment.ofText_explicit hname hg (Operator.isName_name o) Segment.isGap_space
      hv.plain.fitsValue
  have hresolve : Condition.resolve? catalog name o.name.toList = some (c, o) := by
    rw [Condition.resolve?, hc, Option.bind_some, Operator.resolve?_name ho, Option.map_some]
  rw [Condition.ofText?_explicit hshape, hresolve, Option.bind_some]
  exact ofTrimmed?_bareWord c o hv

end Choice

/-! ## The search -/

section Search

variable {o : Operator} {v name lead g front keyword x z : Text} {join : Join} {c₀ : Condition}
  {init : List (Join × Text)}

theorem apart_gap (hg : Segment.IsGap g) (z : Text) : Apart (g ++ z) := by
  obtain ⟨b, g, rfl⟩ := List.exists_cons_of_ne_nil hg.1
  exact .of_blank (hg.2 b List.mem_cons_self) (g ++ z)

theorem whole_name_gap (hname : Segment.IsName name) (hjoin : countJoins ('#' :: name) = 0)
    (hg : Segment.IsGap g) (hz : Joined.Whole z) (hr : Join.read? z = none) :
    Joined.Whole ('#' :: name ++ (g ++ z)) ∧ Join.read? ('#' :: name ++ (g ++ z)) = none := by
  have hapart := apart_gap hg z
  refine ⟨hname.whole.append hapart (hz.blank_append hg.2 hr), ?_⟩
  rw [Join.read?_append hapart, Join.read?_of_countJoins hjoin, Option.map_none]

theorem exists_first_word (h : Condition.ofText? none catalog x = some c₀) (hx : x <+: front) :
    ∃ name, (words front).head? = some ('#' :: name) ∧ catalog.resolve? name = some c₀.column := by
  unfold Condition.ofText? at h
  split at h
  · next name operatorName value hs =>
    obtain ⟨⟨k, o⟩, hresolve, hvalue⟩ := Option.bind_eq_some_iff.1 h
    obtain ⟨k', hk, hmap⟩ := Option.bind_eq_some_iff.1 hresolve
    obtain ⟨o', -, heq⟩ := Option.map_eq_some_iff.1 hmap
    cases heq
    obtain ⟨hcolumn, -⟩ := (Condition.read_of_ofTrimmed? hvalue).2.column_eq
    obtain ⟨g, g', hname, hg, -, -, -, hstrip⟩ := Segment.exists_of_ofText_explicit hs
    obtain ⟨marks, hmarks⟩ := Confirmation.strip_isPrefix x
    have htrim : trim x =
        '#' :: name ++ (g ++ ('#' :: operatorName ++ (g' ++ value) ++ marks)) := by
      rw [← hmarks, hstrip]
      simp only [List.append_assoc]
    exact ⟨name, Segment.head?_words_of_prefix hname hg htrim hx, hcolumn ▸ hk⟩
  · cases h
  · cases h

/-- A confirmed search of which the first and the last segment are conditions is a filter that
ends with the latter. -/
theorem exists_read? {t y : Text} (hcut : Joined.ofText t = ⟨x, init ++ [(join, y)]⟩)
    {d : Condition} (hfirst : Condition.ofText? none catalog x = some c₀)
    (hlast : Condition.ofText? (some c₀.column) catalog y = some d) :
    ∃ f, Confirmed.read? catalog (t ++ Confirmation.mark) = some f ∧ f.lastCondition = d := by
  have hcount : countJoins (t ++ Confirmation.mark) ≠ 0 := by
    rw [countJoins_append_mark, countJoins, hcut]
    simp
  obtain ⟨kept, hkept⟩ := Joined.filterMap_concat
    (Condition.ofText?_of_none hfirst (some c₀.column)) hlast init join
  have hconditions : Confirmed.conditions? catalog (Joined.ofText t) =
      some ⟨c₀, kept ++ [(join, d)]⟩ := by
    rw [Confirmed.conditions?, hcut, hfirst]
    exact hkept
  obtain ⟨f, hf⟩ : ∃ f, Filter.ofJoined? ⟨c₀, kept ++ [(join, d)]⟩ = some f := ⟨_, rfl⟩
  refine ⟨f, ?_, ?_⟩
  · rw [Confirmed.read?, if_neg hcount, Confirmed.body?_append_mark, Option.bind_some, hconditions,
      Option.bind_some, if_neg (by simp), hf]
  · cases hf
    rw [Filter.lastCondition, Joined.items_concat, List.getLast?_concat]
    rfl

theorem ofText_append_mark {t : Text} {f : Filter} (hhash : (trimStart t).head? = some '#')
    (hgroup : Ungrouped (t ++ Confirmation.mark))
    (hread : Confirmed.read? catalog (t ++ Confirmation.mark) = some f) :
    Outcome.ofText catalog none (t ++ Confirmation.mark) = .filter f := by
  obtain ⟨r, hr⟩ := List.head?_eq_some_iff.1 hhash
  have htrim : trim (t ++ Confirmation.mark) = '#' :: (r ++ Confirmation.mark) := by
    rw [Confirmation.trim_append_mark, hr]
    rfl
  have hgroup' : Ungrouped (trim (t ++ Confirmation.mark)) := hgroup.of_infix (trim_isInfix _)
  have hcount : countJoins (t ++ Confirmation.mark) ≠ 0 := by
    intro hzero
    rw [Confirmed.read?, if_pos hzero] at hread
    cases hread
  rw [Outcome.ofText_of_trim htrim, Outcome.ofTagged, hgroup', if_neg Bool.false_ne_true,
    if_pos hcount, if_pos (Confirmation.isConfirmed_append_mark t), hread]
  rfl

/-- An operator that is picked behind a keyword is read as the condition there, if the first
segment is a condition. -/
theorem exists_filter_behind_keyword (hfront : ∀ b ∈ front.getLast?, isBlank b = true)
    (hkeyword : Join.ofKeyword? keyword = some join) (hapart : ∀ u, Apart (z ++ u))
    (hwhole : Joined.Whole z) (hwhole' : Joined.Whole (z ++ choice o v))
    (hfirst : countJoins (front ++ ('#' :: keyword ++ z)) ≠ 0 →
      (Condition.ofText? none catalog
        (Joined.ofText (front ++ ('#' :: keyword ++ z))).head).isSome = true)
    (hlast : ∀ x c₀, x <+: front → Condition.ofText? none catalog x = some c₀ →
      Condition.ofText? (some c₀.column) catalog (z ++ choice o v) = some (.on c o v))
    (hgroup : Ungrouped (front ++ ('#' :: keyword ++ z) ++ choice o v ++ Confirmation.mark)) :
    ∃ f, Outcome.ofText catalog none
        (front ++ ('#' :: keyword ++ z) ++ choice o v ++ Confirmation.mark) = .filter f ∧
      f.lastCondition = .on c o v := by
  obtain ⟨x, init, hx, hcut⟩ := Joined.exists_ofText_keyword hfront hkeyword
  have hbefore := hcut z (List.append_nil z ▸ (hapart []).no_word) hwhole
  have hcount : countJoins (front ++ ('#' :: keyword ++ z)) ≠ 0 := by
    rw [countJoins, hbefore]
    simp
  obtain ⟨c₀, hc₀⟩ := Option.isSome_iff_exists.1 (hfirst hcount)
  rw [hbefore] at hc₀
  have hsplit : front ++ ('#' :: keyword ++ z) ++ choice o v =
      front ++ ('#' :: keyword ++ (z ++ choice o v)) := by simp only [List.append_assoc]
  obtain ⟨name, hword, -⟩ := exists_first_word hc₀
    (hx.trans (List.prefix_append front ('#' :: keyword ++ (z ++ choice o v))))
  obtain ⟨f, hread, hcondition⟩ :=
    exists_read? (hcut _ (hapart _).no_word hwhole') hc₀ (hlast x c₀ hx hc₀)
  rw [hsplit] at hgroup ⊢
  exact ⟨f, ofText_append_mark (head?_trimStart_of_words hword) hgroup hread, hcondition⟩

theorem ofText_first (hlead : AllBlank lead) (hname : Segment.IsName name)
    (hjoin : countJoins ('#' :: name) = 0) (hg : Segment.IsGap g)
    (hc : catalog.resolve? name = some c) (ho : o.supports c.valueType = true) (hv : BareWord v)
    (hcolon : ':' ∉ lead ++ ('#' :: name ++ g))
    (hgroup : Ungrouped (lead ++ ('#' :: name ++ g) ++ choice o v ++ Confirmation.mark)) :
    Outcome.ofText catalog none (lead ++ ('#' :: name ++ g) ++ choice o v ++ Confirmation.mark) =
      .filter (Filter.single (.on c o v)) := by
  have hsplit : lead ++ ('#' :: name ++ g) ++ choice o v =
      lead ++ ('#' :: name ++ (g ++ choice o v)) := by simp only [List.append_assoc]
  obtain ⟨hwhole, hread⟩ := whole_name_gap hname hjoin hg (whole_choice o hv) (read?_choice o v)
  have hstart : SolidStart ('#' :: name ++ (g ++ choice o v)) := ⟨'#', _, rfl, by decide⟩
  apply Outcome.ofText_of_condition
  · rw [Confirmation.trim_append_mark, hsplit, trimStart_append_of_allBlank hlead,
      trimStart_of_solidStart hstart]
    rfl
  · exact hgroup.of_infix (trim_isInfix _)
  · rw [countJoins_append_mark, hsplit]
    exact Joined.countJoins_of_whole (hwhole.blank_append hlead hread)
      (Join.read?_blank_append hlead hread)
  · intro hx
    rcases List.mem_append.1 (mem_of_mem_trim hx) with hx | hx
    · rcases List.mem_append.1 hx with hx | hx
      · exact hcolon hx
      · exact colon_not_mem_choice o hv hx
    · exact absurd hx (by decide)
  · have hend : trim (lead ++ ('#' :: name ++ g) ++ choice o v) =
        Confirmation.strip (lead ++ ('#' :: name ++ g) ++ choice o v) := by
      have hvalue : lead ++ ('#' :: name ++ g) ++ choice o v =
          lead ++ ('#' :: name ++ g) ++ ('#' :: o.name.toList ++ [' ']) ++ v := by simp [choice]
      rw [hvalue, hv.plain.trim_append, hv.plain.strip_append]
    rw [Condition.ofText?_congr ((Confirmation.strip_append_mark _).trans hend), hsplit]
    exact ofText?_name_choice hlead hname hg hc ho hv none

/-- What the picker offers is read on the column that it found: when the text in front of the
last `#` goes on with an operator that is offered there and a bare word, the confirmed search
gives a filter that ends with that condition. -/
theorem exists_filter_of_suggestion (hcolon : ':' ∉ t) (hgroup : Ungrouped t)
    (hterm : operatorTerm? t = some term) (hcolumn : operatorColumn? catalog t = some c)
    (hnaming : ∀ word ∈ namingWord? (beforeHash t), countJoins word = 0)
    (hfirst : countJoins (beforeHash t) ≠ 0 →
      (Condition.ofText? none catalog (Joined.ofText (beforeHash t)).head).isSome = true)
    (ho : o ∈ Operator.suggestions c.valueType term) (hv : BareWord v) :
    ∃ f, Outcome.ofText catalog none
        (beforeHash t ++ ('#' :: o.name.toList ++ ' ' :: v) ++ Confirmation.mark) = .filter f ∧
      f.lastCondition = .on c o v := by
  have hsupports : o.supports c.valueType = true :=
    Operator.mem_ofType.1 (List.mem_of_mem_filter ho)
  rw [operatorColumn?_eq hterm] at hcolumn
  obtain ⟨before, rfl, hbefore, -, hend, hadmits⟩ := exists_of_operatorTerm? hterm
  rw [hbefore] at hcolumn hnaming hfirst ⊢
  have hcolon' : ':' ∉ before := fun hx => hcolon (List.mem_append_left _ hx)
  have hgroup' : Ungrouped (before ++ choice o v ++ Confirmation.mark) := by
    have hungrouped : Ungrouped before := hgroup.of_infix (List.prefix_append _ _).isInfix
    exact (hungrouped.append (ungrouped_choice o hv) (by simp [choice])).append rfl (by decide)
  obtain ⟨word, hword, hplace⟩ := exists_place hend hadmits hnaming
  have hjoin := hnaming word hword
  rw [hword, Option.bind_some] at hcolumn
  cases hplace with
  | first hlead hname hg =>
    exact ⟨_, ofText_first hlead hname hjoin hg hcolumn hsupports hv hcolon' hgroup', rfl⟩
  | sameColumn hfront hkeyword hg hfirstWord =>
    apply exists_filter_behind_keyword hfront hkeyword (apart_gap hg) (Joined.whole_of_blank hg.2)
      ((whole_choice o hv).blank_append hg.2 (read?_choice o v)) hfirst ?_ hgroup'
    -- The first word names the column of the first condition, which is the default.
    intro x c₀ hx hc₀
    obtain ⟨name, hfirstName, hresolve⟩ := exists_first_word hc₀ hx
    obtain rfl : word = '#' :: name := Option.some.inj (hfirstWord.symm.trans hfirstName)
    obtain rfl : c₀.column = c := Option.some.inj (hresolve.symm.trans hcolumn)
    exact ofText?_choice hg.2 hsupports hv
  | @otherColumn front keyword g name g' join hfront hkeyword hg hname hg' =>
    obtain ⟨hwhole, hread⟩ := whole_name_gap hname hjoin hg' Joined.whole_nil rfl
    rw [List.append_nil] at hwhole hread
    obtain ⟨hwhole', hread'⟩ :=
      whole_name_gap hname hjoin hg' (whole_choice o hv) (read?_choice o v)
    have hsplit : g ++ ('#' :: name ++ g') ++ choice o v =
        g ++ ('#' :: name ++ (g' ++ choice o v)) := by simp only [List.append_assoc]
    apply exists_filter_behind_keyword hfront hkeyword
      (fun u => List.append_assoc g _ u ▸ apart_gap hg _) (hwhole.blank_append hg.2 hread)
      (hsplit ▸ hwhole'.blank_append hg.2 hread') hfirst ?_ hgroup'
    intro x c₀ _ _
    rw [hsplit]
    exact ofText?_name_choice hg.2 hname hg' hcolumn hsupports hv _

/-- Behind a join the first column is meant again, whatever stands between. -/
theorem exists_filter_of_suggestion_again :
    ':' ∉ "#stock #gt 10 #or #name #has a #AND #e".toList ∧
    Ungrouped "#stock #gt 10 #or #name #has a #AND #e".toList ∧
    operatorTerm? "#stock #gt 10 #or #name #has a #AND #e".toList = some "e".toList ∧
    operatorColumn? [⟨"stock".toList, [], true, .number⟩, ⟨"name".toList, [], true, .text⟩]
      "#stock #gt 10 #or #name #has a #AND #e".toList =
        some ⟨"stock".toList, [], true, .number⟩ ∧
    (∀ word ∈ namingWord? (beforeHash "#stock #gt 10 #or #name #has a #AND #e".toList),
      countJoins word = 0) ∧
    (Condition.ofText? none
      [⟨"stock".toList, [], true, .number⟩, ⟨"name".toList, [], true, .text⟩]
      (Joined.ofText (beforeHash "#stock #gt 10 #or #name #has a #AND #e".toList)).head).isSome =
        true ∧
    .equals ∈ Operator.suggestions .number "e".toList ∧ BareWord "7".toList ∧
    ∃ f, Outcome.ofText
        [⟨"stock".toList, [], true, .number⟩, ⟨"name".toList, [], true, .text⟩] none
        "#stock #gt 10 #or #name #has a #AND #equals 7##".toList = .filter f ∧
      f.lastCondition = .on ⟨"stock".toList, [], true, .number⟩ .equals "7".toList := by
  have hcolon : ':' ∉ "#stock #gt 10 #or #name #has a #AND #e".toList := by decide
  have hgroup : Ungrouped "#stock #gt 10 #or #name #has a #AND #e".toList := by rfl
  have hterm : operatorTerm? "#stock #gt 10 #or #name #has a #AND #e".toList =
      some "e".toList := by decide
  have hcolumn : operatorColumn?
      [⟨"stock".toList, [], true, .number⟩, ⟨"name".toList, [], true, .text⟩]
      "#stock #gt 10 #or #name #has a #AND #e".toList =
        some ⟨"stock".toList, [], true, .number⟩ := by decide +kernel
  have hnaming : ∀ word ∈ namingWord? (beforeHash "#stock #gt 10 #or #name #has a #AND #e".toList),
      countJoins word = 0 := by decide +kernel
  have hfirst : (Condition.ofText? none
      [⟨"stock".toList, [], true, .number⟩, ⟨"name".toList, [], true, .text⟩]
      (Joined.ofText (beforeHash "#stock #gt 10 #or #name #has a #AND #e".toList)).head).isSome =
        true := by decide +kernel
  have ho : .equals ∈ Operator.suggestions .number "e".toList := by decide +kernel
  have hv : BareWord "7".toList := ⟨by decide, by simp [isBlank]⟩
  have htext : beforeHash "#stock #gt 10 #or #name #has a #AND #e".toList ++
      ('#' :: Operator.equals.name.toList ++ ' ' :: "7".toList) ++ Confirmation.mark =
        "#stock #gt 10 #or #name #has a #AND #equals 7##".toList := by decide +kernel
  have hfilter :=
    exists_filter_of_suggestion hcolon hgroup hterm hcolumn hnaming (fun _ => hfirst) ho hv
  rw [htext] at hfilter
  exact ⟨hcolon, hgroup, hterm, hcolumn, hnaming, hfirst, ho, hv, hfilter⟩

end Search

end Picker

end HashtagSearch
