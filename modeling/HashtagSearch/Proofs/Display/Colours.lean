import HashtagSearch.Display.Listing
import HashtagSearch.Display.Search
import HashtagSearch.Proofs.Display.Sequences
import HashtagSearch.Proofs.Json.Printing

/-!
# Colours leave the text as it is

A reader that takes the sequences for renditions out of what is written with colours finds what
is written without them. Neither the texts of a search, a catalog or a row nor what is put around
them hold the escape that starts a sequence; a JSON value in a cell holds none in any case.
-/

namespace HashtagSearch

open Text

/-! ## Searches -/

namespace Display

/-- The texts of a condition that are shown. -/
def conditionTexts (c : Condition) : List Text := [c.field, c.value] ++ c.valueTo.toList

/-- The texts of the conditions of a filter. -/
def filterTexts (f : Filter) : List Text :=
  (f.primary :: f.conditions ++ (f.group.map Group.leaves).getD []).flatMap conditionTexts

/-- The texts of a draft that are shown. -/
def draftTexts (d : Draft) : List Text := d.field.toList ++ d.value.toList ++ d.valueTo.toList

/-- The texts of an outcome that are shown. -/
def outcomeTexts : Outcome → List Text
  | .empty | .unresolved => []
  | .freeText t => [t]
  | .filter f => filterTexts f
  | .typing s => s.drafts.items.flatMap draftTexts

variable {c : Condition} {f : Filter} {d : Draft}

theorem unescaped_joinBefore (joins : List Join) (i : Nat) : (joinBefore joins i).Unescaped := by
  cases i with
  | zero => exact unescaped_nil
  | succ i =>
    rw [joinBefore]
    cases joins[i]? with
    | none => exact unescaped_nil
    | some join => cases join <;> decide

theorem unescaped_operator (o : Operator) : ∀ name ∈ o.names, Unescaped name := by
  cases o <;> decide

@[simp] theorem unescaped_operator_name (o : Operator) : Unescaped o.name.toList :=
  unescaped_operator o _ (by simp [Operator.names])

theorem shows_heading {title : String} (h : Unescaped title.toList) :
    Shows (heading true title) (heading false title) :=
  ((h.shows.wrap .green).wrap .bold).line

theorem shows_header {t : Text} (h : t.Unescaped) :
    Shows (Table.header true t) (Table.header false t) :=
  (h.shows.wrap .dimmed).line

theorem shows_conditionHeader : Shows (conditionHeader true) (conditionHeader false) :=
  shows_header (by decide)

theorem unescaped_conditionLine {marker join field operator value valueTo : Text}
    (hmarker : marker.Unescaped) (hjoin : join.Unescaped) (hfield : field.Unescaped)
    (hoperator : operator.Unescaped) (hvalue : value.Unescaped) (hvalueTo : valueTo.Unescaped) :
    (conditionLine marker join field operator value valueTo).Unescaped := by
  rw [conditionLine, Table.unescaped_line]
  apply Table.unescaped_row
  have hclipped := Table.unescaped_clip 16 hfield
  have hclipped' := Table.unescaped_clip 16 hvalue
  simp [hmarker, hjoin, hoperator, hvalueTo, hclipped, hclipped']

theorem unescaped_conditionLines (joins : List Join) {conditions : List Condition}
    (h : ∀ c ∈ conditions, ∀ t ∈ conditionTexts c, t.Unescaped) :
    (conditionLines joins conditions).Unescaped := by
  apply unescaped_flatMap
  rintro ⟨c, i⟩ hc
  have htexts := h c (List.fst_mem_of_mem_zipIdx hc)
  apply unescaped_conditionLine (unescaped_ofNat _) (unescaped_joinBefore joins i)
    (htexts _ (by simp [conditionTexts])) (unescaped_operator_name _)
    (htexts _ (by simp [conditionTexts]))
  cases hto : c.valueTo with
  | none => exact unescaped_nil
  | some high => exact htexts _ (by simp [conditionTexts, hto])

theorem unescaped_conditionText (h : ∀ t ∈ conditionTexts c, t.Unescaped) :
    (conditionText c).Unescaped := by
  apply unescaped_joinWith (by decide)
  simp only [conditionTexts, List.forall_mem_append, List.forall_mem_cons] at h
  cases hto : c.valueTo with
  | none => simp [h]
  | some high =>
    have hhigh : high.Unescaped := h.2 high (by simp [hto])
    simp [h, hhigh]

theorem unescaped_indentation (depth : Nat) : (indentation depth).Unescaped :=
  unescaped_replicate (by decide)

theorem shows_joinText (j : Join) : Shows (joinText true j) (joinText false j) := by
  have hname : Unescaped j.name.toList := by cases j <;> decide
  exact hname.shows.wrap .bold

mutual

/-- The lines of a tree hold only the texts of its leaves. -/
theorem shows_groupLines (depth : Nat) (g : Group)
    (h : ∀ c ∈ g.leaves, ∀ t ∈ conditionTexts c, t.Unescaped) :
    Shows (groupLines true depth g) (groupLines false depth g) := by
  match g with
  | ⟨join, nodes, isExplicit⟩ =>
    have hkind : Unescaped (groupKind isExplicit).toList := by cases isExplicit <;> decide
    rw [groupLines, groupLines]
    refine Shows.append (Shows.line (Shows.append (Shows.append ?_ ?_) hkind.shows)) ?_
    · exact (unescaped_indentation depth).shows
    · exact shows_joinText join
    · exact shows_nodeLines (depth + 1) nodes (by simpa only [Group.leaves] using h)

theorem shows_nodeLines (depth : Nat) (nodes : List Expression)
    (h : ∀ c ∈ leavesOf nodes, ∀ t ∈ conditionTexts c, t.Unescaped) :
    Shows (nodeLines true depth nodes) (nodeLines false depth nodes) := by
  match nodes with
  | [] => exact unescaped_nil.shows
  | .condition c :: nodes =>
    simp only [leavesOf, Expression.leaves, List.forall_mem_append] at h
    have hline := unescaped_conditionText (h.1 c (List.mem_singleton_self c))
    rw [nodeLines, nodeLines]
    refine Shows.append (Shows.line (Shows.append ?_ hline.shows)) ?_
    · exact (unescaped_indentation depth).shows
    · exact shows_nodeLines depth nodes h.2
  | .group g :: nodes =>
    simp only [leavesOf, Expression.leaves, List.forall_mem_append] at h
    rw [nodeLines, nodeLines]
    exact (shows_groupLines depth g h.1).append (shows_nodeLines depth nodes h.2)

end

theorem shows_filter (h : ∀ t ∈ filterTexts f, t.Unescaped) :
    Shows (filter true f) (filter false f) := by
  have htexts : ∀ c ∈ f.primary :: f.conditions ++ (f.group.map Group.leaves).getD [],
      ∀ t ∈ conditionTexts c, t.Unescaped :=
    fun c hc t ht => h t (List.mem_flatMap.2 ⟨c, hc, ht⟩)
  simp only [List.cons_append, List.forall_mem_cons, List.forall_mem_append] at htexts
  obtain ⟨hprimary, hconditions, hleaves⟩ := htexts
  rw [filter, filter]
  refine (shows_heading (by decide)).append ?_
  split
  · next g hgroup hflat =>
    rw [hgroup] at hleaves
    exact shows_groupLines 0 g hleaves
  · have hshown : ∀ c ∈ if f.conditions.isEmpty then [f.primary] else f.conditions,
        ∀ t ∈ conditionTexts c, t.Unescaped := by
      split
      · simpa using hprimary
      · exact hconditions
    have hmark : Unescaped (if f.isExplicitOperator then [] else "(shorthand)\n".toList) := by
      split <;> decide
    have hlines := unescaped_conditionLines f.joins hshown
    exact (shows_conditionHeader.append hlines.shows).append hmark.shows

theorem unescaped_draftLine (s : TypingState) (i : Nat) (h : ∀ t ∈ draftTexts d, t.Unescaped) :
    (draftLine s d i).Unescaped := by
  simp only [draftTexts, List.forall_mem_append, Option.mem_toList] at h
  obtain ⟨⟨hfield, hvalue⟩, hvalueTo⟩ := h
  apply unescaped_conditionLine
  · split <;> simp
  · exact unescaped_joinBefore _ _
  · cases hf : d.field with
    | none => simp
    | some field => exact hfield field hf
  · cases d.operator with
    | none => simp
    | some o => exact unescaped_operator_name o
  · cases hv : d.value with
    | none => simp
    | some value => exact hvalue value hv
  · split
    · simp
    · cases hv : d.valueTo with
      | none => simp
      | some value => exact hvalueTo value hv

theorem unescaped_labelled {label : String} {t : Text} (hlabel : Unescaped label.toList)
    (h : t.Unescaped) : (labelled label t).Unescaped := by
  simp [labelled, hlabel, h]

theorem unescaped_typingLines (s : TypingState) : (typingLines s).Unescaped := by
  have hselector : Unescaped (selectorName s.selector).toList := by
    rcases s.selector with - | - | - | - <;> decide
  have hconfirmed : Unescaped (if s.isConfirmed then "yes" else "no").toList := by
    cases s.isConfirmed <;> decide
  have hpreview : (previewText s.preview).Unescaped := by
    cases s.preview <;> simp [previewText]
  simp only [typingLines, unescaped_append]
  exact ⟨⟨⟨by decide, unescaped_labelled (by decide) hselector⟩,
    unescaped_labelled (by decide) hconfirmed⟩, unescaped_labelled (by decide) hpreview⟩

theorem unescaped_draftLines {s : TypingState}
    (h : ∀ t ∈ s.drafts.items.flatMap draftTexts, t.Unescaped) : (draftLines s).Unescaped := by
  apply unescaped_flatMap
  rintro ⟨d, i⟩ hd
  apply unescaped_draftLine
  exact fun t ht => h t (List.mem_flatMap.2 ⟨d, List.fst_mem_of_mem_zipIdx hd, ht⟩)

theorem shows_typing {s : TypingState}
    (h : ∀ t ∈ s.drafts.items.flatMap draftTexts, t.Unescaped) :
    Shows (typing true s) (typing false s) := by
  have hheading : Shows (heading true "Typing") (heading false "Typing") :=
    shows_heading (by decide)
  exact ((hheading.append shows_conditionHeader).append (unescaped_draftLines h).shows).append
    (unescaped_typingLines s).shows

theorem shows_outcome {o : Outcome} (h : ∀ t ∈ outcomeTexts o, t.Unescaped) :
    Shows (outcome true o) (outcome false o) := by
  cases o with
  | empty | unresolved => exact Unescaped.shows (by decide)
  | freeText t =>
    have ht : t.Unescaped := h t (List.mem_singleton_self t)
    exact (unescaped_labelled (by decide) ht).shows
  | filter f => exact shows_filter h
  | typing s => exact shows_typing h

end Display

/-! ## Lists -/

namespace Display

/-- The texts of a row that are shown: its keys and the strings in its cells. -/
def rowTexts (row : Row) : List Text :=
  row.flatMap fun (key, cell) =>
    match cell with
    | .string s => [key, s]
    | _ => [key]

variable {catalog : Catalog} {row : Row}

theorem unescaped_label {c : Column} (h : ∀ t ∈ c.names, t.Unescaped) : c.label.Unescaped := by
  unfold Column.label
  split
  · exact h _ (by simp [Column.names])
  · exact h _ (by simp [Column.names])

theorem shows_typeText (t : ValueType) : Shows (typeText true t) (typeText false t) := by
  have hname : Unescaped t.name.toList := by cases t <;> decide
  cases t with
  | text => exact hname.shows
  | number | date | boolean => exact hname.shows.wrap _

/-- The name is at the head of the padded text, and the blanks hold no second one. -/
theorem typeCell_true (width : Nat) (t : ValueType) : typeCell true width t =
    typeText true t ++ List.replicate (width - t.name.toList.length) ' ' := by
  have hname : ∃ c rest, t.name.toList = c :: rest ∧ c ≠ ' ' := by
    cases t <;> exact ⟨_, _, rfl, by decide⟩
  obtain ⟨c, rest, hname, hc⟩ := hname
  have hblanks : c ∉ List.replicate (width - t.name.toList.length) ' ' :=
    fun h => hc (List.eq_of_mem_replicate h)
  calc typeCell true width t
    _ = replace (c :: rest) (typeText true t)
          (c :: rest ++ List.replicate (width - t.name.toList.length) ' ') := by
        rw [← hname]
        rfl
    _ = _ := replace_append_of_not_mem hblanks _

theorem shows_typeCell (width : Nat) (t : ValueType) :
    Shows (typeCell true width t) (typeCell false width t) := by
  rw [typeCell_true]
  exact (shows_typeText t).append (unescaped_replicate (by decide)).shows

theorem shows_columnLine {c : Column} (h : ∀ t ∈ c.names, t.Unescaped) :
    Shows (columnLine true c) (columnLine false c) := by
  have hfield : c.field.Unescaped := h _ (by simp [Column.names])
  have hpattern : (c.pattern .colon).Unescaped := by
    simp [Column.pattern, PatternMode.ending, hfield]
  have hcells (colours : Bool) : columnLine colours c = Table.line (joinWith [' ']
      [padRight 16 (Table.clip 16 c.field), padRight 20 (Table.clip 20 c.label),
        typeCell colours 8 c.valueType, c.pattern .colon]) := by
    simp [columnLine, Table.row, padRight]
  rw [hcells, hcells]
  refine (shows_joinWith (by decide) (.cons ?_ (.cons ?_ (.cons ?_ (.cons ?_ .nil))))).line
  · exact (unescaped_padRight.2 (Table.unescaped_clip 16 hfield)).shows
  · exact (unescaped_padRight.2 (Table.unescaped_clip 20 (unescaped_label h))).shows
  · exact shows_typeCell 8 c.valueType
  · exact hpattern.shows

theorem shows_columns {cs : List Column} (h : ∀ t ∈ cs.flatMap Column.names, t.Unescaped) :
    Shows (columns true cs) (columns false cs) := by
  cases cs with
  | nil => exact Unescaped.shows (by decide)
  | cons c cs =>
    refine (shows_header (by decide)).append (shows_flatMap fun d hd => shows_columnLine ?_)
    exact fun t ht => h t (List.mem_flatMap.2 ⟨d, hd, ht⟩)

theorem unescaped_operatorLine (o : Operator) : (operatorLine o).Unescaped := by
  cases o <;> simp only [operatorLine, Table.unescaped_line] <;> decide

theorem shows_operators (os : List Operator) : Shows (operators true os) (operators false os) := by
  cases os with
  | nil => exact Unescaped.shows (by decide)
  | cons o os =>
    have hlines : Unescaped ((o :: os).flatMap operatorLine) :=
      unescaped_flatMap fun o _ => unescaped_operatorLine o
    exact (shows_header (by decide)).append hlines.shows

theorem unescaped_rowText {cells : List Text} (h : ∀ t ∈ cells, t.Unescaped) :
    (rowText cells).Unescaped := by
  apply Unescaped.trimEnd
  apply unescaped_joinWith (by decide)
  intro t ht
  obtain ⟨cell, hcell, rfl⟩ := List.mem_map.1 ht
  exact unescaped_padRight.2 (Table.unescaped_clip 18 (h cell hcell))

theorem unescaped_cellText (h : ∀ t ∈ rowTexts row, t.Unescaped) (field : Text) :
    (cellText (Json.lookup? field row)).Unescaped := by
  cases hcell : Json.lookup? field row with
  | none => exact unescaped_nil
  | some v =>
    obtain ⟨⟨key, v'⟩, hfind, rfl⟩ := Option.map_eq_some_iff.1 hcell
    have hmem := List.mem_of_find?_eq_some hfind
    cases v' with
    | null => exact unescaped_nil
    | string s => exact h s (List.mem_flatMap.2 ⟨_, hmem, by simp⟩)
    | bool | number | array | object => exact Json.unescaped_compact _

theorem unescaped_shownFields (hcatalog : ∀ t ∈ catalog.flatMap Column.names, t.Unescaped)
    (hrow : ∀ t ∈ rowTexts row, t.Unescaped) :
    ∀ t ∈ (shownFields catalog row).map (·.2), t.Unescaped := by
  unfold shownFields
  split
  · intro t ht
    simp only [List.map_map, List.mem_map] at ht
    obtain ⟨⟨key, v⟩, hmem, rfl⟩ := ht
    exact hrow key (List.mem_flatMap.2 ⟨_, hmem, by cases v <;> simp⟩)
  · intro t ht
    simp only [List.map_map, List.mem_map] at ht
    obtain ⟨c, hc, rfl⟩ := ht
    exact unescaped_label fun t ht => hcatalog t (List.mem_flatMap.2 ⟨c, hc, ht⟩)

theorem shows_rows {rs : List Row}
    (h : ∀ t ∈ catalog.flatMap Column.names ++ rs.flatMap rowTexts, t.Unescaped) :
    Shows (rows true catalog rs) (rows false catalog rs) := by
  cases rs with
  | nil =>
    have hnone : Unescaped "No matching rows.\n".toList := by decide
    exact hnone.shows
  | cons first rest =>
    obtain ⟨hcatalog, hrows⟩ := List.forall_mem_append.1 h
    have hrow : ∀ row ∈ first :: rest, ∀ t ∈ rowTexts row, t.Unescaped :=
      fun row hrow t ht => hrows t (List.mem_flatMap.2 ⟨row, hrow, ht⟩)
    have hcount : Unescaped
        ('\n' :: (ofNat (rest.length + 1) ++ " row(s)\n".toList)) := by simp
    have hlines : Unescaped
        ((first :: rest).flatMap (rowLine (shownFields catalog first))) := by
      refine unescaped_flatMap fun row hmem => Table.unescaped_line.2 (unescaped_rowText ?_)
      intro t ht
      obtain ⟨⟨field, heading⟩, -, rfl⟩ := List.mem_map.1 ht
      exact unescaped_cellText (hrow row hmem) field
    have hheadings := unescaped_shownFields hcatalog (hrow first List.mem_cons_self)
    exact ((shows_header (unescaped_rowText hheadings)).append hlines.shows).append hcount.shows

/-- Without the sequences for renditions, what is written with colours is what is written
without them: for a search of any shape, for columns, operators and rows whose texts hold no
escape. -/
theorem withoutStyles_eq_uncoloured :
    (∀ o : Outcome, (∀ t ∈ outcomeTexts o, t.Unescaped) →
      withoutStyles (outcome true o) = outcome false o) ∧
    (∀ cs : List Column, (∀ t ∈ cs.flatMap Column.names, t.Unescaped) →
      withoutStyles (columns true cs) = columns false cs) ∧
    (∀ os : List Operator, withoutStyles (operators true os) = operators false os) ∧
    ∀ (catalog : Catalog) (rs : List Row),
      (∀ t ∈ catalog.flatMap Column.names ++ rs.flatMap rowTexts, t.Unescaped) →
      withoutStyles (rows true catalog rs) = rows false catalog rs := by
  refine ⟨?_, ?_, ?_, ?_⟩
  · intro o h
    exact (shows_outcome h).withoutStyles_eq
  · intro cs h
    exact (shows_columns h).withoutStyles_eq
  · intro os
    exact (shows_operators os).withoutStyles_eq
  · intro catalog rs h
    exact (shows_rows h).withoutStyles_eq

/-- A tree with a group in it, a column whose type has a colour, and a row with an escape in an
array, where it is printed with a backslash. -/
theorem withoutStyles_eq_uncoloured_tree : ∃ (price : Column) (c : Condition) (o : Outcome)
    (row : Row), price = ⟨"price".toList, "Price of a single piece".toList, true, .number⟩ ∧
    c = .on price .inRange "1".toList (some "20".toList) ∧
    o = .filter { Filter.single c with
      group := some
        ⟨.and, [.condition c, .group ⟨.or, [.condition c, .condition c], true⟩], false⟩ } ∧
    row = [("price".toList, .string "4.50 each, in packs of six".toList),
      ("tags".toList, .array [.string "\x1b[1m".toList])] ∧
    (∀ t ∈ outcomeTexts o, t.Unescaped) ∧
    outcome true o ≠ outcome false o ∧
    withoutStyles (outcome true o) = outcome false o ∧
    (∀ t ∈ [price].flatMap Column.names, t.Unescaped) ∧
    columns true [price] ≠ columns false [price] ∧
    withoutStyles (columns true [price]) = columns false [price] ∧
    withoutStyles (operators true [.inRange]) = operators false [.inRange] ∧
    (∀ t ∈ [].flatMap Column.names ++ [row].flatMap rowTexts, t.Unescaped) ∧
    withoutStyles (rows true [] [row]) = rows false [] [row] := by
  obtain ⟨houtcome, hcolumns, hoperators, hrows⟩ := withoutStyles_eq_uncoloured
  refine ⟨_, _, _, _, rfl, rfl, rfl, rfl, ?texts, ?tree, houtcome _ ?texts, ?names, ?type,
    hcolumns _ ?names, hoperators _, ?cells, hrows _ _ ?cells⟩
  all_goals decide +kernel

end Display

end HashtagSearch
