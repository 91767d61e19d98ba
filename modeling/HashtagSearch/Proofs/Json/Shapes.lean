import HashtagSearch.Proofs.Json.Sameness
import HashtagSearch.Shape

/-!
# Searches read back from JSON

Everything that a search is made of, consistent or not, is decoded again from its JSON shape.
A tree is read node by node: the kind of an expression stands beside the entries of what it is,
and is told apart inside of a node and outside of all.
-/

namespace HashtagSearch

open Json

variable {nesting : Nesting}

/-! ## Names -/

theorem ValueType.readsBack (nesting : Nesting) : ReadsBack toJson (ofJson? nesting) :=
  readsBack_named (fun t => by cases t <;> decide) nesting

theorem Operator.readsBack (nesting : Nesting) : ReadsBack toJson (ofJson? nesting) :=
  readsBack_named (fun o => by cases o <;> decide) nesting

theorem Join.readsBack (nesting : Nesting) : ReadsBack toJson (ofJson? nesting) :=
  readsBack_named (fun j => by cases j <;> decide) nesting

/-! ## Columns and conditions -/

theorem Column.readsBack (nesting : Nesting) : ReadsBack toJson (ofJson? nesting) := by
  intro c v h
  obtain ⟨get, hfields, hget⟩ := h.exists_fields fieldNames
  have hfield : (get "field").bind text? = some c.field := readsBack_text.required hget (by simp)
  have hdisplay : orDefault? [] text? (get "displayName") = some c.displayName :=
    readsBack_text.orDefault hget (by simp) []
  have hsearchable : orDefault? true bool? (get "searchable") = some c.searchable :=
    readsBack_bool.orDefault hget (by simp) true
  have htype : orDefault? .text (ValueType.ofJson? nesting) (get "valueType") =
      some c.valueType :=
    (ValueType.readsBack nesting).orDefault hget (by simp) .text
  simp [ofJson?, hfields, ofFields?, hfield, hdisplay, hsearchable, htype]

theorem Condition.ofJson?_of_same {c : Condition} {more : List (String × Json)} {v : Json}
    (hmore : ∀ name ∈ ["field", "column", "operator", "value", "valueTo"],
      field? name more = none)
    (h : Same (record (more ++ c.entries)) v) (nesting : Nesting) :
    ofJson? nesting v = some c := by
  simp only [List.mem_cons, List.not_mem_nil, or_false, forall_eq_or_imp, forall_eq] at hmore
  obtain ⟨hfield, hcolumn, hoperator, hvalue, hvalueTo⟩ := hmore
  obtain ⟨get, hfields, hget⟩ :=
    h.exists_fields ["field", "column", "operator", "value", "valueTo"]
  have hfield : (get "field").bind text? = some c.field :=
    readsBack_text.required hget (by simp [entries, hfield])
  have hcolumn : (get "column").bind (Column.ofJson? nesting) = some c.column :=
    (Column.readsBack nesting).required hget (by simp [entries, hcolumn])
  have hoperator : (get "operator").bind (Operator.ofJson? nesting) = some c.operator :=
    (Operator.readsBack nesting).required hget (by simp [entries, hoperator])
  have hvalue : (get "value").bind text? = some c.value :=
    readsBack_text.required hget (by simp [entries, hvalue])
  have hvalueTo : optional? text? (get "valueTo") = some c.valueTo :=
    readsBack_text.optional nofun hget (by simp [entries, hvalueTo])
  simp [ofJson?, hfields, hfield, hcolumn, hoperator, hvalue, hvalueTo]

theorem Condition.readsBack (nesting : Nesting) : ReadsBack toJson (ofJson? nesting) := by
  intro c v h
  have hentries : Same (record ([] ++ c.entries)) v := h
  exact ofJson?_of_same (by simp) hentries nesting

/-! ## Trees -/

def NodeKind.toJson : NodeKind → Json
  | condition => ofString "condition"
  | group => ofString "group"

theorem NodeKind.readsBack (nesting : Nesting) : ReadsBack toJson (ofJson? nesting) := by
  intro kind v h
  cases kind <;> (rw [h.eq_string]; rfl)

theorem nodesUnder?_eq (nesting : Nesting) (entries : List (Text × Json)) :
    nodesUnder? nesting entries = (lookup? "nodes".toList entries).bind (nodes? nesting) := by
  induction entries with
  | nil => rfl
  | cons e entries ih =>
    obtain ⟨key, v⟩ := e
    rw [nodesUnder?, lookup?_cons, ih]
    split <;> rfl

mutual

theorem Expression.ofJson?_of_same : ∀ (e : Expression) (nesting : Nesting) {v : Json},
    Same e.toJson v → Expression.ofJson? nesting v = some e
  | .condition c, nesting, v, h => by
    have hentries : Same (record ([("type", NodeKind.condition.toJson)] ++ c.entries)) v := by
      rwa [Expression.toJson] at h
    have hread : Condition.ofJson? .inside v = some c :=
      Condition.ofJson?_of_same (by simp) hentries .inside
    obtain ⟨entries, rfl, hget⟩ := hentries.exists_object
    have hkind : (lookup? "type".toList entries).bind (NodeKind.ofJson? nesting) =
        some .condition :=
      (NodeKind.readsBack nesting).required hget (by simp)
    rw [Expression.ofJson?, hkind]
    simp only [hread, Option.map_some]
  | .group g, nesting, v, h => by
    have hentries : Same (record ([("type", NodeKind.group.toJson)] ++ g.entries)) v := by
      rwa [Expression.toJson] at h
    obtain ⟨entries, rfl, hget⟩ := hentries.exists_object
    have hkind : (lookup? "type".toList entries).bind (NodeKind.ofJson? nesting) = some .group :=
      (NodeKind.readsBack nesting).required hget (by simp)
    rw [Expression.ofJson?, hkind]
    simp only [Group.ofFields?_of_same g .inside (by simp) hget, Option.map_some]

theorem Group.ofFields?_of_same : ∀ (g : Group) (nesting : Nesting)
    {more : List (String × Json)} {entries : List (Text × Json)},
    (∀ name ∈ ["join", "nodes", "isExplicit"], field? name more = none) →
    Holds (fun name => lookup? name.toList entries) (more ++ g.entries) →
    Group.ofFields? nesting (lookup? "join".toList entries) (nodesUnder? nesting entries)
      (lookup? "isExplicit".toList entries) = some g
  | ⟨join, nodes, isExplicit⟩, nesting, more, entries, hmore, hget => by
    simp only [List.mem_cons, List.not_mem_nil, or_false, forall_eq_or_imp, forall_eq] at hmore
    obtain ⟨hjoin, hnodes, hexplicit⟩ := hmore
    have hjoin : (lookup? "join".toList entries).bind (Join.ofJson? nesting) = some join :=
      (Join.readsBack nesting).required hget (by simp [Group.entries, hjoin])
    have hnodes : Option.Rel Same (some (.array (nodesToJson nodes)))
        (lookup? "nodes".toList entries) := by
      have hname := hget "nodes"
      simpa [Group.entries, hnodes] using hname
    have hexplicit : (lookup? "isExplicit".toList entries).bind bool? = some isExplicit :=
      readsBack_bool.required hget (by simp [Group.entries, hexplicit])
    have hread : nodesUnder? nesting entries = some nodes := by
      rw [nodesUnder?_eq]
      generalize lookup? "nodes".toList entries = o at hnodes
      cases hnodes with
      | some hv =>
        obtain ⟨items, rfl, hitems⟩ := hv.exists_array
        exact expressions?_of_same nodes nesting hitems
    rw [Group.ofFields?, hjoin, hread, hexplicit]
    rfl

theorem expressions?_of_same : ∀ (es : List Expression) (nesting : Nesting) {items : List Json},
    List.Forall₂ Same (nodesToJson es) items → expressions? nesting items = some es
  | [], nesting, items, h => by
    rw [nodesToJson, List.forall₂_nil_left_iff] at h
    rw [h, expressions?]
  | e :: es, nesting, items, h => by
    rw [nodesToJson, List.forall₂_cons_left_iff] at h
    obtain ⟨v, rest, hv, hrest, rfl⟩ := h
    rw [expressions?, Expression.ofJson?_of_same e nesting hv, expressions?_of_same es nesting hrest]

end

theorem Expression.readsBack (nesting : Nesting) : ReadsBack toJson (ofJson? nesting) :=
  fun e _ h => ofJson?_of_same e nesting h

theorem Group.readsBack : ReadsBack toJson ofJson? := by
  intro g v h
  obtain ⟨entries, rfl, hget⟩ := h.exists_object
  have hentries : Holds (fun name => lookup? name.toList entries) ([] ++ g.entries) := hget
  exact ofFields?_of_same g .outside (by simp) hentries

/-! ## Filters and drafts -/

theorem Filter.readsBack : ReadsBack toJson ofJson? := by
  intro f v h
  obtain ⟨get, hfields, hget⟩ := h.exists_fields fieldNames
  have hfield : (get "field").bind text? = some f.primary.field :=
    readsBack_text.required hget (by simp [Condition.entries])
  have hcolumn : (get "column").bind (Column.ofJson? .outside) = some f.primary.column :=
    (Column.readsBack .outside).required hget (by simp [Condition.entries])
  have hoperator : (get "operator").bind (Operator.ofJson? .outside) = some f.primary.operator :=
    (Operator.readsBack .outside).required hget (by simp [Condition.entries])
  have hvalue : (get "value").bind text? = some f.primary.value :=
    readsBack_text.required hget (by simp [Condition.entries])
  have hvalueTo : optional? text? (get "valueTo") = some f.primary.valueTo :=
    readsBack_text.optional nofun hget (by simp [Condition.entries])
  have hexplicit : (get "isExplicitOperator").bind bool? = some f.isExplicitOperator :=
    readsBack_bool.required hget (by simp [Condition.entries])
  have hconditions : orDefault? [] (list? (Condition.ofJson? .outside)) (get "conditions") =
      some f.conditions :=
    (Condition.readsBack .outside).list.orDefault hget (by simp [Condition.entries]) []
  have hjoins : orDefault? [] (list? (Join.ofJson? .outside)) (get "joins") = some f.joins :=
    (Join.readsBack .outside).list.orDefault hget (by simp [Condition.entries]) []
  have hcondition : (get "isMultiCondition").bind bool? = some f.isMultiCondition :=
    readsBack_bool.required hget (by simp [Condition.entries])
  have hmulti : (get "isMultiColumn").bind bool? = some f.isMultiColumn :=
    readsBack_bool.required hget (by simp [Condition.entries])
  have hgroup : optional? Group.ofJson? (get "filterGroup") = some f.group :=
    Group.readsBack.optional nofun hget (by simp [Condition.entries])
  simp [ofJson?, hfields, hfield, hcolumn, hoperator, hvalue, hvalueTo, hexplicit, hconditions,
    hjoins, hcondition, hmulti, hgroup]

theorem Draft.readsBack : ReadsBack toJson ofJson? := by
  intro d v h
  obtain ⟨get, hfields, hget⟩ := h.exists_fields
    ["field", "column", "operator", "value", "valueTo", "waitingForValueTo"]
  have hfield : optional? text? (get "field") = some d.field :=
    readsBack_text.optional nofun hget (by simp)
  have hcolumn : optional? (Column.ofJson? .outside) (get "column") = some d.column :=
    (Column.readsBack .outside).optional nofun hget (by simp)
  have hoperator : optional? (Operator.ofJson? .outside) (get "operator") = some d.operator :=
    (Operator.readsBack .outside).optional nofun hget (by simp)
  have hvalue : optional? text? (get "value") = some d.value :=
    readsBack_text.optional nofun hget (by simp)
  have hvalueTo : optional? text? (get "valueTo") = some d.valueTo :=
    readsBack_text.optional nofun hget (by simp)
  have hwaiting : orDefault? false bool? (get "waitingForValueTo") = some d.waitingForValueTo :=
    readsBack_bool.orDefault hget (by simp) false
  simp [ofJson?, hfields, hfield, hcolumn, hoperator, hvalue, hvalueTo, hwaiting]

/-! ## Fields that are left out -/

theorem Condition.optional?_valueTo {nesting : Nesting} {entries : List (Text × Json)}
    {c : Condition} (h : ofJson? nesting (.object entries) = some c) :
    optional? text? (lookup? "valueTo".toList entries) = some c.valueTo := by
  simp only [ofJson?, fields?, Option.bind_eq_bind, Option.bind_some, Option.bind_eq_some_iff,
    Option.pure_def, Option.some.injEq] at h
  obtain ⟨_, _, _, _, _, _, _, _, _, hvalueTo, rfl⟩ := h
  exact hvalueTo

theorem Condition.leavesOut (nesting : Nesting) :
    LeavesOut toJson (ofJson? nesting) "valueTo" valueTo :=
  .of_optional (fun _ => rfl) (fun c hc => by simp [entries, hc]) fun _ _ => optional?_valueTo

def Expression.valueTo : Expression → Option Text
  | condition c => c.valueTo
  | group _ => none

theorem Expression.leavesOut (nesting : Nesting) :
    LeavesOut toJson (ofJson? nesting) "valueTo" valueTo := by
  refine ⟨fun e he entries hentries => ?_, fun entries e habsent hread => ?_⟩
  · cases e with
    | condition c =>
      rw [toJson] at hentries
      have hc : c.valueTo = none := he
      rw [lookup?_of_record hentries]
      simp [Condition.entries, hc]
    | group g =>
      rw [toJson] at hentries
      rw [lookup?_of_record hentries]
      cases g
      simp [Group.entries]
  · rw [ofJson?] at hread
    split at hread
    · obtain ⟨c, hc, rfl⟩ := Option.map_eq_some_iff.1 hread
      exact (Condition.leavesOut .inside).2 entries c habsent hc
    · obtain ⟨g, -, rfl⟩ := Option.map_eq_some_iff.1 hread
      rfl
    · cases hread

theorem Filter.optional?_of_ofJson? {entries : List (Text × Json)} {f : Filter}
    (h : ofJson? (.object entries) = some f) :
    optional? text? (lookup? "valueTo".toList entries) = some f.primary.valueTo ∧
      optional? Group.ofJson? (lookup? "filterGroup".toList entries) = some f.group := by
  simp only [ofJson?, fields?, Option.bind_eq_bind, Option.bind_some, Option.bind_eq_some_iff,
    Option.pure_def, Option.some.injEq] at h
  obtain ⟨_, _, _, _, _, _, _, _, _, hvalueTo, _, _, _, _, _, _, _, _, _, _, _, hgroup, rfl⟩ := h
  exact ⟨hvalueTo, hgroup⟩

theorem Filter.leavesOut :
    LeavesOut toJson ofJson? "valueTo" (·.primary.valueTo) ∧
      LeavesOut toJson ofJson? "filterGroup" group :=
  ⟨.of_optional (fun _ => rfl) (fun f hf => by simp [Condition.entries, hf])
      fun _ _ h => (optional?_of_ofJson? h).1,
    .of_optional (fun _ => rfl) (fun f hf => by simp [Condition.entries, hf])
      fun _ _ h => (optional?_of_ofJson? h).2⟩

theorem Draft.optional?_of_ofJson? {entries : List (Text × Json)} {d : Draft}
    (h : ofJson? (.object entries) = some d) :
    optional? text? (lookup? "field".toList entries) = some d.field ∧
      optional? (Column.ofJson? .outside) (lookup? "column".toList entries) = some d.column ∧
      optional? (Operator.ofJson? .outside) (lookup? "operator".toList entries) =
        some d.operator ∧
      optional? text? (lookup? "value".toList entries) = some d.value ∧
      optional? text? (lookup? "valueTo".toList entries) = some d.valueTo := by
  simp only [ofJson?, fields?, Option.bind_eq_bind, Option.bind_some, Option.bind_eq_some_iff,
    Option.pure_def, Option.some.injEq] at h
  obtain ⟨_, hfield, _, hcolumn, _, hoperator, _, hvalue, _, hvalueTo, _, _, rfl⟩ := h
  exact ⟨hfield, hcolumn, hoperator, hvalue, hvalueTo⟩

theorem Draft.leavesOut :
    LeavesOut toJson ofJson? "field" field ∧ LeavesOut toJson ofJson? "column" column ∧
      LeavesOut toJson ofJson? "operator" operator ∧ LeavesOut toJson ofJson? "value" value ∧
      LeavesOut toJson ofJson? "valueTo" valueTo := by
  refine ⟨.of_optional (fun _ => rfl) ?_ fun _ _ h => (optional?_of_ofJson? h).1,
    .of_optional (fun _ => rfl) ?_ fun _ _ h => (optional?_of_ofJson? h).2.1,
    .of_optional (fun _ => rfl) ?_ fun _ _ h => (optional?_of_ofJson? h).2.2.1,
    .of_optional (fun _ => rfl) ?_ fun _ _ h => (optional?_of_ofJson? h).2.2.2.1,
    .of_optional (fun _ => rfl) ?_ fun _ _ h => (optional?_of_ofJson? h).2.2.2.2⟩
  all_goals
    intro d hd
    simp [hd]

/-- Searches, drafts and all that they are made of are decoded again from their shapes, with the
entries of the objects in any order, and a field without a value is one that is left out. -/
theorem Json.shapes_read_back :
    (ReadsBack Filter.toJson Filter.ofJson? ∧ ReadsBack Group.toJson Group.ofJson? ∧
      ReadsBack Draft.toJson Draft.ofJson? ∧
      ∀ nesting,
        ReadsBack Expression.toJson (Expression.ofJson? nesting) ∧
          ReadsBack Condition.toJson (Condition.ofJson? nesting) ∧
          ReadsBack Column.toJson (Column.ofJson? nesting)) ∧
      (LeavesOut Filter.toJson Filter.ofJson? "valueTo" (·.primary.valueTo) ∧
        LeavesOut Filter.toJson Filter.ofJson? "filterGroup" Filter.group) ∧
      (LeavesOut Draft.toJson Draft.ofJson? "field" Draft.field ∧
        LeavesOut Draft.toJson Draft.ofJson? "column" Draft.column ∧
        LeavesOut Draft.toJson Draft.ofJson? "operator" Draft.operator ∧
        LeavesOut Draft.toJson Draft.ofJson? "value" Draft.value ∧
        LeavesOut Draft.toJson Draft.ofJson? "valueTo" Draft.valueTo) ∧
      ∀ nesting,
        LeavesOut Expression.toJson (Expression.ofJson? nesting) "valueTo" Expression.valueTo ∧
          LeavesOut Condition.toJson (Condition.ofJson? nesting) "valueTo" Condition.valueTo :=
  ⟨⟨Filter.readsBack, Group.readsBack, Draft.readsBack, fun nesting =>
      ⟨Expression.readsBack nesting, Condition.readsBack nesting, Column.readsBack nesting⟩⟩,
    Filter.leavesOut, Draft.leavesOut, fun nesting =>
      ⟨Expression.leavesOut nesting, Condition.leavesOut nesting⟩⟩

/-- A tree the keys of which come in the order of their letters, and a draft of which nothing is
there. -/
theorem Json.shapes_read_back_sorted :
    (Group.ofJson? (.object
        [("isExplicit".toList, .bool false), ("join".toList, ofString "OR"),
          ("nodes".toList, .array
            [Expression.toJson (.condition ⟨"name".toList, ⟨"name".toList, [], true, .text⟩,
                .contains, "lo".toList, none⟩),
              Expression.toJson (.group ⟨.and, [], true⟩)])]) =
      some ⟨.or, [.condition ⟨"name".toList, ⟨"name".toList, [], true, .text⟩, .contains,
        "lo".toList, none⟩, .group ⟨.and, [], true⟩], false⟩) ∧
      ∃ d, Draft.ofJson? (.object []) = some d ∧ d.column = none := by
  refine ⟨shapes_read_back.1.2.1 _ _ (Same.of_perm ?_ ?_),
    {}, rfl, shapes_read_back.2.2.1.2.1.2 [] {} rfl rfl⟩
  · have hperm : ∀ join nodes isExplicit : Text × Json,
        ([join, nodes] ++ [isExplicit]).Perm ([isExplicit] ++ [join, nodes]) :=
      fun _ _ _ => List.perm_append_comm
    exact hperm _ _ _
  · decide

end HashtagSearch
