import HashtagSearch.Json.Decoding
import Mathlib.Data.List.Forall2

/-!
# The same JSON value

The entries of an object have an order where they are kept as a list, but the value that they
write has none: what is written in the order of the fields is read with the keys in order. Two
objects are the same when each key has the same value in both. Something reads back when it is
decoded from every value that is the same as the one it is written as.
-/

namespace HashtagSearch.Json

/-- The same value, whatever the order of the entries of its objects. -/
inductive Same : Json → Json → Prop
  | null : Same null null
  | bool (b : Bool) : Same (bool b) (bool b)
  | number (n : JsonNumber) : Same (number n) (number n)
  | string (s : Text) : Same (string s) (string s)
  | array {items items' : List Json} : List.Forall₂ Same items items' →
      Same (array items) (array items')
  | object {entries entries' : List (Text × Json)} :
      (∀ key, Option.Rel Same (lookup? key entries) (lookup? key entries')) →
      Same (object entries) (object entries')

section

variable {α : Type} {v w : Json} {entries entries' : List (Text × Json)}
  {fields : List (String × Json)} {names : List String} {name : String}
  {get : String → Option Json}

theorem lookup?_cons (key k : Text) (v : Json) (entries : List (Text × Json)) :
    lookup? key ((k, v) :: entries) = if k = key then some v else lookup? key entries := by
  by_cases h : k = key <;> simp [lookup?, h]

/-! ## Values that are the same -/

mutual

theorem Same.refl : ∀ v : Json, Same v v
  | .null => .null
  | .bool b => .bool b
  | .number n => .number n
  | .string s => .string s
  | .array items => .array (forall₂_refl items)
  | .object entries => .object (lookup?_rel_refl entries)

theorem forall₂_refl : ∀ items : List Json, List.Forall₂ Same items items
  | [] => .nil
  | v :: items => .cons (Same.refl v) (forall₂_refl items)

theorem lookup?_rel_refl : ∀ (entries : List (Text × Json)) (key : Text),
    Option.Rel Same (lookup? key entries) (lookup? key entries)
  | [], _ => .none
  | (k, v) :: entries, key => by
    rw [lookup?_cons]
    split
    · exact .some (Same.refl v)
    · exact lookup?_rel_refl entries key

end

theorem lookup?_eq_of_perm (h : entries.Perm entries') (hkeys : (entries.map (·.1)).Nodup)
    (key : Text) : lookup? key entries = lookup? key entries' := by
  induction h with
  | nil => rfl
  | cons e _ ih =>
    rw [List.map_cons, List.nodup_cons] at hkeys
    rw [lookup?_cons, lookup?_cons, ih hkeys.2]
  | swap e f entries =>
    have hne : f.1 ≠ e.1 := by
      rw [List.map_cons, List.map_cons, List.nodup_cons] at hkeys
      intro heq
      exact hkeys.1 (by simp [heq])
    rw [lookup?_cons, lookup?_cons, lookup?_cons, lookup?_cons]
    by_cases he : e.1 = key
    · have hf : f.1 ≠ key := fun hf => hne (hf.trans he.symm)
      rw [if_neg hf, if_pos he, if_pos he]
    · rw [if_neg he, if_neg he]
  | trans hfirst _ ihfirst ihsecond =>
    rw [ihfirst hkeys, ihsecond ((hfirst.map _).nodup_iff.1 hkeys)]

theorem Same.of_perm (h : entries.Perm entries') (hkeys : (entries.map (·.1)).Nodup) :
    Same (.object entries) (.object entries') := by
  refine .object fun key => ?_
  rw [← lookup?_eq_of_perm h hkeys]
  exact lookup?_rel_refl entries key

theorem Same.eq_string {s : Text} (h : Same (.string s) v) : v = .string s := by
  cases h
  rfl

theorem Same.eq_bool {b : Bool} (h : Same (.bool b) v) : v = .bool b := by
  cases h
  rfl

theorem Same.eq_null (h : Same v .null) : v = .null := by
  cases h
  rfl

theorem Same.exists_array {items : List Json} (h : Same (.array items) v) :
    ∃ items', v = .array items' ∧ List.Forall₂ Same items items' := by
  cases h with
  | array hitems => exact ⟨_, rfl, hitems⟩

/-! ## Records -/

def field? (name : String) (fields : List (String × Json)) : Option Json :=
  (fields.find? (·.1 == name)).map (·.2)

@[simp] theorem field?_nil (name : String) : field? name [] = none := rfl

@[simp] theorem field?_cons (name key : String) (v : Json) (fields : List (String × Json)) :
    field? name ((key, v) :: fields) = if key = name then some v else field? name fields := by
  by_cases h : key = name <;> simp [field?, h]

@[simp] theorem field?_append (name : String) (fields more : List (String × Json)) :
    field? name (fields ++ more) = (field? name fields).or (field? name more) := by
  induction fields with
  | nil => simp
  | cons e fields ih =>
    obtain ⟨key, v⟩ := e
    rw [List.cons_append, field?_cons, field?_cons, ih]
    split <;> simp

@[simp] theorem field?_optional (name key : String) (encode : α → Json) (o : Option α) :
    field? name (optional key encode o) = if key = name then o.map encode else none := by
  cases o <;> simp [optional]

theorem lookup?_record (name : String) (fields : List (String × Json)) :
    lookup? name.toList (fields.map fun (key, v) => (key.toList, v)) = field? name fields := by
  induction fields with
  | nil => rfl
  | cons e fields ih =>
    obtain ⟨key, v⟩ := e
    simp only [List.map_cons, lookup?_cons, field?_cons, ih, String.toList_inj]

/-- The fields that are got are those of the record. -/
def Holds (get : String → Option Json) (fields : List (String × Json)) : Prop :=
  ∀ name, Option.Rel Same (field? name fields) (get name)

theorem Same.exists_object (h : Same (record fields) v) :
    ∃ entries, v = .object entries ∧ Holds (fun name => lookup? name.toList entries) fields := by
  cases h with
  | object hentries =>
    refine ⟨_, rfl, fun name => ?_⟩
    have hname := hentries name.toList
    rwa [lookup?_record] at hname

theorem Same.exists_fields (h : Same (record fields) v) (names : List String) :
    ∃ get, fields? names v = some get ∧ Holds get fields := by
  obtain ⟨entries, rfl, hget⟩ := h.exists_object
  exact ⟨_, rfl, hget⟩

end

/-! ## Reading back -/

/-- What is encoded is decoded again from every value that is the same. -/
def ReadsBack {α : Type} (encode : α → Json) (decode : Json → Option α) : Prop :=
  ∀ a v, Same (encode a) v → decode v = some a

section

variable {α : Type} {encode : α → Json} {decode : Json → Option α}
  {fields : List (String × Json)} {name : String} {get : String → Option Json} {a : α}

theorem readsBack_text : ReadsBack string text? := by
  intro s v h
  rw [h.eq_string]
  rfl

theorem readsBack_bool : ReadsBack bool bool? := by
  intro b v h
  rw [h.eq_bool]
  rfl

theorem readsBack_named {name : α → String} {items : List α}
    (h : ∀ a, items.find? (fun b => (name b).toList == (name a).toList) = some a)
    (nesting : Nesting) : ReadsBack (fun a => ofString (name a)) (named? name items nesting) := by
  intro a v hv
  rw [hv.eq_string]
  exact h a

theorem ReadsBack.mapM_eq_some (h : ReadsBack encode decode) {items : List α}
    {values : List Json} (hv : List.Forall₂ Same (items.map encode) values) :
    values.mapM decode = some items := by
  induction items generalizing values with
  | nil =>
    rw [List.map_nil, List.forall₂_nil_left_iff] at hv
    rw [hv]
    rfl
  | cons a items ih =>
    obtain ⟨w, rest, hw, hrest, rfl⟩ := List.forall₂_cons_left_iff.1 hv
    rw [List.mapM_cons, h a w hw, ih hrest]
    rfl

theorem ReadsBack.list (h : ReadsBack encode decode) :
    ReadsBack (ofList encode) (list? decode) := by
  intro items v hv
  obtain ⟨values, rfl, hvalues⟩ := hv.exists_array
  exact h.mapM_eq_some hvalues

theorem ReadsBack.required (h : ReadsBack encode decode) (hget : Holds get fields)
    (hentry : field? name fields = some (encode a)) : (get name).bind decode = some a := by
  have hname := hget name
  rw [hentry] at hname
  cases hget : get name with
  | none => rw [hget] at hname; cases hname
  | some v =>
    rw [hget] at hname
    cases hname with
    | some hv => exact h a v hv

theorem ReadsBack.orDefault (h : ReadsBack encode decode) (hget : Holds get fields)
    (hentry : field? name fields = some (encode a)) (default : α) :
    orDefault? default decode (get name) = some a := by
  have hname := h.required hget hentry
  cases hget : get name with
  | none => rw [hget] at hname; cases hname
  | some v => rwa [hget] at hname

theorem ReadsBack.optional (h : ReadsBack encode decode) (hnull : ∀ a, encode a ≠ null)
    (hget : Holds get fields) {o : Option α} (hentry : field? name fields = o.map encode) :
    optional? decode (get name) = some o := by
  have hname := hget name
  rw [hentry] at hname
  cases o with
  | none =>
    cases hget : get name with
    | none => rfl
    | some v => rw [hget] at hname; cases hname
  | some a =>
    cases hget : get name with
    | none => rw [hget] at hname; cases hname
    | some v =>
      rw [hget] at hname
      cases hname with
      | some hv =>
        have hne : v ≠ null := fun heq => hnull a ((heq ▸ hv).eq_null)
        have hread : optional? decode (some v) = (decode v).map some := by
          cases v <;> first | rfl | exact absurd rfl hne
        rw [hread, h a v hv, Option.map_some]

end

/-- A field is left out of what is encoded without it, and nothing is decoded for it where it is
left out. -/
def LeavesOut {α β : Type} (encode : α → Json) (decode : Json → Option α) (name : String)
    (field : α → Option β) : Prop :=
  (∀ a, field a = none → ∀ entries, encode a = object entries →
      lookup? name.toList entries = none) ∧
    ∀ entries a, lookup? name.toList entries = none → decode (object entries) = some a →
      field a = none

theorem lookup?_of_record {name : String} {fields : List (String × Json)}
    {entries : List (Text × Json)} (h : record fields = object entries) :
    lookup? name.toList entries = field? name fields := by
  injection h with h
  rw [← h, lookup?_record]

theorem eq_none_of_optional? {β : Type} {decode : Json → Option β} {o : Option Json}
    {b : Option β} (h : optional? decode o = some b) (ho : o = none) : b = none := by
  rw [ho] at h
  exact (Option.some.inj h).symm

theorem LeavesOut.of_optional {α β : Type} {encode : α → Json} {decode : Json → Option α}
    {name : String} {field : α → Option β} {fields : α → List (String × Json)}
    {decodeField : Json → Option β}
    (hrecord : ∀ a, encode a = record (fields a))
    (hentry : ∀ a, field a = none → field? name (fields a) = none)
    (hdecode : ∀ entries a, decode (object entries) = some a →
      optional? decodeField (lookup? name.toList entries) = some (field a)) :
    LeavesOut encode decode name field := by
  refine ⟨fun a ha entries hentries => ?_, fun entries a habsent ha => ?_⟩
  · rw [lookup?_of_record ((hrecord a).symm.trans hentries), hentry a ha]
  · exact eq_none_of_optional? (hdecode entries a ha) habsent

end HashtagSearch.Json
