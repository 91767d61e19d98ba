import HashtagSearch.Text.LowerCase

/-!
# Finding things by loosely typed names

Columns and operators each have several names. A typed name is first compared with
all of them without regard to case; only when no name agrees are blanks, hyphens
and underscores dropped on both sides. While a name is being typed, everything with
a name that begins so is offered.
-/

namespace HashtagSearch

namespace Text

/-- The text in small letters without blanks, hyphens and underscores. -/
def squash (t : Text) : Text :=
  (t.filter fun c => !isBlank c && c != '_' && c != '-').flatMap lowerChar

@[simp] theorem squash_nil : squash [] = [] := rfl

theorem squash_append (s t : Text) : squash (s ++ t) = squash s ++ squash t := by
  simp [squash]

end Text

namespace Naming

variable {α : Type}

/-- The first item with a name of which `form` is `wanted`; nothing is named by the
empty text. -/
def findBy (form : Text → Text) (names : α → List Text) (items : List α) (wanted : Text) :
    Option α :=
  if wanted.isEmpty then none else items.find? fun a => (names a).any (form · == wanted)

/-- The item that `typed` names. -/
def resolve? (names : α → List Text) (items : List α) (typed : Text) : Option α :=
  let wanted := Text.lower (Text.trim typed)
  (findBy Text.lower names items wanted).or (findBy Text.squash names items (Text.squash wanted))

/-- The items with a name that begins with `typed`, in order. -/
def suggestions (names : α → List Text) (items : List α) (typed : Text) : List α :=
  items.filter fun a => (names a).any fun name => (Text.squash typed).isPrefixOf (Text.squash name)

theorem mem_of_findBy {form : Text → Text} {names : α → List Text} {items : List α}
    {wanted : Text} {a : α} (h : findBy form names items wanted = some a) : a ∈ items := by
  unfold findBy at h
  split at h
  · cases h
  · exact List.mem_of_find?_eq_some h

theorem mem_of_resolve? {names : α → List Text} {items : List α} {typed : Text} {a : α}
    (h : resolve? names items typed = some a) : a ∈ items := by
  simp only [resolve?, Option.or_eq_some_iff] at h
  obtain h | ⟨-, h⟩ := h <;> exact mem_of_findBy h

end Naming

end HashtagSearch
