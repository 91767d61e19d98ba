import HashtagSearch.Text.Basic

/-!
# The environment

A program sees the variables that are set. Where they do not name the home folder of its user, the
machine may know it from elsewhere.
-/

namespace HashtagSearch

/-- The environment variables that are set, by their names. -/
abbrev Environment := String → Option Text

/-- How the home folder of the user is found. Only what holds on every machine is known of it: a
variable that is set and not empty decides. -/
structure HomeLookup where
  find : Environment → Option Text
  find_of_variable : ∀ {environment : Environment} {home : Text},
    environment "HOME" = some home → home ≠ [] → find environment = some home

/-- The lookup on a machine with the given entry for its user. -/
def HomeLookup.ofEntry (entry : Option Text) : HomeLookup where
  find environment := ((environment "HOME").filter (!·.isEmpty)).or entry
  find_of_variable h hhome := by simp [h, hhome]

end HashtagSearch
