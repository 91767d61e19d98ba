import HashtagSearch.Command.Arguments

/-!
# Texts about the program

A command line that is not run is answered with help, with the version or with what is wrong with
it, and a shell is given a script for completing command lines. Except for the version these texts
are written by the library that reads the command line, and nothing is known of them here.
-/

namespace HashtagSearch

/-- The texts of the library that reads the command line. -/
structure Manual where
  help : Level → Text := fun _ => []
  complaint : Stop → Text := fun _ => []
  script : Shell → Text := fun _ => []

def Level.version (level : Level) : Text := level.fullName.toList ++ " 0.1.0\n".toList

end HashtagSearch
