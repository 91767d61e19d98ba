import HashtagSearch.Command.Manual
import HashtagSearch.Environment
import HashtagSearch.Files

/-!
# What a run asks of its machine

A command looks at files, asks for the home folder, reads its standard input, may create one file
and writes to the two standard streams. The same commands run on a real machine and on one that is
given as a value, on which everything about them can be computed.
-/

namespace HashtagSearch

/-- Something with files and standard streams, used in the monad `m`. -/
class Machine (m : Type → Type) where
  findHome : Environment → m (Option Text)
  manual : m Manual
  isPresent : Text → m Bool
  read : Text → m (Except FileError ByteArray)
  readInput : m (Except FileError ByteArray)
  create : Text → ByteArray → m (Except CreationError Unit)
  /-- Writes to the standard output. -/
  print : Text → m Unit
  /-- Writes to the standard error. -/
  note : Text → m Unit

instance {ε : Type} {m : Type → Type} [Monad m] [Machine m] : Machine (ExceptT ε m) where
  findHome environment := ExceptT.lift (Machine.findHome environment)
  manual := ExceptT.lift Machine.manual
  isPresent path := ExceptT.lift (Machine.isPresent path)
  read path := ExceptT.lift (Machine.read path)
  readInput := ExceptT.lift Machine.readInput
  create path content := ExceptT.lift (Machine.create path content)
  print t := ExceptT.lift (Machine.print t)
  note t := ExceptT.lift (Machine.note t)

/-- A machine as a value, with what has been written to its streams. -/
structure World where
  home : HomeLookup := .ofEntry none
  manual : Manual := {}
  files : Files := {}
  input : ByteArray := .empty
  out : Text := []
  err : Text := []

namespace World

def create (w : World) (path : Text) (content : ByteArray) : Except CreationError Unit × World :=
  let (result, files) := w.files.create path content
  (result, { w with files })

instance : Machine (StateM World) where
  findHome environment w := (w.home.find environment, w)
  manual w := (w.manual, w)
  isPresent path w := (w.files.isPresent path, w)
  read path w := (w.files.read path, w)
  readInput w := (.ok w.input, w)
  create path content w := w.create path content
  print t w := ((), { w with out := w.out ++ t })
  note t w := ((), { w with err := w.err ++ t })

end World

end HashtagSearch
