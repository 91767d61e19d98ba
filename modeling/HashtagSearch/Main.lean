import HashtagSearch.Command.Run

/-!
# The program

The files and streams of the machine that the program runs on.
-/

namespace HashtagSearch

namespace Program

def fileError (e : IO.Error) : FileError :=
  match e with
  | .noFileOrDirectory .. => .notFound
  | .alreadyExists .. => .alreadyExists
  | .inappropriateType _ code _ => if code = 21 then .isAFolder else .notAFolder
  | e => .other e.toString.toList

/-- An action on a file, which fails only with a value. -/
def attempt {α : Type} (action : IO α) : IO (Except FileError α) := do
  try
    return .ok (← action)
  catch e =>
    return .error (fileError e)

/-- The home folder in the entry for a user in the list of users. -/
def entryHome? (users user : String) : Option Text :=
  (users.splitOn "\n").findSome? fun line =>
    match line.splitOn ":" with
    | [_, _, number, _, _, home, _] => if number = user then some home.toList else none
    | _ => none

def userNumber? (status : String) : Option String :=
  (status.splitOn "\n").findSome? fun line =>
    match line.splitOn "\t" with
    | "Uid:" :: user :: _ => some user
    | _ => none

def readEntry : IO (Option Text) := do
  let users ← attempt (IO.FS.readFile "/etc/passwd")
  let status ← attempt (IO.FS.readFile "/proc/self/status")
  match users, status with
  | .ok users, .ok status => return (userNumber? status).bind (entryHome? users)
  | _, _ => return none

/-- Whether a path can be opened or is only forbidden to be. -/
def isPresent (path : Text) : IO Bool := do
  match ← attempt (IO.FS.Handle.mk (String.ofList path) .read) with
  | .ok _ | .error (.other _) => return true
  | .error _ => return false

/-- The file is created with the folders above it. -/
def create (path : Text) (content : ByteArray) : IO (Except CreationError Unit) := do
  let folder := Path.folder path
  if !folder.isEmpty then
    if let .error e ← attempt (IO.FS.createDirAll (String.ofList folder)) then
      return .error (.folder e)
  match ← attempt (IO.FS.writeBinFile (String.ofList path) content) with
  | .ok () => return .ok ()
  | .error e => return .error (.file e)

partial def readRest (stream : IO.FS.Stream) (read : ByteArray) : IO ByteArray := do
  let chunk ← stream.read 65536
  if chunk.isEmpty then return read else readRest stream (read ++ chunk)

instance : Machine IO where
  findHome environment := return (HomeLookup.ofEntry (← readEntry)).find environment
  manual := pure {}
  isPresent := isPresent
  read path := attempt (IO.FS.readBinFile (String.ofList path))
  readInput := attempt do readRest (← IO.getStdin) .empty
  create := create
  print t := do (← IO.getStdout).putStr (String.ofList t)
  note t := do (← IO.getStderr).putStr (String.ofList t)

def variableNames : List String := ["HQ_CONFIG", "XDG_CONFIG_HOME", "HOME", "NO_COLOR"]

def readVariables : IO (List (String × Text)) := do
  let values ← variableNames.mapM fun name => return (name, ← IO.getEnv name)
  return values.filterMap fun (name, value) => value.map fun v => (name, v.toList)

end Program

end HashtagSearch

def main (arguments : List String) : IO UInt32 := do
  let values ← HashtagSearch.Program.readVariables
  let exitCode ← HashtagSearch.runArguments (arguments.map String.toList) fun name =>
    values.lookup name
  return exitCode.toUInt32
