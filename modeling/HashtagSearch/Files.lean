import HashtagSearch.Path

/-!
# Files and folders

The files that a run can see and change are given by their places. A place is reached
from the root or from the working folder, which itself and above which everything is a
folder. Following a path fails where something on the way is missing or no folder; what
goes wrong is reported in the words of the operating system.
-/

namespace HashtagSearch

inductive FileError
  | notFound
  | alreadyExists
  | notAFolder
  | isAFolder
  | nameTooLong
  | nulCharacter
  | notText
  | other (message : Text)
  deriving DecidableEq, Repr

def FileError.message : FileError → Text
  | notFound => "No such file or directory (os error 2)".toList
  | alreadyExists => "File exists (os error 17)".toList
  | notAFolder => "Not a directory (os error 20)".toList
  | isAFolder => "Is a directory (os error 21)".toList
  | nameTooLong => "File name too long (os error 36)".toList
  | nulCharacter => "file name contained an unexpected NUL byte".toList
  | notText => "stream did not contain valid UTF-8".toList
  | other message => message

/-- What can go wrong when a file is created: its folder cannot be made, or the file itself. -/
inductive CreationError
  | folder (e : FileError)
  | file (e : FileError)
  deriving DecidableEq, Repr

def decodeText (content : ByteArray) : Except FileError Text :=
  match String.fromUTF8? content with
  | some s => .ok s.toList
  | none => .error .notText

/-- A folder from which places are reached. -/
inductive Origin
  | root
  | aboveWorkingFolder (levels : Nat)
  deriving DecidableEq, Repr

/-- An origin and the names that lead from it to the place, the last one first. -/
structure Place where
  origin : Origin
  names : List Text
  deriving DecidableEq, Repr

namespace Place

/-- Where a path starts. -/
def start (path : Text) : Place :=
  ⟨if Path.isAbsolute path then .root else .aboveWorkingFolder 0, []⟩

/-- The folder that holds the place; the root holds itself. -/
def above : Place → Place
  | ⟨origin, _ :: names⟩ => ⟨origin, names⟩
  | ⟨.root, []⟩ => ⟨.root, []⟩
  | ⟨.aboveWorkingFolder levels, []⟩ => ⟨.aboveWorkingFolder (levels + 1), []⟩

def child (p : Place) (name : Text) : Place := ⟨p.origin, name :: p.names⟩

end Place

inductive Entry
  | folder
  | file (content : ByteArray)

structure Files where
  entries : List (Place × Entry) := []

namespace Files

def find? (fs : Files) (p : Place) : Option Entry :=
  if p.names.isEmpty then some .folder else (fs.entries.find? (·.1 == p)).map (·.2)

/-- The files with something at a place, instead of what was there. -/
def set (fs : Files) (p : Place) (e : Entry) : Files :=
  ⟨(p, e) :: fs.entries.filter (·.1 != p)⟩

theorem find?_set_self {fs : Files} {p : Place} {e : Entry} (h : p.names ≠ []) :
    (fs.set p e).find? p = some e := by
  simp [find?, set, h]

theorem find?_set_of_ne {fs : Files} {p q : Place} {e : Entry} (h : q ≠ p) :
    (fs.set p e).find? q = fs.find? q := by
  have hp : (p == q) = false := by simpa using fun hpq => h hpq.symm
  have hf : (fs.entries.filter (·.1 != p)).find? (·.1 == q) =
      fs.entries.find? (·.1 == q) := by
    rw [List.find?_filter]
    congr 1
    funext a
    by_cases ha : a.1 = q
    · simp [ha, h]
    · simp [ha]
  simp [find?, set, hp, hf]

/-- The place that one part of a path leads to from another place. -/
def follow (fs : Files) (p : Place) (part : Text) : Except FileError Place :=
  match fs.find? p with
  | none => .error .notFound
  | some (.file _) => .error .notAFolder
  | some .folder =>
    if part = [] ∨ part = ['.'] then .ok p
    else if part = ['.', '.'] then .ok p.above
    else if 255 < Text.byteLength part then .error .nameTooLong
    else .ok (p.child part)

/-- The place that the parts of a path lead to, at which there may be nothing. -/
def followAll (fs : Files) : Place → List Text → Except FileError Place :=
  List.foldlM fs.follow

/-- What is wrong with a path whatever the files are. -/
def checkPath (path : Text) : Except FileError Unit :=
  if path.isEmpty then .error .notFound
  else if path.contains '\x00' then .error .nulCharacter
  else if 4096 ≤ Text.byteLength path then .error .nameTooLong
  else .ok ()

/-- The place of a path. -/
def locate (fs : Files) (path : Text) : Except FileError Place := do
  checkPath path
  fs.followAll (Place.start path) (Path.segments path)

def isPresent (fs : Files) (path : Text) : Bool :=
  match fs.locate path with
  | .ok p => (fs.find? p).isSome
  | .error _ => false

def read (fs : Files) (path : Text) : Except FileError ByteArray := do
  match fs.find? (← fs.locate path) with
  | some (.file content) => .ok content
  | some .folder => .error .isAFolder
  | none => .error .notFound

/-- The files with the given content at a path. One that ends with a slash can only be that
of a folder, for which the last name is not looked up. -/
def write (fs : Files) (path : Text) (content : ByteArray) : Except FileError Files := do
  checkPath path
  if path.getLast? = some '/' then
    let body := (path.reverse.dropWhile (· == '/')).reverse
    let _ ← fs.followAll (Place.start path) ((Path.segments body).dropLast ++ [['.']])
    .error .isAFolder
  else
    let p ← fs.locate path
    match fs.find? p with
    | some .folder => .error .isAFolder
    | _ => .ok (fs.set p (.file content))

/-- The files with a folder at a path, of which the last part only may be missing. -/
def makeFolder (fs : Files) (path : Text) : Except FileError Files := do
  let p ← fs.locate path
  match fs.find? p with
  | some .folder => .ok fs
  | some (.file _) => .error .alreadyExists
  | none => .ok (fs.set p .folder)

/-- How a step has ended and the files after it, which are as they were where it has failed. -/
def after {ε : Type} (fs : Files) : Except ε Files → Except ε Unit × Files
  | .ok fs' => (.ok (), fs')
  | .error e => (.error e, fs)

/-- Makes a folder at a path, of which the parts after its start are given from the last to the
first, and those above it that are missing. The ones that have been made stay where a later one
cannot be made. -/
def makeFolders (fs : Files) (start : Text) : List Text → Except FileError Unit × Files
  | [] => (.ok (), fs)
  | part :: above =>
    if Path.isIdle part then fs.makeFolders start above
    else
      let path := start ++ Text.joinWith ['/'] (part :: above).reverse
      match fs.makeFolder path with
      | .error .notFound =>
        match fs.makeFolders start above with
        | (.ok (), fs) => fs.after (fs.makeFolder path)
        | (.error e, fs) => (.error e, fs)
      | result => fs.after result

def createFolder (fs : Files) (path : Text) : Except FileError Unit × Files :=
  let (start, body) := Path.splitStart path
  fs.makeFolders start (Path.segments body).reverse

/-- Creates the file with the given content at a path, for which folders are made as needed. -/
def create (fs : Files) (path : Text) (content : ByteArray) : Except CreationError Unit × Files :=
  match fs.createFolder (Path.folder path) with
  | (.error e, fs) => (.error (.folder e), fs)
  | (.ok (), fs) => fs.after ((fs.write path content).mapError .file)

end Files

end HashtagSearch
