import HashtagSearch.Text.Basic

/-!
# Paths

A path is a text of names with slashes between them. Empty names and single points
change nothing on the way, two points lead one folder up.
-/

namespace HashtagSearch

namespace Path

/-- The parts of a path between its slashes, of which there is always one more than slashes. -/
def segments : Text → List Text
  | [] => [[]]
  | c :: t =>
    match c == '/', segments t with
    | true, parts => [] :: parts
    | false, part :: parts => (c :: part) :: parts
    | false, [] => [[c]]

/-- The parts of a path that lead nowhere else. -/
def isIdle (part : Text) : Bool := part == [] || part == ['.']

/-- The parts of a path that lead somewhere. -/
def names (path : Text) : List Text := (segments path).filter (!isIdle ·)

/-- The parts of a path up to the last one that leads somewhere. -/
def dropIdle (parts : List Text) : List Text := (parts.reverse.dropWhile isIdle).reverse

/-- The slash of the root or the point of the working folder at the start of a path, and
what follows it. -/
def splitStart : Text → Text × Text
  | '/' :: t => (['/'], t)
  | '.' :: '/' :: t => (['.'], '/' :: t)
  | ['.'] => (['.'], [])
  | t => ([], t)

/-- The path of the folder in which the last name of a path is. -/
def folder (path : Text) : Text :=
  let (start, body) := splitStart path
  start ++ Text.joinWith ['/'] (dropIdle (dropIdle (segments body)).dropLast)

def isAbsolute (path : Text) : Bool := path.head? == some '/'

/-- Whether the path is a hyphen, which stands for the standard input. -/
def isHyphen (path : Text) : Bool := path.head? == some '-' && names path == [['-']]

/-- The path that continues in a folder; the empty folder is the working folder. -/
def join (folder path : Text) : Text :=
  if folder.isEmpty || folder.getLast? == some '/' then folder ++ path else folder ++ '/' :: path

end Path

end HashtagSearch
