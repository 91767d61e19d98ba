import HashtagSearch.Text.Basic

/-!
# What a command line asks for

A command line names a command with its inputs and says how the answer is to be given.
-/

namespace HashtagSearch

inductive Shell
  | bash
  | zsh
  | fish
  | powershell
  deriving DecidableEq, Repr

namespace Shell

def all : List Shell := [bash, zsh, fish, powershell]

def name : Shell → String
  | bash => "bash"
  | zsh => "zsh"
  | fish => "fish"
  | powershell => "powershell"

def ofName? (t : Text) : Option Shell := all.find? fun s => s.name.toList == t

end Shell

/-- The commands that need the settings to search. -/
inductive SearchCommand
  | parse (text : Text) (column : Option Text)
  | state (text : Text)
  | operators (text : Text)
  | columns (typed : Text)
  | filter (text rows : Text) (column : Option Text) (limit : Option Nat)
  | pattern (text value : Text)
  deriving DecidableEq, Repr

inductive Command
  | overview
  | search (command : SearchCommand)
  | showSettings
  | settingsPath
  | createSettings (force : Bool)
  | completions (shell : Shell)
  deriving DecidableEq, Repr

structure Invocation where
  command : Command
  verbose : Bool
  quiet : Bool
  json : Bool
  noColour : Bool
  settingsPath : Option Text
  deriving DecidableEq, Repr

end HashtagSearch
