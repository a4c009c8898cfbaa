import SourceDoc.Text.Basic

/-!
# Log entries

What the program tells its user while it works.  Entries below a level are left out; the console and the log file
write the same entries in two ways.
-/

namespace SourceDoc

namespace Log

/-- How much an entry matters, least first. -/
inductive Level where
  | debug | info | warning | error
  deriving DecidableEq, Repr

def Level.rank : Level → Nat
  | debug => 0
  | info => 1
  | warning => 2
  | error => 3

def Level.word : Level → Text
  | debug => "DEBUG".toList
  | info => "INFO".toList
  | warning => "WARNING".toList
  | error => "ERROR".toList

/-- A message with its level and the part of the program that it comes from. -/
structure Entry where
  level : Level
  source : String
  message : Text
  deriving DecidableEq, Repr

namespace Entry

/-- The level and the message. -/
def brief (e : Entry) : Text := e.level.word ++ [' '] ++ e.message

/-- The line on the console. -/
def consoleLine (e : Entry) : Text := "[autodocs] ".toList ++ e.brief

/-- The line in a log file, after the time. -/
def fileLine (e : Entry) : Text := e.level.word ++ " autodocs.".toList ++ e.source.toList ++ ": ".toList ++ e.message

end Entry

/-- The entries that are shown: all of them when verbose, else those that are no mere details. -/
def shown (verbose : Bool) (entries : List Entry) : List Entry :=
  entries.filter fun e => verbose || Level.info.rank ≤ e.level.rank

end Log

end SourceDoc
