import SourceDoc.Log

/-!
# Events

What a run tells about its progress.  An event counts the files that are done where there is anything to count.
-/

namespace SourceDoc

/-- What kind of news an event is. -/
inductive EventKind where
  | start
  | progress
  | skip
  | error
  | complete
  deriving DecidableEq, Repr

namespace EventKind

def all : List EventKind := [start, progress, skip, error, complete]

def name : EventKind → Text
  | start => "start".toList
  | progress => "progress".toList
  | skip => "skip".toList
  | error => "error".toList
  | complete => "complete".toList

def ofName? (t : Text) : Option EventKind := all.find? fun k => k.name = t

/-- How much the news matters. -/
def level : EventKind → Log.Level
  | start => .info
  | progress => .debug
  | skip => .warning
  | error => .error
  | complete => .info

end EventKind

/-- The part of a run that an event comes from. -/
inductive Stage where
  | run
  | extract
  | prose
  | document
  | render
  deriving DecidableEq, Repr

def Stage.name : Stage → Text
  | run => "run".toList
  | extract => "extract".toList
  | prose => "prose".toList
  | document => "document".toList
  | render => "render".toList

/-- An event. -/
structure Event where
  kind : EventKind
  stage : Stage
  path? : Option Text := none
  current : Nat := 0
  total : Nat := 0
  message : Text
  deriving DecidableEq, Repr

/-- The log entry of an event, whose kind may be unknown, from some part of the program. -/
def Log.ofEvent (source : String) (kind? : Option EventKind) (current total : Int) (message : Text) : Log.Entry :=
  let count :=
    if total = 0 then [] else '[' :: Text.ofInt current ++ '/' :: Text.ofInt total ++ [']', ' ']
  ⟨(kind?.map EventKind.level).getD .debug, source, count ++ message⟩

/-- The log entry of an event. -/
def Event.entry (source : String) (e : Event) : Log.Entry :=
  Log.ofEvent source (some e.kind) e.current e.total e.message

/-- Something that a run tells: an event or a log entry. -/
inductive Note where
  | event (e : Event)
  | entry (e : Log.Entry)
  deriving DecidableEq, Repr

namespace Note

def event? : Note → Option Event
  | event e => some e
  | entry _ => none

/-- The note as a log entry; an event comes from a part of the program. -/
def logged (source : String) : Note → Log.Entry
  | event e => e.entry source
  | entry e => e

/-- A note of the run itself. -/
def ofRun (level : Log.Level) (message : Text) : Note := entry ⟨level, "orchestrator", message⟩

end Note

end SourceDoc
