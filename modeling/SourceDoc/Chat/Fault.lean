import SourceDoc.Json.Basic
import SourceDoc.Text.Quoted
import SourceDoc.Text.Utf8

/-!
# Faults

What can go wrong between the program and a language model.  A fault has a name, a message, and a description that
shows both.
-/

namespace SourceDoc.Chat

/-- A kind of fault of which only the text is known. -/
inductive FaultKind where
  | model
  | runtime
  | value
  | system
  | timeout
  | connectionReset
  | disconnected
  | missingFile
  deriving DecidableEq, Repr

/-- The name of a kind of fault. -/
def FaultKind.name : FaultKind → String
  | model => "LLMError"
  | runtime => "RuntimeError"
  | value => "ValueError"
  | system => "OSError"
  | timeout => "TimeoutError"
  | connectionReset => "ConnectionResetError"
  | disconnected => "RemoteDisconnected"
  | missingFile => "FileNotFoundError"

/-- A fault. -/
inductive Fault where
  | plain (kind : FaultKind) (text : Text)
  /-- The other side cannot be reached. -/
  | unreachable (reason : Text)
  /-- The other side answers with a status that says it failed. -/
  | status (code : Int) (reason : Text) (body : List UInt8)
  /-- An answer ends too early. -/
  | cutShort (received : Nat) (missing? : Option Int)
  /-- A program does not end in time. -/
  | programTimeout (command : Text) (limit? : Option Quantity)
  /-- A program ends with a code that says it failed. -/
  | programExit (command : Text) (code : Int) (complaint : Text)
  deriving DecidableEq, Repr

namespace Fault

def name : Fault → String
  | plain kind _ => kind.name
  | unreachable _ => "URLError"
  | status _ _ _ => "HTTPError"
  | cutShort _ _ => "IncompleteRead"
  | programTimeout _ _ => "TimeoutExpired"
  | programExit _ _ _ => "CalledProcessError"

/-- How far an answer came that ends too early. -/
def progress (received : Nat) (missing? : Option Int) : Text :=
  let expected :=
    match missing? with
    | none => []
    | some n => ", ".toList ++ Text.ofInt n ++ " more expected".toList
  "IncompleteRead(".toList ++ Text.ofNat received ++ " bytes read".toList ++ expected ++ [')']

/-- A limit as it is written; no limit is written as a word. -/
def limitText (limit? : Option Quantity) : Text := (limit?.map Quantity.toText).getD "None".toList

def message : Fault → Text
  | plain _ text => text
  | unreachable reason => "<urlopen error ".toList ++ reason ++ ['>']
  | status code reason _ => "HTTP Error ".toList ++ Text.ofInt code ++ ": ".toList ++ reason
  | cutShort received missing? => progress received missing?
  | programTimeout command limit? =>
    "Command '".toList ++ command ++ "' timed out after ".toList ++ limitText limit? ++ " seconds".toList
  | programExit command code _ =>
    "Command '".toList ++ command ++ "' returned non-zero exit status ".toList ++ Text.ofInt code ++ ['.']

/-- The name with the text between brackets. -/
def description : Fault → Text
  | cutShort received missing? => progress received missing?
  | f =>
    let text :=
      match f with
      | plain _ text => text
      | unreachable reason => reason
      | _ => f.message
    f.name.toList ++ ['('] ++ Text.quoted text ++ [')']

/-- A fault that may happen whenever a model is asked. -/
def isForeseen : Fault → Bool
  | plain .value _ => false
  | programTimeout _ _ => false
  | programExit _ _ _ => false
  | _ => true

end Fault

end SourceDoc.Chat
