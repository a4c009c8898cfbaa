import SourceDoc.Chat.Runner
import SourceDoc.Prose.Payload

/-!
# Prose from a model

Prose is what a model replies to the prompt about a source file.  Whatever keeps it away is either reported with the
document, or so unexpected that the file is given up.
-/

namespace SourceDoc

/-- Why there is no prose. -/
inductive ProseError where
  | badPrompt (reason : Text)
  | noReply (f : Chat.Failure)
  | unreadable (e : Prose.PayloadError)
  /-- The one who writes the prose says why there is none. -/
  | refused (reason : Text)
  /-- The one who writes the prose fails, with a name and a message for what happened. -/
  | failed (name message : Text)
  deriving DecidableEq, Repr

namespace ProseError

/-- The reason is reported with the document. -/
def isReported : ProseError → Bool
  | noReply f => f.isForeseen
  | failed _ _ => false
  | _ => true

/-- The wording of a reason that is reported. -/
def message : ProseError → Text
  | badPrompt reason => "prompt rendering failed: ".toList ++ reason
  | noReply f => f.shown
  | unreadable e => "unreadable prose reply: ".toList ++ e.message
  | refused reason => reason
  | failed _ message => message

/-- The wording of a reason for which a file is given up: its message, or its name where there is none. -/
def crashMessage : ProseError → Text
  | noReply f => if f.message = [] then f.name.toList else f.message
  | failed name message => if message = [] then name else message
  | e => e.message

end ProseError

/-- Prose, or why there is none, and what was told on the way. -/
structure ProseAnswer where
  prose : Except ProseError Prose
  log : List Log.Entry := []

namespace Prose

/-- The prose in a reply. -/
def ofReply (reply : Except Chat.Failure Text) : Except ProseError Prose :=
  match reply with
  | .error f => .error (.noReply f)
  | .ok t =>
    match readPayload t with
    | .error e => .error (.unreadable e)
    | .ok members => .ok (ofMembers members)

end Prose

end SourceDoc
