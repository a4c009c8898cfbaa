import SourceDoc.Json.Parser
import SourceDoc.Prose.Basic
import SourceDoc.Text.Word

/-!
# Replies

A reply holds a JSON object, alone, between fences, or with other text around it.
-/

namespace SourceDoc.Prose

/-- Why a reply holds no JSON object. -/
inductive PayloadError where
  | noObject
  /-- The text that should be an object is not JSON. -/
  | malformed (source : Text) (e : Json.ParseError)
  | notObject
  deriving DecidableEq, Repr

/-- The wording of the reason. -/
def PayloadError.message : PayloadError → Text
  | noObject => "no JSON object found".toList
  | malformed source e => e.message source
  | notObject => "expected a JSON object".toList

/-- The mark in front and at the end of a fenced text. -/
def fence : Text := ['\x60', '\x60', '\x60']

/-- A character of the word behind an opening fence. -/
def isInfoChar (c : Char) : Bool := Text.isWord c || c = '-'

/-- What stands between the fences around a text, or the whole text where there are none. -/
def unfence (t : Text) : Text :=
  if 6 ≤ t.length && Text.startsWith t fence && Text.endsWith t fence then
    Text.strip (Text.dropLeft isInfoChar ((t.drop 3).take (t.length - 6)))
  else t

/-- The text from its first opening to its last closing brace. -/
def braced? (t : Text) : Option Text :=
  let body := t.dropWhile (· ≠ '\x7b')
  match Text.breakLast? '\x7d' body with
  | some (before, _) => some (before ++ ['\x7d'])
  | none => none

/-- The text of a reply that should be an object. -/
def objectText? (reply : Text) : Option Text :=
  let t := unfence (Text.strip reply)
  if Text.startsWith t ['\x7b'] then some t else braced? t

/-- The members of the object in a reply. -/
def readPayload (reply : Text) : Except PayloadError Json.Members :=
  match objectText? reply with
  | none => .error .noObject
  | some t =>
    match Json.parse t with
    | .error e => .error (.malformed t e)
    | .ok (.object members) => .ok members
    | .ok _ => .error .notObject

end SourceDoc.Prose
