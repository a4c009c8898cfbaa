import SourceDoc.Json.Basic
import SourceDoc.Text.Quoted

/-!
# Writing JSON

`Json.write` writes a value on one line or indented, with characters beyond ASCII either as they are or as
escapes of their UTF-16 units.
-/

namespace SourceDoc.Json

/-- How a value is written. -/
structure Style where
  /-- Characters beyond ASCII are escaped. -/
  isAscii : Bool
  /-- The width of one level of indentation; nothing for a value on one line. -/
  indent : Option Nat
  deriving DecidableEq, Repr

/-- An escape for each UTF-16 unit of a character. -/
def unitEscapes (c : Char) : Text :=
  let n := c.toNat
  if n < 0x10000 then '\\' :: 'u' :: Text.hex 4 n
  else
    let m := n - 0x10000
    '\\' :: 'u' :: (Text.hex 4 (0xD800 + m / 0x400) ++ '\\' :: 'u' :: Text.hex 4 (0xDC00 + m % 0x400))

/-- One character of a text. -/
def escapeChar (isAscii : Bool) (c : Char) : Text :=
  if c = '"' then ['\\', '"']
  else if c = '\\' then ['\\', '\\']
  else if c = '\n' then ['\\', 'n']
  else if c = '\r' then ['\\', 'r']
  else if c = '\t' then ['\\', 't']
  else if c.toNat = 8 then ['\\', 'b']
  else if c.toNat = 12 then ['\\', 'f']
  else if c.toNat < 32 then unitEscapes c
  else if isAscii && 126 < c.toNat then unitEscapes c
  else [c]

/-- A text between quotes. -/
def writeText (isAscii : Bool) (t : Text) : Text :=
  '"' :: (t.flatMap (escapeChar isAscii) ++ ['"'])

/-- The break before an item at a depth. -/
def lineBreak (s : Style) (depth : Nat) : Text :=
  match s.indent with
  | none => []
  | some width => '\n' :: List.replicate (width * depth) ' '

/-- What stands between two items at a depth. -/
def itemSeparator (s : Style) (depth : Nat) : Text :=
  match s.indent with
  | none => [',', ' ']
  | some _ => ',' :: lineBreak s depth

mutual

/-- A value at a depth. -/
def writeAt (s : Style) (depth : Nat) : Json → Text
  | .null => "null".toList
  | .bool true => "true".toList
  | .bool false => "false".toList
  | .int i => Text.ofInt i
  | .real x => x.textWith "NaN".toList "Infinity".toList
  | .text t => writeText s.isAscii t
  | .list [] => ['[', ']']
  | .list (item :: items) =>
    '[' :: (lineBreak s (depth + 1) ++ writeAt s (depth + 1) item ++ writeItems s (depth + 1) items ++
      lineBreak s depth ++ [']'])
  | .object [] => ['\x7b', '\x7d']
  | .object ((name, value) :: members) =>
    '\x7b' :: (lineBreak s (depth + 1) ++ writeText s.isAscii name ++ [':', ' '] ++ writeAt s (depth + 1) value ++
      writeMembers s (depth + 1) members ++ lineBreak s depth ++ ['\x7d'])

/-- The items of a list after the first. -/
def writeItems (s : Style) (depth : Nat) : List Json → Text
  | [] => []
  | item :: items => itemSeparator s depth ++ writeAt s depth item ++ writeItems s depth items

/-- The members of an object after the first. -/
def writeMembers (s : Style) (depth : Nat) : Members → Text
  | [] => []
  | (name, value) :: members =>
    itemSeparator s depth ++ writeText s.isAscii name ++ [':', ' '] ++ writeAt s depth value ++
      writeMembers s depth members

end

/-- Writes a value. -/
def write (s : Style) (j : Json) : Text := writeAt s 0 j

/-- On one line in ASCII, as requests are sent. -/
def compactAscii : Style := ⟨true, none⟩

/-- Indented by two, in ASCII. -/
def indentedAscii : Style := ⟨true, some 2⟩

/-- Indented by two, all characters as they are. -/
def indented : Style := ⟨false, some 2⟩

end SourceDoc.Json
