import SourceDoc.Table

/-!
# Templates

A template is a text with slots: names in capitals between double braces.  A text is cut into characters and slots
once, from the left; filling the slots and looking for missing ones are functions of these pieces.
-/

namespace SourceDoc.Template

/-- A piece of a template. -/
inductive Piece where
  | char (c : Char)
  | slot (name : Text)
  deriving DecidableEq, Repr

/-- A character of the name of a slot. -/
def isSlotChar (c : Char) : Bool := (65 ≤ c.toNat && c.toNat ≤ 90) || c = '_'

/-- The name of the slot at the front of a text. -/
def slot? : Text → Option Text
  | '\x7b' :: '\x7b' :: rest =>
    match rest.takeWhile isSlotChar, rest.dropWhile isSlotChar with
    | c :: name, '\x7d' :: '\x7d' :: _ => some (c :: name)
    | _, _ => none
  | _ => none

/-- The pieces of a text after `skip` characters. -/
def piecesFrom (skip : Nat) : Text → List Piece
  | [] => []
  | c :: rest =>
    match skip with
    | n + 1 => piecesFrom n rest
    | 0 =>
      match slot? (c :: rest) with
      | some name => .slot name :: piecesFrom (name.length + 3) rest
      | none => .char c :: piecesFrom 0 rest

/-- The pieces of a template. -/
def pieces (t : Text) : List Piece := piecesFrom 0 t

/-- A slot as it is written. -/
def marker (name : Text) : Text := '\x7b' :: '\x7b' :: (name ++ ['\x7d', '\x7d'])

/-- The text of a piece; a slot without a value stays as it is written. -/
def Piece.fill (values : List (Text × Text)) : Piece → Text
  | char c => [c]
  | slot name => (Table.get? name values).getD (marker name)

/-- The template with values in its slots. -/
def fill (values : List (Text × Text)) (t : Text) : Text := (pieces t).flatMap (Piece.fill values)

/-! ## The slots of a page -/

/-- The slots that a template of a page has to have. -/
def requiredSlots : List Text :=
  ["TITLE", "DESCRIPTION", "TABLE_OF_CONTENTS", "FUNCTIONS", "CLASSES", "EXPORTS", "USAGE", "NOTES"].map String.toList

/-- The required slots that a template does not have. -/
def missingSlots (t : Text) : List Text := requiredSlots.filter fun name => !(pieces t).contains (.slot name)

/-- The message about missing slots. -/
def missingMessage (slots : List Text) : Text :=
  "HTML template is missing required slots: ".toList ++ Text.joinWith [',', ' '] (slots.map marker)

end SourceDoc.Template
