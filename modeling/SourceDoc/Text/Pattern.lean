import SourceDoc.Text.Bracket
import SourceDoc.Text.Word

/-!
# Patterns at the front of a text

Small readers that take something off the front of a text and give back the rest.
-/

namespace SourceDoc.Text

/-- The text after a given head. -/
def after? (head t : Text) : Option Text :=
  if head.isPrefixOf t then some (t.drop head.length) else none

/-- The text after at least one blank and all that follow it. -/
def afterBlanks? : Text → Option Text
  | c :: rest => if isBlank c then some (stripLeft rest) else none
  | [] => none

/-- The text after a word and at least one blank. -/
def afterWord? (word t : Text) : Option Text := (after? word t).bind afterBlanks?

/-- An identifier, which starts with an ASCII letter or the underscore, and the text after it. -/
def identifier? : Text → Option (Text × Text)
  | c :: rest =>
    if isIdentStart c then some (c :: rest.takeWhile isWord, rest.dropWhile isWord) else none
  | [] => none

/-- The text is an identifier and nothing else. -/
def isIdentifier (t : Text) : Bool :=
  match identifier? t with
  | some (_, []) => true
  | _ => false

/-- The text after a pair of square brackets, with no closing one inside. -/
def afterSquare? : Text → Option Text
  | '[' :: rest =>
    match rest.dropWhile (· ≠ ']') with
    | _ :: after => some after
    | [] => none
  | _ => none

/-- The text after a pair of square brackets and the blanks before it, or the whole text where none stands there. -/
def skipSquare (t : Text) : Text := (afterSquare? (stripLeft t)).getD t

/-- A character that may start or continue a name with dollar signs. -/
def isDollarWord (c : Char) : Bool := isWord c || c = '$'

/-- The first name in a text: an ASCII letter, an underscore or a dollar sign, and word characters and dollar signs. -/
def leadingIdentifier? : Text → Option Text
  | [] => none
  | c :: rest =>
    if isIdentStart c || c = '$' then some (c :: rest.takeWhile isDollarWord) else leadingIdentifier? rest

/-- A word occurs with no word character on either side of it; `isOpen` says that none stands before the text. -/
def hasWordFrom (word : Text) (isOpen : Bool) : Text → Bool
  | [] => false
  | c :: rest =>
    (isOpen && word.isPrefixOf (c :: rest) && !(((c :: rest).drop word.length).head?.any isWord)) ||
      hasWordFrom word (!isWord c) rest

/-- A word occurs with no word character on either side of it. -/
def hasWord (word t : Text) : Bool := hasWordFrom word true t

end SourceDoc.Text
