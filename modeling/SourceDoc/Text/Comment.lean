import SourceDoc.Text.Blank

/-!
# Comment markers

The text of a comment without its markers: the slashes of a comment to the end of the line, and the opening,
the closing and the stars at the front of the lines of a block comment.
-/

namespace SourceDoc.Text

/-- A line of a block comment without the star at its front. -/
def dropGutter (line : Text) : Text :=
  match strip line with
  | '*' :: rest => strip rest
  | bare => bare

/-- The text without the opening of a block comment, which may have a second star. -/
def dropOpening : Text → Text
  | '/' :: '*' :: '*' :: rest => rest
  | '/' :: '*' :: rest => rest
  | t => t

/-- The text without the closing of a block comment. -/
def dropClosing (t : Text) : Text :=
  if endsWith t ['*', '/'] then t.take (t.length - 2) else t

/-- A block comment without its markers. -/
def stripBlockComment (t : Text) : Text :=
  strip (joinLines ((lines (dropClosing (dropOpening (strip t)))).map dropGutter))

/-- A comment of either kind without its markers; any other text without the blanks around it. -/
def stripComment (t : Text) : Text :=
  match strip t with
  | '/' :: '/' :: rest => strip rest
  | '/' :: '*' :: rest => stripBlockComment ('/' :: '*' :: rest)
  | bare => bare

/-- The texts that are not empty, one below the other, where anything is left. -/
def joinComments (chunks : List Text) : Option Text :=
  stripped? (joinLines (chunks.filter (· ≠ [])))

end SourceDoc.Text
