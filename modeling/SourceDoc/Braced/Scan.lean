import SourceDoc.Text.Comment
import SourceDoc.Text.Pattern

/-!
# Scanning braced sources

Comments to the end of a line, and the line on which a brace is closed.  Lines are counted from 0.
-/

namespace SourceDoc.Braced

open Text

/-- Why there is no outline. -/
inductive Failure where
  /-- The word for the kind of a type, or the brace after it, does not stand on the line that declares it. -/
  | noBrace
  /-- A receiver has no word. -/
  | noReceiver
  deriving DecidableEq, Repr

def Failure.message : Failure → Text
  | noBrace => "substring not found".toList
  | noReceiver => "list index out of range".toList

/-- The line up to a comment that runs to its end; a quote hides slashes up to the same quote. -/
def uncommentedFrom (quote : Option Char) : Text → Text
  | [] => []
  | c :: rest =>
    match quote with
    | some q => c :: uncommentedFrom (if c = q then none else some q) rest
    | none =>
      if isQuote c then c :: uncommentedFrom (some c) rest
      else if c = '/' ∧ rest.head? = some '/' then []
      else c :: uncommentedFrom none rest

/-- The line up to a comment that runs to its end. -/
def uncommented (line : Text) : Text := uncommentedFrom none line

/-! ## Closing a brace -/

/-- What the text at a place belongs to. -/
inductive Region where
  | code
  | blockComment
  | string
  | rune
  | raw
  deriving DecidableEq, Repr

/-- What is known part way through a block: how many braces are open, and the region. -/
structure Progress where
  depth : Nat
  region : Region
  deriving DecidableEq, Repr

/-- The effect of a line on the progress; nothing where the line closes the block.  `isSkipped` says that the first
character was read together with the one before it. -/
def Progress.line? (p : Progress) (isSkipped : Bool) : Text → Option Progress
  | [] => some (if p.region = .string ∨ p.region = .rune then { p with region := .code } else p)
  | c :: rest =>
    if isSkipped then p.line? false rest
    else
      match p.region with
      | .code =>
        if c = '/' ∧ rest.head? = some '/' then some p
        else if c = '/' ∧ rest.head? = some '*' then { p with region := .blockComment }.line? true rest
        else if c = '"' then { p with region := .string }.line? false rest
        else if c = '\'' then { p with region := .rune }.line? false rest
        else if c = '\x60' then { p with region := .raw }.line? false rest
        else if c = '\x7b' then { p with depth := p.depth + 1 }.line? false rest
        else if c = '\x7d' then
          if p.depth ≤ 1 then none else { p with depth := p.depth - 1 }.line? false rest
        else p.line? false rest
      | .blockComment =>
        if c = '*' ∧ rest.head? = some '/' then { p with region := .code }.line? true rest
        else p.line? false rest
      | .string =>
        if c = '\\' then p.line? true rest
        else if c = '"' then { p with region := .code }.line? false rest
        else p.line? false rest
      | .rune =>
        if c = '\\' then p.line? true rest
        else if c = '\'' then { p with region := .code }.line? false rest
        else p.line? false rest
      | .raw => if c = '\x60' then { p with region := .code }.line? false rest else p.line? false rest

/-- A comment that runs to the end of the line closes nothing. -/
theorem Progress.line?_lineComment (depth : Nat) (t : Text) :
    Progress.line? ⟨depth, .code⟩ false ('/' :: '/' :: t) = some ⟨depth, .code⟩ := by
  simp [line?]

/-- How many lines stand before the one that closes the block. -/
def Progress.linesToClosing? (p : Progress) : List Text → Option Nat
  | [] => none
  | line :: rest =>
    match p.line? false line with
    | none => some 0
    | some p => (p.linesToClosing? rest).map (· + 1)

/-- The number, from 1, of the line that closes the block which opens in the given column of line `i`; without such
a line, the last of `total` lines. -/
def closingLine (lines : List Text) (total i column : Nat) : Nat :=
  let body := match lines.drop i with
    | line :: rest => line.drop column :: rest
    | [] => []
  match Progress.linesToClosing? ⟨0, .code⟩ body with
  | some n => i + n + 1
  | none => max total (i + 1)

/-! ## Comments above a line -/

/-- The text of a line that holds a comment and nothing else. -/
def commentOnLine? (line : Text) : Option Text :=
  let t := strip line
  if startsWith t ['/', '/'] then some (strip (t.drop 2))
  else if startsWith t ['/', '*'] && endsWith t ['*', '/'] then some (strip ((t.drop 2).take (t.length - 4)))
  else none

/-- The comments that end some lines, the lowest first; `above` holds the lines from the lowest up.  Blank lines
may stand between. -/
def commentsAbove : List Text → List Text
  | [] => []
  | line :: above =>
    match commentOnLine? line with
    | some comment => comment :: commentsAbove above
    | none => if isBlankText line then commentsAbove above else []

/-- The text of the comments above line `i`. -/
def leadingComments (lines : List Text) (i : Nat) : Option Text :=
  joinComments (commentsAbove (lines.take i).reverse).reverse

end SourceDoc.Braced
