import SourceDoc.Indented.Header

/-!
# Blocks

The extent of a block follows from indentation alone: it ends before the first later line that is not blank and
is indented no more than its header.  A text in triple quotes on the first line of a block that is not blank
documents it.

Lines are counted from 0, and a range of lines excludes its end.
-/

namespace SourceDoc.Indented

open Text

/-- The end of the block whose header is indented by `indent` and whose body starts at `start`; `total` is the end of
the file. -/
def blockEnd (indent total start : Nat) (lines : List Text) : Nat :=
  match (lines.drop start).findIdx? fun line => !isBlankText line && indentation line ≤ indent with
  | some n => start + n
  | none => max total start

/-- The first line in a range that is not blank. -/
def firstCode? (lines : List Text) (start stop : Nat) : Option Nat :=
  (((lines.take stop).drop start).findIdx? (!isBlankText ·)).map (start + ·)

/-! ## Documentation -/

/-- The marks around a text that may run over several lines. -/
def longQuotes : List Text := ["\"\"\"".toList, "'''".toList]

/-- The long quote at the front of a text. -/
def longQuote? (t : Text) : Option Text := longQuotes.find? (·.isPrefixOf t)

/-- A letter that may stand before the quotes of a documentation. -/
def isQuoteLetter (c : Char) : Bool := c = 'r' || c = 'u' || c = 'R' || c = 'U'

/-- The text without one letter in front of a long quote. -/
def dropQuoteLetter (t : Text) : Text :=
  match t with
  | c :: rest => if isQuoteLetter c && (longQuote? rest).isSome then rest else t
  | [] => []

/-- The lines up to a mark, the last one up to the mark only; all lines where there is none. -/
def linesUpTo (mark : Text) : List Text → List Text
  | [] => []
  | line :: rest =>
    match breakOn? mark line with
    | some (before, _) => [before]
    | none => line :: linesUpTo mark rest

/-- The least of some numbers, or 0. -/
def least : List Nat → Nat
  | [] => 0
  | n :: rest => rest.foldl min n

/-- Lines below a first one, without the indentation that they have in common and without blanks at their ends. -/
def unindent (first : Text) (rest : List Text) : Text :=
  let margin := least ((rest.filter (!isBlankText ·)).map indentation)
  strip (joinLines (strip first :: rest.map fun line => stripRight (line.drop margin)))

/-- The documentation at the front of a block. -/
def documentation? (lines : List Text) (start stop : Nat) : Option Text :=
  (firstCode? lines start stop).bind fun i =>
    let first := dropQuoteLetter (strip ((lines[i]?).getD []))
    (longQuote? first).bind fun mark =>
      let opening := first.drop mark.length
      match breakOn? mark opening with
      | some (before, _) => stripped? before
      | none =>
        match unindent opening (linesUpTo mark (lines.drop (i + 1))) with
        | [] => none
        | t => some t

/-- The first line after the documentation at the front of a block. -/
def afterDocumentation (lines : List Text) (start stop : Nat) : Nat :=
  match firstCode? lines start stop with
  | none => start
  | some i =>
    let first := dropLeft isQuoteLetter (strip ((lines[i]?).getD []))
    match longQuote? first with
    | none => start
    | some mark =>
      if contains (first.drop mark.length) mark then i + 1
      else
        match (lines.drop (i + 1)).findIdx? (contains · mark) with
        | some n => i + 1 + n + 1
        | none => lines.length

/-! ## Decorators -/

/-- The name of a decorator: the last part of what stands before the bracket. -/
def decoratorName (t : Text) : Text := strip (afterLast '.' (before '(' (t.drop 1)))

/-- The names of the decorators directly above a line, the lowest first. -/
def decorators (lines : List Text) (i : Nat) : List Text :=
  (((lines.take i).reverse.map strip).takeWhile (startsWith · ['@'])).map decoratorName

/-! ## Code without texts and comments -/

/-- A line without its quoted texts and its comment, and the long quote that it leaves open.  `quote` is the quote
open before, and `skip` characters at the front are passed over. -/
def codeOf (quote : Option Text) (skip : Nat) : Text → Text × Option Text
  | [] => ([], quote.filter fun q => 1 < q.length)
  | c :: rest =>
    match skip with
    | n + 1 => codeOf quote n rest
    | 0 =>
      match quote with
      | some q =>
        if q.isPrefixOf (c :: rest) then codeOf none (q.length - 1) rest
        else codeOf quote (if c = '\\' then 1 else 0) rest
      | none =>
        if c = '#' then ([], none)
        else
          match longQuote? (c :: rest) with
          | some q => codeOf (some q) (q.length - 1) rest
          | none =>
            if c = '"' ∨ c = '\'' then codeOf (some [c]) 0 rest
            else
              let (code, left) := codeOf none 0 rest
              (c :: code, left)

/-- The word that makes a function a generator. -/
def yieldWord : Text := "yield".toList

/-- A function or a class starts at the front of a text. -/
def startsBlock (t : Text) : Bool := (functionStart? t).isSome || (classStart? t).isSome

/-- Some of the lines yield, outside the functions and classes that start among them; `quote` is the long quote open
before, and `nested` the indentation of the header of the inner block that the lines are still in. -/
def yieldsFrom (quote : Option Text) (nested : Option Nat) : List Text → Bool
  | [] => false
  | line :: rest =>
    let (code, left) := codeOf quote 0 line
    if quote.isSome || isBlankText line then
      (nested.isNone && hasWord yieldWord code) || yieldsFrom left nested rest
    else if nested.any (· < indentation line) then yieldsFrom left nested rest
    else if startsBlock (strip code) then yieldsFrom left (some (indentation line)) rest
    else hasWord yieldWord code || yieldsFrom left none rest

/-- The body of a function yields. -/
def yields (lines : List Text) (start stop : Nat) : Bool :=
  yieldsFrom none none ((lines.take stop).drop (afterDocumentation lines start stop))

end SourceDoc.Indented
