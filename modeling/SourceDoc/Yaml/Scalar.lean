import SourceDoc.Yaml.Cursor

/-!
# Written scalars

The three ways to write a text in YAML: plain, between quotes, and as a block of lines.  A single line break in the
first two, and in a folded block, counts as a blank; each further one counts as itself.
-/

namespace SourceDoc.Yaml

/-! ## Quoted texts -/

/-- The line breaks from the cursor on, with the blanks among them left out. -/
def quotedBreaks : Nat → Cursor → Except Fault (Text × Cursor)
  | 0, c => .ok ([], c)
  | fuel + 1, c =>
    if c.isAtDocumentMark then .error .unterminated
    else
      let c := (c.span fun ch => ch = ' ' || ch = '\t').2
      let (found, after) := c.lineBreak
      if found = [] then .ok ([], c)
      else (quotedBreaks fuel after).map fun (more, c) => (found ++ more, c)

/-- A line break and the line breaks after it, as they count in a text. -/
def foldBreaks (first more : Text) : Text :=
  if first ≠ ['\n'] then first ++ more else if more = [] then [' '] else more

/-- The blanks of a quoted text from the cursor on. -/
def quotedSpaces (c : Cursor) : Except Fault (Text × Cursor) :=
  let (blanks, c) := c.span fun ch => ch = ' ' || ch = '\t'
  if c.isAtEnd then .error .unterminated
  else
    let (first, after) := c.lineBreak
    if first = [] then .ok (blanks, c)
    else (quotedBreaks after.rest.length.succ after).map fun (more, c) => (foldBreaks first more, c)

/-- What a letter after a backslash stands for. -/
def escapes : List (Char × Char) :=
  [('0', '\x00'), ('a', '\x07'), ('b', '\x08'), ('t', '\t'), ('\t', '\t'), ('n', '\n'), ('v', '\x0b'), ('f', '\x0c'),
    ('r', '\r'), ('e', '\x1b'), (' ', ' '), ('"', '"'), ('\\', '\\'), ('/', '/'), ('N', '\x85'), ('_', '\xa0'),
    ('L', '\u2028'), ('P', '\u2029')]

/-- How many digits follow a letter after a backslash. -/
def codeLength? : Char → Option Nat
  | 'x' => some 2
  | 'u' => some 4
  | 'U' => some 8
  | _ => none

def hexDigit? (c : Char) : Option Nat :=
  if c.isDigit then some (c.toNat - 48)
  else if 'a' ≤ c && c ≤ 'f' then some (c.toNat - 87)
  else if 'A' ≤ c && c ≤ 'F' then some (c.toNat - 55)
  else none

/-- The character with a code. -/
def charOfCode (code : Nat) : Except Fault Char :=
  if code < 0x110000 then .ok (Char.ofNat code) else .error (.misfit (.noSuchChar (0x80000000 ≤ code)))

/-- What stands for a backslash and what follows it; the cursor is after the backslash. -/
def escapeAt (c : Cursor) : Except Fault (Text × Cursor) :=
  match escapes.lookup c.here, codeLength? c.here with
  | some meaning, _ => .ok ([meaning], c.next)
  | none, some n =>
    match (c.next.rest.take n).mapM hexDigit? with
    | some ds =>
      if ds.length < n then .error .badEscape
      else (charOfCode (ds.foldl (fun code d => 16 * code + d) 0)).map fun ch => ([ch], c.next.advance n)
    | none => .error .badEscape
  | none, none =>
    let (found, after) := c.lineBreak
    if found = [] then .error .badEscape else quotedBreaks after.rest.length.succ after

/-- The text from the cursor to the quote that ends it. -/
def quotedFrom (isDouble : Bool) : Nat → Cursor → Except Fault (Text × Cursor)
  | 0, _ => .error .unterminated
  | fuel + 1, c =>
    let proceed := fun (found : Text) (c : Cursor) =>
      (quotedFrom isDouble fuel c).map fun (more, c) => (found ++ more, c)
    let ch := c.here
    if isDouble && ch = '"' then .ok ([], c.next)
    else if isDouble && ch = '\\' then do
      let (found, c) ← escapeAt c.next
      proceed found c
    else if !isDouble && ch = '\'' then
      if c.peek 1 = '\'' then proceed ['\''] (c.advance 2) else .ok ([], c.next)
    else if isGap ch then do
      let (found, c) ← quotedSpaces c
      proceed found c
    else proceed [ch] c.next

/-- The quoted text at the cursor. -/
def quotedScalar (c : Cursor) : Except Fault (Text × Cursor) :=
  quotedFrom (c.here = '"') c.rest.length.succ c.next

/-! ## Plain texts -/

/-- A plain text ends at a place. -/
def endsPlain (isFlow : Bool) (c : Cursor) : Bool :=
  let isFlowMark := fun ch : Char => ch = ',' || ch = '[' || ch = ']' || ch = '\x7b' || ch = '\x7d'
  isGap c.here ||
    (c.here = ':' && (isGap (c.peek 1) || (isFlow && isFlowMark (c.peek 1)))) ||
    (isFlow && (isFlowMark c.here || c.here = '?'))

/-- The word of a plain text at the cursor. -/
def plainWord (isFlow : Bool) : Nat → Cursor → Text × Cursor
  | 0, c => ([], c)
  | fuel + 1, c =>
    if endsPlain isFlow c then ([], c)
    else
      let (more, after) := plainWord isFlow fuel c.next
      (c.here :: more, after)

/-- The line breaks after the first one between words; none where a document ends. -/
def plainBreaks : Nat → Cursor → Option Text × Cursor
  | 0, c => (some [], c)
  | fuel + 1, c =>
    let c := c.skipSpaces
    let (found, after) := c.lineBreak
    if found = [] then (some [], c)
    else if after.isAtDocumentMark then (none, after)
    else
      let (more, c) := plainBreaks fuel after
      (more.map (found ++ ·), c)

/-- What stands between two words of a plain text, the place after it, and whether a line ended; empty where the text
ends. -/
def plainSpaces (c : Cursor) : Text × Cursor × Bool :=
  let (blanks, c) := c.span (· = ' ')
  let (first, after) := c.lineBreak
  if first = [] then (blanks, c, false)
  else if after.isAtDocumentMark then ([], after, true)
  else
    match plainBreaks after.rest.length.succ after with
    | (some more, c) => (foldBreaks first more, c, true)
    | (none, c) => ([], c, true)

/-- The plain text from the cursor on, for an indentation that its further lines need, the place after it, and whether
it ended at the end of a line. -/
def plainFrom (isFlow : Bool) (indent : Int) (spaces : Text) (lineEnded : Bool) : Nat → Cursor → Text × Cursor × Bool
  | 0, c => ([], c, lineEnded)
  | fuel + 1, c =>
    if c.here = '#' then ([], c, lineEnded)
    else
      let (word, c) := plainWord isFlow c.rest.length c
      if word = [] then ([], c, lineEnded)
      else
        let (between, c, ended) := plainSpaces c
        if between = [] || c.here = '#' || (!isFlow && (c.column : Int) < indent) then (spaces ++ word, c, ended)
        else
          let (more, c, ended) := plainFrom isFlow indent between ended fuel c
          (spaces ++ word ++ more, c, ended)

/-- The plain text at the cursor. -/
def plainScalar (isFlow : Bool) (indent : Int) (c : Cursor) : Text × Cursor × Bool :=
  plainFrom isFlow indent [] false c.rest.length.succ c

/-! ## Blocks of lines -/

/-- What the head of a block says: whether its last line breaks stay (none: the first of them does), and its
indentation. -/
structure BlockHead where
  keeps? : Option Bool := none
  indent? : Option Nat := none
  deriving DecidableEq, Repr

/-- The head of a block. -/
def blockHead (c : Cursor) : Except Fault (BlockHead × Cursor) :=
  let sign? := fun ch : Char => if ch = '+' then some true else if ch = '-' then some false else none
  let size? := fun ch : Char => if ch.isDigit then some (ch.toNat - 48) else none
  let (h, n) : BlockHead × Nat :=
    match sign? c.here, size? c.here with
    | some s, _ =>
      match size? (c.peek 1) with
      | some k => (⟨some s, some k⟩, 2)
      | none => (⟨some s, none⟩, 1)
    | none, some k =>
      match sign? (c.peek 1) with
      | some s => (⟨some s, some k⟩, 2)
      | none => (⟨none, some k⟩, 1)
    | none, none => ({}, 0)
  let c := c.advance n
  if h.indent? = some 0 || !(c.here = ' ' || isEnd c.here) then .error .badHeader
  else
    match c.restOfLine with
    | some c => .ok (h, c)
    | none => .error .badHeader

/-- The place after up to some columns of blanks. -/
def skipIndent (indent : Nat) (c : Cursor) : Cursor :=
  c.advance (min (c.rest.takeWhile (· = ' ')).length (indent - c.column))

/-- The line breaks from the cursor on, with blanks up to an indentation left out. -/
def blockBreaks (indent : Nat) : Nat → Cursor → Text × Cursor
  | 0, c => ([], c)
  | fuel + 1, c =>
    let c := skipIndent indent c
    let (found, after) := c.lineBreak
    if found = [] then ([], c)
    else
      let (more, c) := blockBreaks indent fuel after
      (found ++ more, c)

/-- The line breaks in front of a block, the place after them, and the widest indentation there. -/
def blockFront (widest : Nat) : Nat → Cursor → Text × Cursor × Nat
  | 0, c => ([], c, widest)
  | fuel + 1, c =>
    let c := c.skipSpaces
    let widest := max widest c.column
    let (found, after) := c.lineBreak
    if found = [] then ([], c, widest)
    else
      let (more, c, widest) := blockFront widest fuel after
      (found ++ more, c, widest)

/-- The lines of a block from the cursor on, where `breaks` are those before it: the text, the last line break, and
the line breaks after that. -/
def blockLines (isFolded : Bool) (indent : Nat) (breaks lastBreak : Text) : Nat → Cursor → Text × Text × Text × Cursor
  | 0, c => ([], lastBreak, breaks, c)
  | fuel + 1, c =>
    if c.column = indent && !c.isAtEnd then
      let startsWithBlank := fun c : Cursor => c.here = ' ' || c.here = '\t'
      let (line, after) := c.span fun ch => !isEnd ch
      let (lineBreak, after) := after.lineBreak
      let (more, next) := blockBreaks indent after.rest.length.succ after
      let front := breaks ++ line
      if next.column = indent && !next.isAtEnd then
        let isJoined := isFolded && lineBreak = ['\n'] && !startsWithBlank c && !startsWithBlank next
        let between := if isJoined then (if more = [] then [' '] else []) else lineBreak
        let (text, last, tail, end') := blockLines isFolded indent more lineBreak fuel next
        (front ++ between ++ text, last, tail, end')
      else (front, lineBreak, more, next)
    else ([], lastBreak, breaks, c)

/-- The block at the cursor, in a collection of some indentation. -/
def blockScalar (indent : Int) (c : Cursor) : Except Fault (Text × Cursor) :=
  let isFolded := c.here = '>'
  (blockHead c.next).map fun (h, c) =>
    let least := (max (indent + 1) 1).toNat
    let fuel := c.rest.length.succ
    let (breaks, c, width) : Text × Cursor × Nat :=
      match h.indent? with
      | some n =>
        let width := least + n - 1
        let (breaks, c) := blockBreaks width fuel c
        (breaks, c, width)
      | none =>
        let (breaks, c, widest) := blockFront 0 fuel c
        (breaks, c, max least widest)
    let (text, last, tail, c) := blockLines isFolded width breaks [] fuel c
    let text := if h.keeps? = some false then text else text ++ last
    (if h.keeps? = some true then text ++ tail else text, c)

end SourceDoc.Yaml
