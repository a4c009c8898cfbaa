import SourceDoc.Yaml.Scalar

/-!
# YAML tokens

A text is cut into tokens.  Some of them stand for no character: a block list or mapping starts where the indentation
grows, and ends where it shrinks; and that something is a key shows only at the colon after it, so the token for a key
is put in front of it afterwards.
-/

namespace SourceDoc.Yaml

/-- A token. -/
inductive Token where
  /-- A version of the format. -/
  | version (major : Nat)
  /-- A short form for the front of tags. -/
  | tagHandle (handle front : Text)
  /-- Any other directive. -/
  | directive
  | documentStart
  | documentEnd
  | blockList
  | blockMapping
  | blockEnd
  | listOpen
  | listClose
  | mappingOpen
  | mappingClose
  | entry
  | comma
  | key
  | value
  | reference (name : Text)
  | anchor (name : Text)
  | tag (handle? : Option Text) (suffix : Text)
  | scalar (text : Text) (isPlain : Bool)
  deriving DecidableEq, Repr

/-- Something that is a key if a colon follows. -/
structure Candidate where
  /-- How many tokens stand before it. -/
  position : Nat
  /-- It can be nothing but a key. -/
  isRequired : Bool
  start : Cursor
  deriving Repr

/-- A text in the course of being cut up. -/
structure Lexer where
  cursor : Cursor
  /-- The tokens so far, last first. -/
  tokens : List Token := []
  /-- The depth of brackets. -/
  depth : Nat := 0
  /-- The indentation of the innermost block, and of those around it; the outermost has none. -/
  indent : Int := -1
  outer : List Int := []
  mayBeKey : Bool := true
  /-- The candidates by the depth of brackets. -/
  candidates : List (Nat × Candidate) := []
  deriving Repr

namespace Lexer

def isFlow (l : Lexer) : Bool := l.depth ≠ 0

/-- Adds a token. -/
def emit (l : Lexer) (t : Token) : Lexer := { l with tokens := t :: l.tokens }

/-- Adds a token that is some characters long. -/
def emitHere (l : Lexer) (t : Token) (length : Nat) : Lexer :=
  { l.emit t with cursor := l.cursor.advance length }

/-- Puts a token after the first so many tokens. -/
def insertAt (l : Lexer) (position : Nat) (t : Token) : Lexer :=
  let n := l.tokens.length - position
  { l with tokens := l.tokens.take n ++ t :: l.tokens.drop n }

/-! ## Indentation -/

/-- Ends the blocks that are indented deeper than a column. -/
def unwind (column : Int) : Nat → Lexer → Lexer
  | 0, l => l
  | fuel + 1, l =>
    if l.isFlow || l.indent ≤ column then l
    else unwind column fuel { l.emit .blockEnd with indent := (l.outer.head?).getD (-1), outer := l.outer.drop 1 }

/-- Ends the blocks that are indented deeper than a column. -/
def unwindTo (l : Lexer) (column : Int) : Lexer := unwind column (l.outer.length + 1) l

/-- A block starts where its column lies deeper than the block around it. -/
def indentTo (l : Lexer) (column position : Nat) (t : Token) : Lexer :=
  if l.indent < column then { l.insertAt position t with indent := column, outer := l.indent :: l.outer } else l

/-- The same at the cursor, for a block that starts with a mark. -/
def indentHere (l : Lexer) (t : Token) : Except Fault Lexer :=
  if l.isFlow then .ok l
  else if !l.mayBeKey then .error .misplaced
  else .ok (l.indentTo l.cursor.column l.tokens.length t)

/-! ## Keys -/

/-- Drops the candidate at the depth of the cursor. -/
def dropCandidate (l : Lexer) : Except Fault Lexer :=
  match l.candidates.lookup l.depth with
  | some c => if c.isRequired then .error .lostKey else .ok { l with candidates := l.candidates.filter (·.1 ≠ l.depth) }
  | none => .ok l

/-- Drops the candidates that have no colon on their line. -/
def dropStale (l : Lexer) : Except Fault Lexer :=
  let isStale := fun c : Candidate => c.start.line ≠ l.cursor.line || 1024 < l.cursor.index - c.start.index
  if l.candidates.any fun c => isStale c.2 && c.2.isRequired then .error .lostKey
  else .ok { l with candidates := l.candidates.filter fun c => !isStale c.2 }

/-- What comes next may be a key. -/
def addCandidate (l : Lexer) : Except Fault Lexer :=
  if l.mayBeKey then
    l.dropCandidate.map fun l =>
      let c : Candidate := ⟨l.tokens.length, !l.isFlow && l.indent = l.cursor.column, l.cursor⟩
      { l with candidates := (l.depth, c) :: l.candidates }
  else .ok l

/-! ## Tokens -/

/-- The place of the next token. -/
def skipToToken : Nat → Lexer → Lexer
  | 0, l => l
  | fuel + 1, l =>
    let c := if l.cursor.index = 0 && l.cursor.here = '\ufeff' then l.cursor.next else l.cursor
    let c := c.skipSpaces
    let c := if c.here = '#' then (c.span fun ch => !isEnd ch).2 else c
    let (found, after) := c.lineBreak
    if found = [] then { l with cursor := c }
    else skipToToken fuel { l with cursor := after, mayBeKey := l.mayBeKey || !l.isFlow }

/-- Ends all blocks, for a line that stands outside of them. -/
def leaveBlocks (l : Lexer) : Except Fault Lexer :=
  ((l.unwindTo (-1)).dropCandidate).map fun l => { l with mayBeKey := false }

/-- The handle of a tag: an exclamation mark, and with a name one more. -/
def tagHandle (c : Cursor) : Except Fault (Text × Cursor) :=
  if c.here ≠ '!' then .error .badName
  else if c.peek 1 = ' ' then .ok (['!'], c.next)
  else
    let (name, after) := c.next.span isNameChar
    if after.here = '!' then .ok ('!' :: name ++ ['!'], after.next) else .error .badName

/-- A character of the name of a tag. -/
def isTagChar (c : Char) : Bool := c.isAlphanum || "-;/?:@&=+$,_.!~*'()[]".toList.contains c

/-- A name of a tag. -/
def tagName (c : Cursor) : Except Fault (Text × Cursor) :=
  let (name, after) := c.span isTagChar
  if name = [] then .error .badName else .ok (name, after)

/-- The directive at the cursor. -/
def readDirective (c : Cursor) : Except Fault (Token × Cursor) := do
  let (name, after) := c.next.span isNameChar
  if name = [] || !(after.here = ' ' || isEnd after.here) then .error .badDirective
  else
    let (token, after) : Token × Cursor ←
      if name = "YAML".toList then
        let (major, dot) := after.skipSpaces.span Char.isDigit
        let (minor, rest) := dot.next.span Char.isDigit
        if major = [] || minor = [] || dot.here ≠ '.' then .error .badDirective
        else pure (.version (major.foldl (fun n d => 10 * n + (d.toNat - 48)) 0), rest)
      else if name = "TAG".toList then
        let (handle, rest) ← tagHandle after.skipSpaces
        if rest.here ≠ ' ' then .error .badDirective
        else
          let (front, rest) ← tagName rest.skipSpaces
          pure (.tagHandle handle front, rest)
      else pure (.directive, (after.span fun ch => !isEnd ch).2)
    if !(after.here = ' ' || isEnd after.here) then .error .badDirective
    else
      match after.restOfLine with
      | some after => .ok (token, after)
      | none => .error .badDirective

/-- The name after the mark of an anchor or an alias. -/
def readName (c : Cursor) : Except Fault (Text × Cursor) :=
  let (name, after) := c.next.span isNameChar
  if name ≠ [] && (isGap after.here || "?:,]\x7d%@\x60".toList.contains after.here) then .ok (name, after)
  else .error .badName

/-- The tag at the cursor. -/
def readTag (c : Cursor) : Except Fault (Token × Cursor) := do
  let (token, after) : Token × Cursor ←
    if c.peek 1 = '<' then
      let (name, after) ← tagName (c.advance 2)
      if after.here = '>' then pure (.tag none name, after.next) else .error .badName
    else if isGap (c.peek 1) then pure (.tag none ['!'], c.next)
    else
      let word := (c.next.span fun ch => !(ch = ' ' || isEnd ch)).1
      let (handle, after) ← if word.any (· = '!') then tagHandle c else pure (['!'], c.next)
      let (name, after) ← tagName after
      pure (.tag (some handle) name, after)
  if after.here = ' ' || isEnd after.here then .ok (token, after) else .error .badName

/-- Adds the token of a colon. -/
def addValue (l : Lexer) : Except Fault Lexer :=
  match l.candidates.lookup l.depth with
  | some c =>
    let l := { l with candidates := l.candidates.filter (·.1 ≠ l.depth) }
    let l := l.insertAt c.position .key
    let l := if l.isFlow then l else l.indentTo c.start.column c.position .blockMapping
    .ok ({ l with mayBeKey := false }.emitHere .value 1)
  | none => do
    let l ← l.indentHere .blockMapping
    let l ← dropCandidate { l with mayBeKey := !l.isFlow }
    return l.emitHere .value 1

/-- Adds a token that may start a key and was read up to a place. -/
def addNode (l : Lexer) (read : Cursor → Except Fault (Token × Cursor)) : Except Fault Lexer := do
  let l ← l.addCandidate
  let (token, after) ← read l.cursor
  return { l.emit token with cursor := after, mayBeKey := false }

/-- A plain text may start here. -/
def startsPlain (l : Lexer) : Bool :=
  let c := l.cursor.here
  !(isGap c || "-?:,[]\x7b\x7d#&*!|>'\"%@\x60".toList.contains c) ||
    (!isGap (l.cursor.peek 1) && (c = '-' || (!l.isFlow && (c = '?' || c = ':'))))

/-- Adds the token at the cursor, which is not the end. -/
def addToken (l : Lexer) : Except Fault Lexer :=
  let c := l.cursor
  let isMark := isGap (c.peek 1)
  if c.here = '%' && c.column = 0 then do
    let l ← l.leaveBlocks
    let (token, after) ← readDirective c
    return { l.emit token with cursor := after }
  else if c.column = 0 && c.isAtMark "---" then l.leaveBlocks.map fun l => l.emitHere .documentStart 3
  else if c.column = 0 && c.isAtMark "..." then l.leaveBlocks.map fun l => l.emitHere .documentEnd 3
  else if c.here = '[' || c.here = '\x7b' then
    l.addCandidate.map fun l =>
      { l with depth := l.depth + 1, mayBeKey := true }.emitHere (if c.here = '[' then .listOpen else .mappingOpen) 1
  else if c.here = ']' || c.here = '\x7d' then
    l.dropCandidate.map fun l =>
      { l with depth := l.depth - 1, mayBeKey := false }.emitHere (if c.here = ']' then .listClose else .mappingClose) 1
  else if c.here = ',' then
    (dropCandidate { l with mayBeKey := true }).map fun l => l.emitHere .comma 1
  else if c.here = '-' && isMark then do
    let l ← l.indentHere .blockList
    let l ← dropCandidate { l with mayBeKey := true }
    return l.emitHere .entry 1
  else if c.here = '?' && (l.isFlow || isMark) then do
    let l ← l.indentHere .blockMapping
    let l ← dropCandidate { l with mayBeKey := !l.isFlow }
    return l.emitHere .key 1
  else if c.here = ':' && (l.isFlow || isMark) then l.addValue
  else if c.here = '*' then l.addNode fun c => (readName c).map fun (name, after) => (.reference name, after)
  else if c.here = '&' then l.addNode fun c => (readName c).map fun (name, after) => (.anchor name, after)
  else if c.here = '!' then l.addNode readTag
  else if (c.here = '|' || c.here = '>') && !l.isFlow then do
    let l ← dropCandidate { l with mayBeKey := true }
    let (text, after) ← blockScalar l.indent c
    return { l.emit (.scalar text false) with cursor := after }
  else if c.here = '\'' || c.here = '"' then
    l.addNode fun c => (quotedScalar c).map fun (text, after) => (.scalar text false, after)
  else if l.startsPlain then do
    let l ← l.addCandidate
    let (text, after, lineEnded) := plainScalar l.isFlow (l.indent + 1) c
    return { l.emit (.scalar text true) with cursor := after, mayBeKey := lineEnded }
  else .error (.unexpected c.here)

/-- Cuts up what is left. -/
def run : Nat → Lexer → Except Fault Lexer
  | 0, l => .ok l
  | fuel + 1, l => do
    let l ← (skipToToken l.cursor.rest.length.succ l).dropStale
    let l := l.unwindTo l.cursor.column
    if l.cursor.isAtEnd then (l.unwindTo (-1)).dropCandidate else (← l.addToken).run fuel

end Lexer

/-- A character that a text may hold. -/
def isPrintable (c : Char) : Bool :=
  let n := c.toNat
  c = '\t' || c = '\n' || c = '\r' || (0x20 ≤ n && n ≤ 0x7E) || n = 0x85 || (0xA0 ≤ n && n ≤ 0xD7FF) ||
    (0xE000 ≤ n && n ≤ 0xFFFD) || 0x10000 ≤ n

/-- The tokens of a text. -/
def tokensOf (t : Text) : Except Fault (List Token) :=
  if t.all isPrintable then (Lexer.run (t.length + 1) { cursor := ⟨t, 0, 0, 0⟩ }).map fun l => l.tokens.reverse
  else .error .unprintable

end SourceDoc.Yaml
