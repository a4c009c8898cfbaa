import SourceDoc.Script.Kind

/-!
# Lexemes of scripts

Scanners for the tokens of scripts: each looks at the front of a text and gives the length of the token that
stands there.  `endsStatement` is the rule for statements that end without a semicolon.
-/

namespace SourceDoc.Script.Lexeme

/-! ## Blanks and comments -/

/-- A character that separates tokens. -/
def isBlank (c : Char) : Bool :=
  let n := c.toNat
  (9 ≤ n && n ≤ 13) || n = 32 || n = 0x85 || n = 0xA0 || n = 0x1680 || (0x2000 ≤ n && n ≤ 0x200B) ||
    n = 0x2028 || n = 0x2029 || n = 0x202F || n = 0x205F || n = 0x2060 || n = 0x3000 || n = 0xFEFF

/-- A character that ends a comment to the end of the line. -/
def isLineEnd (c : Char) : Bool :=
  c = '\n' || c = '\r' || c.toNat = 0x2028 || c.toNat = 0x2029

/-- The length of a text up to and with the first `*/`. -/
def blockEnd? : Text → Option Nat
  | [] => none
  | '*' :: '/' :: _ => some 2
  | _ :: rest => (blockEnd? rest).map (· + 1)

/-- The length of the comment at the front. -/
def comment? : Text → Option Nat
  | '/' :: '/' :: rest => some (2 + (rest.takeWhile (!isLineEnd ·)).length)
  | '/' :: '*' :: rest => (blockEnd? rest).map (2 + ·)
  | _ => none

/-- Blanks or a comment at the front. -/
def filler (t : Text) : Option Grammar.Filler :=
  match (t.takeWhile isBlank).length with
  | 0 => (comment? t).map .comment
  | n + 1 => some (.blank (n + 1))

/-- The text after the blanks and comments at its front, and whether a newline stood among them. -/
def afterFiller : Nat → Bool → Text → Bool × Text
  | 0, newline, t => (newline, t)
  | bound + 1, newline, t =>
    match filler t with
    | none => (newline, t)
    | some (.blank n) => afterFiller bound (newline || (t.take n).any (· = '\n')) (t.drop n)
    | some (.comment n) => afterFiller bound (newline || (t.take n).any (· = '\n')) (t.drop n)

/-- The next token stands on the same line. -/
def sameLine (t : Text) : Bool := !(afterFiller (t.length + 1) false t).1

/-- The text from the next token on. -/
def nextToken (t : Text) : Text := (afterFiller (t.length + 1) false t).2

/-! ## Words -/

/-- A character of an identifier other than a digit. -/
def isNameStart (c : Char) : Bool :=
  !(c.toNat < 32 || isBlank c || (48 ≤ c.toNat && c.toNat ≤ 57) ||
    (":;\x60\"'@#.,|^&<=>+-*/\\%?!~()[]\x7b\x7d".toList.any (· = c)))

/-- A digit of a number in the given base, up to sixteen. -/
def isDigit (base : Nat) (c : Char) : Bool :=
  let n := c.toNat
  if 48 ≤ n && n ≤ 57 then n - 48 < base
  else if 97 ≤ n && n ≤ 102 then n - 87 < base
  else if 65 ≤ n && n ≤ 70 then n - 55 < base
  else false

/-- The length of a character escape in a name, such as `\u0041`. -/
def nameEscape? : Text → Option Nat
  | '\\' :: 'u' :: '\x7b' :: rest =>
    let n := (rest.takeWhile (isDigit 16)).length
    match rest.drop n with
    | '\x7d' :: _ => if n = 0 then none else some (n + 4)
    | _ => none
  | '\\' :: 'u' :: rest => if ((rest.take 4).takeWhile (isDigit 16)).length = 4 then some 6 else none
  | _ => none

/-- The length of the rest of a name. -/
def nameRest : Nat → Text → Nat
  | 0, _ => 0
  | bound + 1, t =>
    match t with
    | [] => 0
    | c :: rest =>
      if isNameStart c || isDigit 10 c then 1 + nameRest bound rest
      else
        match nameEscape? (c :: rest) with
        | some n => n + nameRest bound ((c :: rest).drop n)
        | none => 0

/-- The length of the name at the front, whether reserved or not. -/
def name? (t : Text) : Option Nat :=
  match t with
  | [] => none
  | c :: _ =>
    if isNameStart c || (nameEscape? t).isSome then some (nameRest t.length t) else none

/-- Words that name nothing. -/
def reserved : List String :=
  ["break", "case", "catch", "class", "const", "continue", "debugger", "default", "delete", "do", "else",
    "export", "extends", "false", "finally", "for", "function", "if", "import", "in", "instanceof", "new",
    "null", "return", "super", "switch", "this", "throw", "true", "try", "typeof", "var", "void", "while",
    "with", "enum"]

/-- A name that is not reserved. -/
def identifier? (t : Text) : Option Nat :=
  match name? t with
  | some n => if reserved.any (·.toList = t.take n) then none else some n
  | none => none

/-- The given word, and no longer name. -/
def keyword? (word : String) (t : Text) : Option Nat :=
  match name? t with
  | some n => if t.take n = word.toList then some n else none
  | none => none

/-- A private name: a number sign and a name. -/
def privateName? : Text → Option Nat
  | '#' :: rest => (name? rest).map (· + 1)
  | _ => none

/-! ## Marks -/

/-- The given characters. -/
def exactly (s : String) (t : Text) : Option Nat :=
  if s.toList.isPrefixOf t then some s.length else none

/-- The operators, the longest first. -/
def operators : List String :=
  [">>>=", "===", "!==", "**=", "<<=", ">>=", ">>>", "&&=", "||=", "??=", "...",
    "=>", "==", "!=", "<=", ">=", "&&", "||", "??", "?.", "++", "--", "+=", "-=", "*=", "/=", "%=", "&=",
    "|=", "^=", "<<", ">>", "**",
    "=", "<", ">", "+", "-", "*", "/", "%", "&", "|", "^", "!", "~", "?", ":", ".", ",", ";", "@", "#"]

/-- The operator at the front, the longest that fits; a question mark and a point before a digit are two. -/
def operator? (t : Text) : Option String :=
  match t with
  | '?' :: '.' :: d :: _ =>
    if isDigit 10 d then some "?" else some "?."
  | _ => operators.find? fun s => s.toList.isPrefixOf t

/-- One of the given operators, and no longer one. -/
def oneOf (accepted : List String) (t : Text) : Option Nat :=
  match operator? t with
  | some s => if accepted.any (· = s) then some s.length else none
  | none => none

/-! ## Literals -/

/-- The length of a character escape that starts with a backslash. -/
def escape? : Text → Option Nat
  | '\\' :: 'x' :: rest => if ((rest.take 2).takeWhile (isDigit 16)).length = 2 then some 4 else none
  | '\\' :: 'u' :: rest => nameEscape? ('\\' :: 'u' :: rest)
  | '\\' :: '\r' :: '\n' :: _ => some 3
  | '\\' :: c :: rest =>
    if isDigit 8 c then some (1 + ((c :: rest).take 3 |>.takeWhile (isDigit 8)).length) else some 2
  | _ => none

/-- The length of the rest of a string up to and with its closing quote. -/
def stringRest? (quote : Char) : Nat → Text → Option Nat
  | 0, _ => none
  | bound + 1, t =>
    match t with
    | [] => none
    | c :: rest =>
      if c = quote then some 1
      else if c = '\\' then
        match escape? t with
        | some n => (stringRest? quote bound (t.drop n)).map (n + ·)
        | none => none
      else if c = '\n' || c = '\r' then none
      else (stringRest? quote bound rest).map (1 + ·)

/-- A string in single or double quotes. -/
def string? : Text → Option Nat
  | c :: rest => if c = '"' || c = '\'' then (stringRest? c (rest.length + 1) rest).map (1 + ·) else none
  | [] => none

/-- Characters of a template up to a substitution or its end. -/
def templateChars : Nat → Text → Nat
  | 0, _ => 0
  | bound + 1, t =>
    match t with
    | [] => 0
    | '$' :: '\x7b' :: _ => 0
    | c :: rest =>
      if c = '\x60' then 0
      else if c = '\\' then
        match escape? t with
        | some n => n + templateChars bound (t.drop n)
        | none => 0
      else 1 + templateChars bound rest

/-- At least one character of a template. -/
def templateChars? (t : Text) : Option Nat :=
  match templateChars (t.length + 1) t with
  | 0 => none
  | n + 1 => some (n + 1)

/-- The length of the rest of a regular expression, up to and with the closing slash. -/
def regexRest? : Nat → Bool → Text → Option Nat
  | 0, _, _ => none
  | bound + 1, inClass, t =>
    match t with
    | [] => none
    | '\\' :: c :: rest => if c = '\n' then none else (regexRest? bound inClass rest).map (2 + ·)
    | c :: rest =>
      if c = '\n' then none
      else if c = '/' && !inClass then some 1
      else
        let nowIn := if c = '[' then true else if c = ']' then false else inClass
        (regexRest? bound nowIn rest).map (1 + ·)

/-- A regular expression with its flags. -/
def regex? : Text → Option Nat
  | '/' :: c :: rest =>
    if c = '*' || c = '/' then none
    else
      match regexRest? (rest.length + 2) false (c :: rest) with
      | some n =>
        some (1 + n + (((c :: rest).drop n).takeWhile fun f => 97 ≤ f.toNat && f.toNat ≤ 122).length)
      | none => none
  | _ => none

/-- Digits of a base, single underscores between them, after a first digit. -/
def digitsRest (base : Nat) : Nat → Text → Nat
  | 0, _ => 0
  | bound + 1, t =>
    match t with
    | '_' :: c :: rest => if isDigit base c then 2 + digitsRest base bound rest else 0
    | c :: rest => if isDigit base c then 1 + digitsRest base bound rest else 0
    | [] => 0

/-- The length of a run of digits with single underscores between them, zero where there is none. -/
def digits (base : Nat) (t : Text) : Nat :=
  match t with
  | c :: rest => if isDigit base c then 1 + digitsRest base rest.length rest else 0
  | [] => 0

/-- The length of an exponent, zero where there is none. -/
def exponent (t : Text) : Nat :=
  match t with
  | c :: rest =>
    if c = 'e' || c = 'E' then
      let sign := match rest with
        | s :: _ => if s = '+' || s = '-' then 1 else 0
        | [] => 0
      match digits 10 (rest.drop sign) with
      | 0 => 0
      | n + 1 => 1 + sign + (n + 1)
    else 0
  | [] => 0

/-- A number after a letter for its base, with the two characters in front. -/
def basedNumber? (base : Nat) (rest : Text) : Option Nat :=
  match digits base rest with
  | 0 => none
  | n + 1 =>
    match rest.drop (n + 1) with
    | 'n' :: _ => some (n + 4)
    | _ => some (n + 3)

/-- A number in decimal. -/
def decimal? (t : Text) : Option Nat :=
  let whole := digits 10 t
  let rest := t.drop whole
  match whole, rest with
  | 0, '.' :: more =>
    match digits 10 more with
    | 0 => none
    | n + 1 => some (n + 2 + exponent (more.drop (n + 1)))
  | 0, _ => none
  | w + 1, '.' :: more =>
    let n := digits 10 more
    some (w + 2 + n + exponent (more.drop n))
  | w + 1, 'n' :: _ => some (w + 2)
  | w + 1, _ => some (w + 1 + exponent rest)

/-- A number. -/
def number? : Text → Option Nat
  | '0' :: c :: rest =>
    if c = 'x' || c = 'X' then basedNumber? 16 rest
    else if c = 'b' || c = 'B' then basedNumber? 2 rest
    else if c = 'o' || c = 'O' then basedNumber? 8 rest
    else decimal? ('0' :: c :: rest)
  | t => decimal? t

/-! ## Markup -/

/-- Text between markup elements. -/
def markupText? (t : Text) : Option Nat :=
  match (t.takeWhile fun c => !("\x7b<>\x7d".toList.any (· = c))).length with
  | 0 => none
  | n + 1 => some (n + 1)

/-- A name in markup; hyphens may stand inside. -/
def markupName? (t : Text) : Option Nat :=
  match name? t with
  | none => none
  | some n => some (n + ((t.drop n).takeWhile fun c => c = '-' || isNameStart c || isDigit 10 c).length)

/-- The value of a markup attribute in quotes; it may span lines and knows no escapes. -/
def markupString? : Text → Option Nat
  | q :: rest =>
    if q = '"' || q = '\'' then
      let n := (rest.takeWhile (· ≠ q)).length
      if (rest.drop n).isEmpty then none else some (n + 2)
    else none
  | [] => none

/-! ## Ends of statements -/

/-- A blank of the rule for ends of statements. -/
def isSpace (c : Char) : Bool :=
  let n := c.toNat
  (9 ≤ n && n ≤ 13) || n = 32

/-- A character that starts a new line for the rule for ends of statements. -/
def isNewline (c : Char) : Bool :=
  c = '\n' || c.toNat = 0x2028 || c.toNat = 0x2029

/-- The rest of a block comment after its `/*`, and whether a newline stood in it; all is read where it has no end. -/
def skipBlock (newline : Bool) : Text → Bool × Text
  | [] => (newline, [])
  | '*' :: '/' :: rest => (newline, rest)
  | c :: rest => skipBlock (newline || isNewline c) rest

/-- How a run of blanks and comments ends. -/
inductive Run where
  /-- At a slash that starts no comment. -/
  | slash
  /-- Right after a block comment, where the caller asked to stop there. -/
  | afterBlock (newline : Bool) (rest : Text)
  /-- At a token or at the end of the text. -/
  | token (rest : Text)

/-- Reads blanks and comments; `whole` says to go on after a block comment that no slash follows. -/
def readRun (whole : Bool) : Nat → Bool → Text → Run
  | 0, _, t => .token t
  | bound + 1, newline, t =>
    match t.dropWhile isSpace with
    | '/' :: '/' :: rest => readRun whole bound newline (rest.dropWhile (!isNewline ·))
    | '/' :: '*' :: rest =>
      let (now, after) := skipBlock newline rest
      match after with
      | '/' :: _ => readRun whole bound now after
      | _ => if whole then readRun whole bound now after else .afterBlock now after
    | '/' :: _ => .slash
    | rest => .token rest

/-- The front of the text goes on with `instanceof` or `in` rather than with a name. -/
def startsRelation (t : Text) : Bool :=
  match t with
  | 'i' :: 'n' :: rest =>
    match rest with
    | [] => true
    | c :: _ =>
      if !((97 ≤ c.toNat && c.toNat ≤ 122) || (65 ≤ c.toNat && c.toNat ≤ 90)) then true
      else
        match "stanceof".toList.isPrefixOf rest, rest.drop 8 with
        | false, _ => false
        | true, [] => true
        | true, d :: _ => !((97 ≤ d.toNat && d.toNat ≤ 122) || (65 ≤ d.toNat && d.toNat ≤ 90))
  | _ => false

/-- After a newline, the text cannot go on with the statement before it. -/
def startsAnew (d : Dialect) (afterExpression : Bool) (signature : Bool) (t : Text) : Bool :=
  match t with
  | [] => true
  | '+' :: rest => rest.head? = some '+'
  | '-' :: rest => rest.head? = some '-'
  | '!' :: rest => rest.head? ≠ some '='
  | '.' :: rest => !d.hasTypes && rest.head?.any (isDigit 10)
  | '\x7b' :: _ => !(d.hasTypes && signature)
  | '(' :: _ => d.hasTypes && !afterExpression
  | '[' :: _ => d.hasTypes && !afterExpression
  | c :: _ =>
    if "\x60,:;*%><=?^|&/".toList.any (· = c) then false
    else !startsRelation t

/-- The rest of the rule for ends of statements, from a newline on. -/
def endsAtNewline (d : Dialect) (afterExpression signature : Bool) (t : Text) : Bool :=
  match readRun true (t.length + 1) false (t.drop 1) with
  | .token rest => startsAnew d afterExpression signature rest
  | _ => false

/-- A statement may end here without a semicolon: at the end of the text, before a closing brace, or before a
newline after which the text cannot go on.  `afterExpression` says that an expression stands before.

Without types, a comment to the end of the line is looked through where no expression stands before, and a block
comment is looked through always. -/
def endsStatement (d : Dialect) (afterExpression signature : Bool) : Nat → Text → Bool
  | 0, _ => false
  | bound + 1, t =>
    match t with
    | [] => true
    | '\x7d' :: rest =>
      if d.hasTypes && (rest.dropWhile isSpace).head? = some ':' then afterExpression else true
    | c :: rest =>
      if c = '/' && !d.hasTypes then
        match readRun false (t.length + 1) false t with
        | .slash => false
        | .afterBlock newline after =>
          if newline && !afterExpression && after.head? ≠ some ',' && after.head? ≠ some '=' then true
          else endsBare d afterExpression signature bound after
        | .token after =>
          if !afterExpression && after.head? ≠ some ',' && after.head? ≠ some '=' then true
          else endsBare d afterExpression signature bound after
      else if isNewline c then endsAtNewline d afterExpression signature (c :: rest)
      else if isSpace c then endsStatement d afterExpression signature bound rest
      else false
where
  /-- The same rule right after a comment. -/
  endsBare (d : Dialect) (afterExpression signature : Bool) (bound : Nat) (t : Text) : Bool :=
    match t with
    | '\x7d' :: _ => true
    | c :: rest =>
      if isNewline c then endsAtNewline d afterExpression signature (c :: rest)
      else if isSpace c then endsStatement d afterExpression signature bound rest
      else false
    | [] => false

end SourceDoc.Script.Lexeme
