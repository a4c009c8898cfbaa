import SourceDoc.Json.Basic
import SourceDoc.Number.Literal

/-!
# Reading JSON

`Json.parse` reads a text as one value.  Besides the numbers of the standard it reads the words `NaN`, `Infinity`
and `-Infinity`.  An error says what was expected or found and at which character; the wording gives line,
column and character.
-/

namespace SourceDoc.Json

/-! ## Errors -/

/-- What is wrong. -/
inductive Fault where
  | value
  | propertyName
  | colon
  | comma
  | extraData
  | unterminatedString
  | controlCharacter
  | escape
  | unicodeEscape
  | byteOrderMark
  /-- A whole number has more digits than are read. -/
  | number (e : Number.IntError)
  deriving DecidableEq, Repr

/-- What is wrong with a text, and at which of its characters. -/
structure ParseError where
  fault : Fault
  offset : Nat
  deriving DecidableEq, Repr

/-- The words for what is wrong. -/
def Fault.words : Fault → Text
  | .value => "Expecting value".toList
  | .propertyName => "Expecting property name enclosed in double quotes".toList
  | .colon => "Expecting ':' delimiter".toList
  | .comma => "Expecting ',' delimiter".toList
  | .extraData => "Extra data".toList
  | .unterminatedString => "Unterminated string starting at".toList
  | .controlCharacter => "Invalid control character at".toList
  | .escape => "Invalid \\escape".toList
  | .unicodeEscape => "Invalid \\uXXXX escape".toList
  | .byteOrderMark => "Unexpected UTF-8 BOM (decode using utf-8-sig)".toList
  | .number e => e.message

/-- The wording of an error in a text. -/
def ParseError.message (source : Text) (e : ParseError) : Text :=
  match e.fault with
  | .number n => n.message
  | fault =>
    let before := source.take e.offset
    let line := Text.lineCount before
    let column := (Text.afterLast '\n' before).length + 1
    fault.words ++ ": line ".toList ++ Text.ofNat line ++ " column ".toList ++ Text.ofNat column ++
      " (char ".toList ++ Text.ofNat e.offset ++ [')']

/-! ## Tokens -/

/-- A blank between tokens. -/
def isSpace (c : Char) : Bool := c = ' ' || c = '\t' || c = '\n' || c = '\r'

/-- A text with the number of characters before it. -/
structure Input where
  rest : Text
  offset : Nat

/-- The input after some characters. -/
def Input.drop (i : Input) (n : Nat) : Input := ⟨i.rest.drop n, i.offset + n⟩

/-- The input without blanks at its front. -/
def Input.skip (i : Input) : Input :=
  let n := (i.rest.takeWhile isSpace).length
  i.drop n

/-- The value of a hexadecimal digit. -/
def hexValue? (c : Char) : Option Nat :=
  let n := c.toNat
  if 48 ≤ n && n ≤ 57 then some (n - 48)
  else if 97 ≤ n && n ≤ 102 then some (n - 87)
  else if 65 ≤ n && n ≤ 70 then some (n - 55)
  else none

/-- The number that four hexadecimal digits at the front write. -/
def unit? : Text → Option Nat
  | a :: b :: c :: d :: _ =>
    match hexValue? a, hexValue? b, hexValue? c, hexValue? d with
    | some a, some b, some c, some d => some (((a * 16 + b) * 16 + c) * 16 + d)
    | _, _, _, _ => none
  | _ => none

/-- The character of an escape with a letter. -/
def letterEscape? (c : Char) : Option Char :=
  if c = '"' || c = '\\' || c = '/' then some c
  else if c = 'b' then some (Char.ofNat 8)
  else if c = 'f' then some (Char.ofNat 12)
  else if c = 'n' then some '\n'
  else if c = 'r' then some '\r'
  else if c = 't' then some '\t'
  else none

def isHighSurrogate (n : Nat) : Bool := 0xD800 ≤ n && n ≤ 0xDBFF

def isLowSurrogate (n : Nat) : Bool := 0xDC00 ≤ n && n ≤ 0xDFFF

/-- The character of a UTF-16 unit that stands alone. -/
def loneUnit (n : Nat) : Char := if 0xD800 ≤ n && n ≤ 0xDFFF then Char.ofNat 0xFFFD else Char.ofNat n

/-- The character of an escape after its `\u`, and how many characters write it; a high and a low surrogate are one
character.  `i` stands after the `\u`; at least one character follows each escape. -/
def unicodeEscape (i : Input) : Except ParseError (Char × Nat) :=
  if i.rest.length ≤ 4 then .error ⟨.unicodeEscape, i.offset - 1⟩
  else
    match unit? i.rest with
    | none => .error ⟨.unicodeEscape, i.offset - 1⟩
    | some high =>
      match isHighSurrogate high, i.rest.drop 4 with
      | true, '\\' :: 'u' :: more =>
        if more.length ≤ 4 then .ok (loneUnit high, 4)
        else
          match unit? more with
          | none => .error ⟨.unicodeEscape, i.offset + 5⟩
          | some low =>
            if isLowSurrogate low then
              .ok (Char.ofNat (0x10000 + (high - 0xD800) * 0x400 + (low - 0xDC00)), 10)
            else .ok (loneUnit high, 4)
      | _, _ => .ok (loneUnit high, 4)

/-- The rest of a text up to its closing quote; `opened` is the place of the opening quote. -/
def parseTextFrom (opened : Nat) : Nat → Text → Input → Except ParseError (Text × Input)
  | 0, _, _ => .error ⟨.unterminatedString, opened⟩
  | bound + 1, read, i =>
    match i.rest with
    | [] => .error ⟨.unterminatedString, opened⟩
    | '"' :: _ => .ok (read.reverse, i.drop 1)
    | '\\' :: rest =>
      match rest with
      | [] => .error ⟨.unterminatedString, opened⟩
      | 'u' :: _ =>
        match unicodeEscape (i.drop 2) with
        | .error e => .error e
        | .ok (c, n) => parseTextFrom opened bound (c :: read) (i.drop (2 + n))
      | c :: _ =>
        match letterEscape? c with
        | none => .error ⟨.escape, i.offset⟩
        | some d => parseTextFrom opened bound (d :: read) (i.drop 2)
    | c :: _ =>
      if c.toNat < 32 then .error ⟨.controlCharacter, i.offset⟩
      else parseTextFrom opened bound (c :: read) (i.drop 1)

/-- A text whose opening quote stands at the front. -/
def parseText (i : Input) : Except ParseError (Text × Input) :=
  parseTextFrom i.offset (i.rest.length + 1) [] (i.drop 1)

/-- The digits at the front. -/
def digits (t : Text) : Text := t.takeWhile fun c => 48 ≤ c.toNat && c.toNat ≤ 57

/-- The values of some digits. -/
def digitValues (t : Text) : List Nat := t.map fun c => c.toNat - 48

/-- The whole part, the digits of the fraction and the exponent of a number at the front, with its length. -/
structure Numeral where
  whole : Text
  fraction : Text
  exponent : Option Int
  length : Nat

/-- The digits of the whole part of a number at the front; after a zero in front there are no more. -/
def wholePart? (t : Text) : Option Text :=
  match digits t with
  | [] => none
  | '0' :: _ => some ['0']
  | ds => some ds

/-- The digits of a fraction at the front, which starts with a point. -/
def fractionPart : Text → Text
  | '.' :: rest => digits rest
  | _ => []

/-- An exponent at the front, with its length. -/
def exponentPart? : Text → Option (Int × Nat)
  | [] => none
  | e :: rest =>
    if e = 'e' || e = 'E' then
      let (negative, body) := Number.sign rest
      let ds := digits body
      if ds = [] then none
      else
        let n : Int := Number.ofDigits (digitValues ds)
        some (if negative then -n else n, 1 + (rest.length - body.length) + ds.length)
    else none

/-- A number without its sign. -/
def numeral? (t : Text) : Option Numeral :=
  (wholePart? t).map fun whole =>
    let afterWhole := t.drop whole.length
    let fraction := fractionPart afterWhole
    let pointed := if fraction = [] then 0 else fraction.length + 1
    let exponent? := exponentPart? (afterWhole.drop pointed)
    { whole := whole, fraction := fraction, exponent := exponent?.map Prod.fst
      length := whole.length + pointed + (exponent?.map Prod.snd).getD 0 }

/-- A minus sign at the front, and the rest. -/
def minusSign : Text → Bool × Text
  | '-' :: rest => (true, rest)
  | t => (false, t)

/-- A number at the front, or one of the words for numbers that are not finite. -/
def parseNumber (i : Input) : Except ParseError (Json × Input) :=
  let (negative, body) := minusSign i.rest
  match numeral? body with
  | none => .error ⟨.value, i.offset⟩
  | some n =>
    let after := i.drop (n.length + if negative then 1 else 0)
    if n.fraction = [] ∧ n.exponent = none then
      if n.whole.length > Number.maxDigits then .error ⟨.number (.tooLong n.whole.length), i.offset⟩
      else
        let whole : Int := Number.ofDigits (digitValues n.whole)
        .ok (.int (if negative then -whole else whole), after)
    else
      let ds := Number.ofDigits (digitValues (n.whole ++ n.fraction))
      .ok (.real (Binary64.ofDecimal negative ds (n.exponent.getD 0 - n.fraction.length)), after)

/-- The words that are values. -/
def constants : List (Text × Json) :=
  [("null".toList, .null), ("true".toList, .bool true), ("false".toList, .bool false),
    ("NaN".toList, .real .nan), ("Infinity".toList, .real (.infinite false)),
    ("-Infinity".toList, .real (.infinite true))]

/-- A word or a number at the front. -/
def parseAtom (i : Input) : Except ParseError (Json × Input) :=
  match constants.find? fun (word, _) => word.isPrefixOf i.rest with
  | some (word, value) => .ok (value, i.drop word.length)
  | none => parseNumber i

/-! ## Values -/

mutual

/-- A value at the front. -/
def parseValue : Nat → Input → Except ParseError (Json × Input)
  | 0, i => .error ⟨.value, i.offset⟩
  | bound + 1, i =>
    match i.rest with
    | '"' :: _ =>
      match parseText i with
      | .error e => .error e
      | .ok (t, after) => .ok (.text t, after)
    | '[' :: _ =>
      let inner := (i.drop 1).skip
      match inner.rest with
      | ']' :: _ => .ok (.list [], inner.drop 1)
      | _ => parseItems bound [] inner
    | '\x7b' :: _ =>
      let inner := (i.drop 1).skip
      match inner.rest with
      | '\x7d' :: _ => .ok (.object [], inner.drop 1)
      | _ => parseMembers bound [] inner
    | _ => parseAtom i

/-- The items of a list from one on, up to the closing bracket; those read come last first. -/
def parseItems : Nat → List Json → Input → Except ParseError (Json × Input)
  | 0, _, i => .error ⟨.value, i.offset⟩
  | bound + 1, read, i =>
    match parseValue bound i with
    | .error e => .error e
    | .ok (item, after) =>
      let next := after.skip
      match next.rest with
      | ']' :: _ => .ok (.list (item :: read).reverse, next.drop 1)
      | ',' :: _ => parseItems bound (item :: read) (next.drop 1).skip
      | _ => .error ⟨.comma, next.offset⟩

/-- The members of an object from one on, up to the closing brace; those read come last first. -/
def parseMembers : Nat → Members → Input → Except ParseError (Json × Input)
  | 0, _, i => .error ⟨.value, i.offset⟩
  | bound + 1, read, i =>
    match i.rest with
    | '"' :: _ =>
      match parseText i with
      | .error e => .error e
      | .ok (name, after) =>
        let atColon := after.skip
        match atColon.rest with
        | ':' :: _ =>
          match parseValue bound (atColon.drop 1).skip with
          | .error e => .error e
          | .ok (value, afterValue) =>
            let next := afterValue.skip
            match next.rest with
            | '\x7d' :: _ => .ok (.object (Table.ofPairs ((name, value) :: read).reverse), next.drop 1)
            | ',' :: _ => parseMembers bound ((name, value) :: read) (next.drop 1).skip
            | _ => .error ⟨.comma, next.offset⟩
        | _ => .error ⟨.colon, atColon.offset⟩
    | _ => .error ⟨.propertyName, i.offset⟩

end

/-- Reads a text as one value. -/
def parse (source : Text) : Except ParseError Json :=
  if source.head? = some (Char.ofNat 0xFEFF) then .error ⟨.byteOrderMark, 0⟩
  else
    match parseValue (2 * source.length + 2) (Input.skip ⟨source, 0⟩) with
    | .error e => .error e
    | .ok (value, after) =>
      let last := after.skip
      if last.rest = [] then .ok value else .error ⟨.extraData, last.offset⟩

end SourceDoc.Json
