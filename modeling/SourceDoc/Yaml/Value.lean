import SourceDoc.Number.Literal
import SourceDoc.Text.Case
import SourceDoc.Text.Pattern
import SourceDoc.Yaml.Node

/-!
# YAML values

What a node stands for.  A plain scalar is a truth value, a number, a date, nothing, or else a text, by the way it is
written; a quoted one is a text.  A number may be written in base 60, with a colon between its places.
-/

namespace SourceDoc.Yaml

/-- A value. -/
inductive Value where
  | null
  | flag (b : Bool)
  | int (i : Int)
  | real (x : Binary64)
  | text (t : Text)
  | list (items : List Value)
  /-- The members under texts, in the order of their first keys. -/
  | mapping (members : List (Text × Value))
  /-- A date, or something else that nobody asks for. -/
  | other
  deriving Repr

/-! ## Plain scalars -/

/-- The truth value that a word stands for. -/
def flagOf? (t : Text) : Option Bool :=
  let isOneOf := fun (words : List String) => words.any fun w => w.toList = t
  if isOneOf ["yes", "Yes", "YES", "true", "True", "TRUE", "on", "On", "ON"] then some true
  else if isOneOf ["no", "No", "NO", "false", "False", "FALSE", "off", "Off", "OFF"] then some false
  else none

/-- A text stands for nothing. -/
def isNull (t : Text) : Bool := ["", "~", "null", "Null", "NULL"].any fun w => w.toList = t

def isBinary (c : Char) : Bool := c = '0' || c = '1'

def isOctal (c : Char) : Bool := '0' ≤ c && c ≤ '7'

def isHex (c : Char) : Bool := (hexDigit? c).isSome

/-- The digits of a text, in which lines stand for nothing, where it starts with a digit of the kind. -/
def digitsOf? (isKind : Char → Bool) (t : Text) : Option (List Nat) :=
  match t with
  | [] => none
  | c :: _ => if isKind c && t.all (fun c => isKind c || c = '_') then some (t.filterMap hexDigit?) else none

def inBase (base : Nat) (ds : List Nat) : Nat := ds.foldl (fun n d => base * n + d) 0

/-- A place of a number in base 60 after the first: one or two digits, and less than 60. -/
def sixtieth? (t : Text) : Option Nat :=
  match t with
  | [c] => if c.isDigit then hexDigit? c else none
  | [c, d] => if isOctal c && c ≤ '5' && d.isDigit then some (inBase 10 ([c, d].filterMap hexDigit?)) else none
  | _ => none

/-- The whole number that a text without sign stands for. -/
def naturalOf? (t : Text) : Option Nat :=
  match t with
  | ['0'] => some 0
  | '0' :: 'b' :: c :: rest => (digitsOf? isBinary ('0' :: c :: rest)).map (inBase 2)
  | '0' :: 'x' :: c :: rest => (digitsOf? isHex ('0' :: c :: rest)).map (inBase 16)
  | '0' :: rest => (digitsOf? isOctal ('0' :: rest)).map (inBase 8)
  | _ =>
    match Text.splitOn ':' t with
    | [] => none
    | first :: places => do
      let n ← (digitsOf? Char.isDigit first).map (inBase 10)
      let ns ← places.mapM sixtieth?
      return inBase 60 (n :: ns)

/-- The sign of a text that has one, and the text without it. -/
def signOf (t : Text) : Bool × Text :=
  match t with
  | '-' :: rest => (true, rest)
  | '+' :: rest => (false, rest)
  | _ => (false, t)

/-- The whole number that a text stands for. -/
def intOf? (t : Text) : Option Int :=
  let (isNegative, body) := signOf t
  (naturalOf? body).map fun n => if isNegative then -(n : Int) else n

/-- The exponent of a real number: empty, or with a sign. -/
def isExponent (t : Text) : Bool :=
  match t with
  | [] => true
  | e :: s :: ds => (e = 'e' || e = 'E') && (s = '+' || s = '-') && ds ≠ [] && ds.all Char.isDigit
  | _ => false

/-- The sum of two finite numbers. -/
def addReals (x y : Binary64) : Binary64 :=
  match x.ratio?, y.ratio? with
  | some (s, a, b), some (t, c, d) =>
    let signed := fun (isNegative : Bool) (n : Nat) => if isNegative then -(n : Int) else n
    let n := signed s (a * d) + signed t (c * b)
    .ofRatio (n < 0) n.natAbs (b * d)
  | _, _ => .nan

/-- A finite number so many times. -/
def timesReal (n : Nat) (x : Binary64) : Binary64 :=
  match x.ratio? with
  | some (s, a, b) => .ofRatio s (n * a) b
  | none => .nan

/-- The places of a number in base 60, last first, summed up from the last. -/
def sumPlaces (base : Nat) (sum : Binary64) : List Binary64 → Binary64
  | [] => sum
  | x :: rest => sumPlaces (60 * base) (addReals sum (timesReal base x)) rest

/-- The real number in base 60 that a text without sign stands for. -/
def sixtiesOf? (t : Text) : Option Binary64 :=
  match (Text.splitOn ':' t).reverse with
  | last :: place :: places => do
    let (whole, fraction) ← Text.breakOn? ['.'] last
    let n ← sixtieth? whole
    let middle := (place :: places).dropLast
    let ns ← middle.mapM sixtieth?
    let first ← (digitsOf? Char.isDigit ((places.getLast?).getD place)).map (inBase 10)
    let fs := (fraction.filter (· ≠ '_')).filterMap hexDigit?
    let lastPlace := Binary64.ofDecimal false (inBase 10 (n :: fs)) (-(fs.length : Int))
    if !fraction.all (fun c => c.isDigit || c = '_') then none
    else some (sumPlaces 1 .zero (lastPlace :: (ns ++ [first]).map fun n : Nat => Binary64.ofInt (n : Int)))
  | _ => none

/-- The real number that a text stands for; it has a point, or is infinite, or no number. -/
def realOf? (t : Text) : Option Binary64 :=
  let isOneOf := fun (words : List String) (t : Text) => words.any fun w => w.toList = t
  let (isNegative, body) := signOf t
  if isOneOf [".inf", ".Inf", ".INF"] body then some (.infinite isNegative)
  else if isOneOf [".nan", ".NaN", ".NAN"] t then some .nan
  else
    match Text.breakOn? ['.'] body with
    | none => none
    | some (whole, rest) =>
      let (fraction, exponent) := (rest.takeWhile (fun c => c.isDigit || c = '_'),
        rest.dropWhile fun c => c.isDigit || c = '_')
      let isPlain := (digitsOf? Char.isDigit whole).isSome
      let isBare := whole = [] && body = t && (digitsOf? Char.isDigit fraction).isSome
      if (isPlain || isBare) && isExponent exponent then Number.parseReal? (t.filter (· ≠ '_'))
      else if exponent = [] then (sixtiesOf? body).map fun x => if isNegative then x.negate else x
      else none

/-! ## Dates -/

/-- The number at the front of a text, of some least and some most digits, and what follows it. -/
def numberAt? (least most : Nat) (t : Text) : Option (Nat × Text) :=
  let ds := (t.take most).takeWhile Char.isDigit
  if ds.length < least then none else some (inBase 10 (ds.filterMap hexDigit?), t.drop ds.length)

/-- The year, the month and the day at the front of a text. -/
def dayAt? (least : Nat) (t : Text) : Option (Nat × Nat × Nat × Text) := do
  let (year, t) ← numberAt? 4 4 t
  let t ← Text.after? ['-'] t
  let (month, t) ← numberAt? least 2 t
  let t ← Text.after? ['-'] t
  let (day, t) ← numberAt? least 2 t
  return (year, month, day, t)

/-- What stands between a day and a time, left out. -/
def afterDay? (t : Text) : Option Text :=
  match t with
  | 'T' :: rest => some rest
  | 't' :: rest => some rest
  | c :: rest => if c = ' ' || c = '\t' then some (rest.dropWhile fun c => c = ' ' || c = '\t') else none
  | [] => none

/-- A text is a time zone, or empty. -/
def isZone (t : Text) : Bool :=
  let body := t.dropWhile fun c => c = ' ' || c = '\t'
  t = [] || body = ['Z'] ||
    match body with
    | s :: rest =>
      (s = '+' || s = '-') &&
        match numberAt? 1 2 rest with
        | some (_, []) => true
        | some (_, ':' :: minutes) => (numberAt? 2 2 minutes).any fun x => x.2 = []
        | _ => false
    | [] => false

/-- The hour, the minute and the second that a text stands for, maybe with a fraction and a zone. -/
def timeOf? (t : Text) : Option (Nat × Nat × Nat) := do
  let (hour, t) ← numberAt? 1 2 t
  let t ← Text.after? [':'] t
  let (minute, t) ← numberAt? 2 2 t
  let t ← Text.after? [':'] t
  let (second, t) ← numberAt? 2 2 t
  let zone := match t with
    | '.' :: rest => rest.dropWhile Char.isDigit
    | _ => t
  if isZone zone then some (hour, minute, second) else none

/-- How many days a month has. -/
def daysIn (year month : Nat) : Nat :=
  let isLeap := year % 4 = 0 && (year % 100 ≠ 0 || year % 400 = 0)
  if month = 2 then (if isLeap then 29 else 28) else if [4, 6, 9, 11].contains month then 30 else 31

/-- A day and a time are on the calendar and on the clock. -/
def checkDate (year month day hour minute second : Nat) : Except Fault Value :=
  if year = 0 then .error (.misfit (.noSuchTime "year 0 is out of range"))
  else if month = 0 || 12 < month then .error (.misfit (.noSuchTime "month must be in 1..12"))
  else if day = 0 || daysIn year month < day then .error (.misfit (.noSuchTime "day is out of range for month"))
  else if 23 < hour then .error (.misfit (.noSuchTime "hour must be in 0..23"))
  else if 59 < minute then .error (.misfit (.noSuchTime "minute must be in 0..59"))
  else if 59 < second then .error (.misfit (.noSuchTime "second must be in 0..59"))
  else .ok .other

/-- The date that a text stands for, maybe with a time. -/
def dateOf? (t : Text) : Option (Except Fault Value) :=
  match dayAt? 2 t with
  | some (y, m, d, []) => some (checkDate y m d 0 0 0)
  | _ => do
    let (y, m, d, rest) ← dayAt? 1 t
    let (h, min, s) ← timeOf? (← afterDay? rest)
    return checkDate y m d h min s

/-! ## Nodes -/

/-- The value of a plain scalar. -/
def plainValue (t : Text) : Except Fault Value :=
  match flagOf? t, realOf? t, intOf? t with
  | some b, _, _ => .ok (.flag b)
  | _, some x, _ => .ok (.real x)
  | _, _, some i => .ok (.int i)
  | _, _, _ =>
    if isNull t then .ok .null
    else if t = ['<', '<'] || t = ['='] then .error .unknownTag
    else (dateOf? t).getD (.ok (.text t))

/-- The name of a tag of the format itself. -/
def ownTag? (name : Text) : Option Text := Text.after? "tag:yaml.org,2002:".toList name

/-- The truth value that a scalar is said to be. -/
def taggedFlag (t : Text) : Except Fault Value :=
  match flagOf? (Text.lower t) with
  | some b => .ok (.flag b)
  | none => .error (.misfit (.notFlag (Text.lower t)))

/-- A whole number written in base 2, 8, 10 or 16, maybe with the mark of its base in front. -/
def intInBase (base : Nat) (t : Text) : Except Fault Int :=
  let (isNegative, body) := Number.sign (Number.bare t)
  let mark := if base = 2 then ['b', 'B'] else if base = 8 then ['o', 'O'] else if base = 16 then ['x', 'X'] else []
  let digits := match body with
    | '0' :: c :: rest => if mark.contains c then rest else body
    | _ => body
  let value? := fun c => ((hexDigit? c).or (Text.digitValue? c)).filter (· < base)
  match Number.digitRun? value? digits with
  | some ds => .ok (if isNegative then -(inBase base ds : Int) else inBase base ds)
  | none => .error (.misfit (.notInt base t))

/-- A tagged number without underscores: its sign, and what follows it. -/
def taggedBody (t : Text) : Except Fault (Bool × Text) :=
  let t := t.filter (· ≠ '_')
  if t = [] then .error (.misfit .empty) else .ok (signOf t)

/-- The whole number that a scalar is said to be. -/
def taggedInt (t : Text) : Except Fault Value := do
  let (isNegative, body) ← taggedBody t
  let n ← match body with
    | [] => .error (.misfit .empty)
    | ['0'] => .ok 0
    | '0' :: 'b' :: rest => intInBase 2 rest
    | '0' :: 'x' :: rest => intInBase 16 rest
    | '0' :: _ => intInBase 8 body
    | _ => ((Text.splitOn ':' body).mapM (intInBase 10)).map (List.foldl (fun n d => 60 * n + d) 0)
  return .int (if isNegative then -n else n)

/-- A number that is read as a real one. -/
def taggedPlace (t : Text) : Except Fault Binary64 :=
  match Number.parseReal? t with
  | some x => .ok x
  | none => .error (.misfit (.notReal t))

/-- The real number that a scalar is said to be. -/
def taggedReal (t : Text) : Except Fault Value := do
  let (isNegative, body) ← taggedBody (Text.lower t)
  if body = ".nan".toList then return .real .nan
  let x ←
    if body = ".inf".toList then .ok (.infinite false)
    else
      match Text.splitOn ':' body with
      | [whole] => taggedPlace whole
      | places => (places.mapM taggedPlace).map fun xs => sumPlaces 1 .zero xs.reverse
  return .real (if isNegative then x.negate else x)

/-- The date that a scalar is said to be. -/
def taggedDate (t : Text) : Except Fault Value := (dateOf? t).getD (.error (.misfit .notTime))

/-- The value of a scalar. -/
def scalarValue (tag : Tag) (t : Text) (isPlain : Bool) : Except Fault Value :=
  match tag with
  | .none => if isPlain then plainValue t else .ok (.text t)
  | .plain => plainValue t
  | .named name =>
    match (ownTag? name).map String.ofList with
    | some "str" => .ok (.text t)
    | some "null" => .ok .null
    | some "bool" => taggedFlag t
    | some "int" => taggedInt t
    | some "float" => taggedReal t
    | some "timestamp" => taggedDate t
    | _ => .error .unknownTag

/-- A list or mapping may have a tag. -/
def fits (tag : Tag) (kinds : List String) : Bool :=
  match tag with
  | .named name => kinds.any fun kind => ownTag? name = some kind.toList
  | _ => true

/-- A key that takes in the members of other mappings. -/
def isMerge : Node → Bool
  | .scalar .none t isPlain => isPlain && t = ['<', '<']
  | .scalar (.named name) _ _ => ownTag? name = some "merge".toList
  | _ => false

/-- The members that a merge takes in.  Of several mappings the first has the last word. -/
def mergedMembers : Value → Except Fault (List (Text × Value))
  | .mapping members => .ok members
  | .list items => do
    let lists ← items.reverse.mapM fun v =>
      match v with
      | .mapping members => .ok members
      | _ => .error .badMerge
    return lists.flatten
  | _ => .error .badMerge

mutual

/-- The value of a node. -/
def Node.value : Node → Except Fault Value
  | .scalar tag t isPlain => scalarValue tag t isPlain
  | .list tag items =>
    if fits tag ["seq", "omap", "pairs"] then (values items).map .list else .error .unknownTag
  | .mapping tag members =>
    if fits tag ["map", "set"] then (memberValues members).map fun (merged, own) => .mapping (Table.ofPairs (merged ++ own))
    else .error .unknownTag

/-- The values of some nodes. -/
def values : List Node → Except Fault (List Value)
  | [] => .ok []
  | n :: rest => do
    let v ← n.value
    return v :: (← values rest)

/-- The members of a mapping: those that merges take in, and its own under texts. -/
def memberValues : List (Node × Node) → Except Fault (List (Text × Value) × List (Text × Value))
  | [] => .ok ([], [])
  | (key, n) :: rest => do
    let v ← n.value
    let k ← match key with
      | .scalar .none ['='] true => .ok (.text ['='])
      | _ => if isMerge key then .ok .null else key.value
    let (merged, own) ← memberValues rest
    if isMerge key then return ((← mergedMembers v) ++ merged, own)
    match k with
    | .text name => return (merged, (name, v) :: own)
    | .list _ => .error .badKey
    | .mapping _ => .error .badKey
    | _ => return (merged, own)

end

/-- The value that a text writes; a text without a document writes nothing. -/
def parse (t : Text) : Except Fault Value := do
  match ← Reader.document? (← tokensOf t) with
  | some n => n.value
  | none => return .null

end SourceDoc.Yaml
