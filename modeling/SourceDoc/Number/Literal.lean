import SourceDoc.Number.Binary64
import SourceDoc.Text.Blank
import SourceDoc.Text.Quoted
import SourceDoc.Text.Word

/-!
# Numbers written as text

`parseInt` and `parseReal?` read a number that a user has written: blanks around it, a sign, digits of any
script, and single underscores between digits are allowed.
-/

namespace SourceDoc.Number

/-- Why a text is no whole number. -/
inductive IntError where
  /-- It is not written like one. -/
  | malformed (t : Text)
  /-- It has more digits than are read. -/
  | tooLong (digits : Nat)
  deriving DecidableEq, Repr

/-- The most digits that are read as a whole number. -/
def maxDigits : Nat := 4300

/-- The wording of the reason. -/
def IntError.message : IntError → Text
  | malformed t => "invalid literal for int() with base 10: ".toList ++ (Text.quoted t).take 200
  | tooLong n =>
    "Exceeds the limit (4300 digits) for integer string conversion: value has ".toList ++ Text.ofNat n ++
      " digits; use sys.set_int_max_str_digits() to increase the limit".toList

/-- The values of a run of digits with single underscores between them. -/
def digitRun? (value? : Char → Option Nat) : Text → Option (List Nat)
  | [] => none
  | [c] => (value? c).map ([·])
  | c :: '_' :: rest =>
    match value? c, digitRun? value? rest with
    | some d, some ds => some (d :: ds)
    | _, _ => none
  | c :: rest =>
    match value? c, digitRun? value? rest with
    | some d, some ds => some (d :: ds)
    | _, _ => none

/-- The number with the given decimal digits. -/
def ofDigits (ds : List Nat) : Nat := ds.foldl (fun n d => 10 * n + d) 0

/-- A sign at the front, and the rest. -/
def sign : Text → Bool × Text
  | '-' :: rest => (true, rest)
  | '+' :: rest => (false, rest)
  | t => (false, t)

/-- A written number without the white space around it; information separators do not count as such. -/
def bare (t : Text) : Text := Text.trim (fun c => Text.isBlank c && !Text.isSeparator c) t

/-- Reads a whole number. -/
def parseInt (t : Text) : Except IntError Int :=
  let (negative, body) := sign (bare t)
  match digitRun? Text.digitValue? body with
  | none => .error (.malformed t)
  | some ds =>
    if ds.length > maxDigits then .error (.tooLong ds.length)
    else
      let n : Int := ofDigits ds
      .ok (if negative then -n else n)

/-- The digits before and after a point, and the exponent; at least one digit stands on either side of the point. -/
def realParts? (t : Text) : Option (List Nat × List Nat × Int) :=
  let isExponent := fun c => c = 'e' || c = 'E'
  let mantissa := t.takeWhile (!isExponent ·)
  let exponent? : Option Int :=
    match t.dropWhile (!isExponent ·) with
    | [] => some 0
    | _ :: rest =>
      let (negative, digits) := sign rest
      (digitRun? Text.digitValue? digits).map fun ds =>
        let n : Int := ofDigits ds
        if negative then -n else n
  let whole := mantissa.takeWhile (· ≠ '.')
  let fraction? : Option Text := match mantissa.dropWhile (· ≠ '.') with
    | [] => none
    | _ :: rest => some rest
  let run := fun (digits : Text) => if digits = [] then some [] else digitRun? Text.digitValue? digits
  match exponent?, run whole, run (fraction?.getD []) with
  | some e, some w, some f => if w = [] ∧ f = [] then none else some (w, f, e)
  | _, _, _ => none

/-- The text in lower case, for ASCII letters. -/
def asciiLower (t : Text) : Text :=
  t.map fun c => if 65 ≤ c.toNat && c.toNat ≤ 90 then Char.ofNat (c.toNat + 32) else c

/-- Reads a real number; infinity and what is not a number have words. -/
def parseReal? (t : Text) : Option Binary64 :=
  let (negative, body) := sign (bare t)
  let word := asciiLower body
  if word = "inf".toList ∨ word = "infinity".toList then some (.infinite negative)
  else if word = "nan".toList then some .nan
  else
    (realParts? body).map fun (w, f, e) => Binary64.ofDecimal negative (ofDigits (w ++ f)) (e - f.length)

end SourceDoc.Number
