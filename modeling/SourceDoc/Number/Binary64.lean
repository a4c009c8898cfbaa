import SourceDoc.Text.Basic

/-!
# Binary floating-point numbers of 64 bits

A number of the IEEE 754 format binary64, held exactly: `finite negative m q` is m · 2^q, with m below 2^53 and
q at least -1074, and with m at least 2^52 unless q is -1074.  `ofRatio` rounds a fraction to the nearest such
number, a tie to the even neighbour; `ofDecimal` reads a decimal.

`shortest` finds the fewest decimal digits that read back as the number: for one digit, two digits and so on
it looks at the two neighbours of the number on that decimal grid, and takes the nearer of those that lie in the
interval of reals that round to the number.
-/

namespace SourceDoc

/-- A number of the format binary64. -/
inductive Binary64 where
  | nan
  | infinite (negative : Bool)
  | finite (negative : Bool) (significand : Nat) (exponent : Int)
  deriving DecidableEq, Repr, Inhabited

namespace Binary64

/-! ## Powers -/

def powerOfTwo (n : Nat) : Nat := Nat.pow 2 n

def powerOfTen (n : Nat) : Nat := Nat.pow 10 n

/-- The first whole number that has too many bits for a significand. -/
def significandEnd : Nat := powerOfTwo 53

/-- The least significand of a number that is not close to zero. -/
def significandStart : Nat := powerOfTwo 52

/-! ## Rounding -/

/-- Zero without a sign. -/
def zero : Binary64 := finite false 0 (-1074)

/-- The fraction num · 2^(-e) / den as numerator and denominator. -/
def scaled (num den : Nat) (e : Int) : Nat × Nat :=
  if e < 0 then (num * powerOfTwo (-e).toNat, den) else (num, den * powerOfTwo e.toNat)

/-- The whole number nearest to a fraction, a tie to the even one. -/
def roundDiv (num den : Nat) : Nat :=
  let q := num / den
  let twice := 2 * (num % den)
  if twice < den then q else if den < twice then q + 1 else if q % 2 = 0 then q else q + 1

/-- The number nearest to a fraction with positive denominator. -/
def ofRatio (negative : Bool) (num den : Nat) : Binary64 :=
  if num = 0 then finite negative 0 (-1074)
  else
    let guess : Int := Nat.log2 num - Nat.log2 den - 53
    let low := max guess (-1074)
    let atLow := scaled num den low
    let e := if atLow.1 / atLow.2 < significandEnd then low else low + 1
    let (n, d) := scaled num den e
    let m := roundDiv n d
    let (m, e) := if m = significandEnd then (significandStart, e + 1) else (m, e)
    if e > 971 then infinite negative else finite negative m e

/-- The number nearest to digits · 10^exponent; exponents far outside the format are not computed. -/
def ofDecimal (negative : Bool) (digits : Nat) (exponent : Int) : Binary64 :=
  let size : Int := (Text.ofNat digits).length
  if digits = 0 then finite negative 0 (-1074)
  else if exponent + size > 400 then infinite negative
  else if exponent + size < -400 then finite negative 0 (-1074)
  else if exponent < 0 then ofRatio negative digits (powerOfTen (-exponent).toNat)
  else ofRatio negative (digits * powerOfTen exponent.toNat) 1

/-- The number nearest to a whole number. -/
def ofInt (i : Int) : Binary64 := ofRatio (i < 0) i.natAbs 1

/-- Not zero; what is not a number counts as not zero. -/
def isNonzero : Binary64 → Bool
  | finite _ m _ => m ≠ 0
  | _ => true

/-- The number with the other sign. -/
def negate : Binary64 → Binary64
  | nan => nan
  | infinite negative => infinite !negative
  | finite negative m q => finite (!negative) m q

/-- The number without its fraction, where it is finite. -/
def truncate? : Binary64 → Option Int
  | finite negative m q =>
    let whole : Nat := if q < 0 then m / powerOfTwo (-q).toNat else m * powerOfTwo q.toNat
    some (if negative then -(whole : Int) else whole)
  | _ => none

/-- The exact value as sign, numerator and denominator, where it is finite. -/
def ratio? : Binary64 → Option (Bool × Nat × Nat)
  | finite negative m q =>
    let (n, d) := scaled m 1 (-q)
    some (negative, n, d)
  | _ => none

/-! ## Shortest decimal -/

/-- The largest k, not above zero, with 10^k ≤ num / den < 1, as its distance from zero. -/
def leadingZeros (num den : Nat) : Nat → Nat
  | 0 => 0
  | bound + 1 => if den ≤ num then 0 else 1 + leadingZeros (num * 10) den bound

/-- The decimal exponent of a positive fraction: 10^k ≤ num / den < 10^(k+1). -/
def decimalExponent (num den : Nat) : Int :=
  if den ≤ num then (Text.ofNat (num / den)).length - 1
  else -(leadingZeros num den 400 : Nat)

/-- Digits and exponent of the best decimal with `n` digits, where one lies in the interval from `low` to `high`
over `den` around `mid`. -/
def onGrid? (low mid high den : Nat) (closed : Bool) (k : Int) (n : Nat) : Option (Nat × Int) :=
  let unit := k - (n : Int) + 1
  let (un, ud) : Nat × Nat := if unit < 0 then (1, powerOfTen (-unit).toNat) else (powerOfTen unit.toNat, 1)
  let below := mid * ud / (den * un)
  let above := below + 1
  let within := fun (d : Nat) =>
    let x := d * un * den
    if closed then decide (low * ud ≤ x) && decide (x ≤ high * ud)
    else decide (low * ud < x) && decide (x < high * ud)
  let toBelow := mid * ud - below * un * den
  let toAbove := above * un * den - mid * ud
  if within below && within above then
    if toBelow < toAbove || (toBelow = toAbove && below % 2 = 0) then some (below, unit) else some (above, unit)
  else if within below then some (below, unit)
  else if within above then some (above, unit)
  else none

/-- The first grid, from `n` digits on, with a decimal in the interval. -/
def firstGrid (low mid high den : Nat) (closed : Bool) (k : Int) : Nat → Nat → Nat × Int
  | 0, _ => (0, 0)
  | bound + 1, n =>
    match onGrid? low mid high den closed k n with
    | some found => found
    | none => firstGrid low mid high den closed k bound (n + 1)

/-- The fewest digits that read back as m · 2^q, and the exponent of ten of the last of them. -/
def shortest (m : Nat) (q : Int) : Nat × Int :=
  let toLow := if m = significandStart ∧ q > -1074 then 1 else 2
  let up := fun (n : Nat) => (scaled n 1 (2 - q)).1
  let den := (scaled 1 1 (2 - q)).2
  firstGrid (up (4 * m - toLow)) (up (4 * m)) (up (4 * m + 2)) den (m % 2 = 0)
    (decimalExponent (up (4 * m)) den) 17 1

/-- A number without the zeros at its end, and how many they were. -/
def dropZeros (bound : Nat) (n : Nat) : Nat × Nat :=
  match bound with
  | 0 => (n, 0)
  | b + 1 => if n % 10 = 0 ∧ n ≠ 0 then let (m, k) := dropZeros b (n / 10); (m, k + 1) else (n, 0)

/-- The digits of a positive number as text, and the place of the decimal point after the first of them. -/
def digitsAndPoint (m : Nat) (q : Int) : Text × Int :=
  let (digits, e) := shortest m q
  let (kept, zeros) := dropZeros 20 digits
  let text := Text.ofNat kept
  (text, e + zeros + text.length)

/-- Some zeros. -/
def zeros (n : Nat) : Text := List.replicate n '0'

/-- The text of a positive number: positional from 10^-4 up to 10^16, with an exponent of at least two digits
outside, and always with a point or an exponent. -/
def positiveText (m : Nat) (q : Int) : Text :=
  let (digits, point) := digitsAndPoint m q
  if -4 < point ∧ point ≤ 16 then
    if point ≤ 0 then '0' :: '.' :: (zeros (-point).toNat ++ digits)
    else
      let p := point.toNat
      if digits.length ≤ p then digits ++ zeros (p - digits.length) ++ ['.', '0']
      else digits.take p ++ '.' :: digits.drop p
  else
    let e := point - 1
    let mantissa := match digits with
      | [d] => [d]
      | d :: rest => d :: '.' :: rest
      | [] => []
    let size := Text.ofNat e.natAbs
    mantissa ++ ['e', if e < 0 then '-' else '+'] ++ (if size.length < 2 then '0' :: size else size)

/-- The text of a number, with the given words for what is not finite. -/
def textWith (nanWord infinityWord : Text) : Binary64 → Text
  | nan => nanWord
  | infinite negative => (if negative then ['-'] else []) ++ infinityWord
  | finite negative m q =>
    (if negative then ['-'] else []) ++ (if m = 0 then "0.0".toList else positiveText m q)

/-- The shortest text of a number. -/
def toText : Binary64 → Text := textWith "nan".toList "inf".toList

end Binary64

end SourceDoc
