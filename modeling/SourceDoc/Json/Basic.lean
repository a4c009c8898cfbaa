import SourceDoc.Number.Binary64
import SourceDoc.Table

/-!
# JSON values

Values of JSON.  Whole numbers and real numbers are apart, and an object keeps the order of its members; where a
name is given again, its value is replaced in place.
-/

namespace SourceDoc

/-- A value of JSON. -/
inductive Json where
  | null
  | bool (b : Bool)
  | int (i : Int)
  | real (x : Binary64)
  | text (t : Text)
  | list (items : List Json)
  | object (members : List (Text × Json))
  deriving Repr, Inhabited

namespace Json

/-- The members of an object, each with its name. -/
abbrev Members := List (Text × Json)

/-- The text of a literal. -/
def ofString (s : String) : Json := .text s.toList

/-- A text, or null. -/
def ofOption : Option Text → Json
  | none => .null
  | some t => .text t

/-- A number of things. -/
def ofNat (n : Nat) : Json := .int n

/-- The value under a name, where the value is an object that has it. -/
def member? (name : Text) : Json → Option Json
  | .object members => Table.get? name members
  | _ => none

/-- The value as a text. -/
def text? : Json → Option Text
  | .text t => some t
  | _ => none

/-- The value counts as true: it is not null, false, zero or empty. -/
def isTruthy : Json → Bool
  | .null => false
  | .bool b => b
  | .int i => i ≠ 0
  | .real x => x.isNonzero
  | .text t => t ≠ []
  | .list items => !items.isEmpty
  | .object members => !members.isEmpty

end Json

/-! ## Quantities

A number as it is given in settings: whole or real.  The two kinds of number with one value are written differently. -/

/-- A whole or a real number. -/
inductive Quantity where
  | whole (i : Int)
  | real (x : Binary64)
  deriving DecidableEq, Repr

namespace Quantity

/-- The number as it is written. -/
def toText : Quantity → Text
  | whole i => Text.ofInt i
  | real x => x.toText

def toJson : Quantity → Json
  | whole i => .int i
  | real x => .real x

def ofJson? : Json → Option Quantity
  | .int i => some (whole i)
  | .real x => some (real x)
  | _ => none

def isNonzero : Quantity → Bool
  | whole i => i ≠ 0
  | real x => x.isNonzero

end Quantity

end SourceDoc
