import SourceDoc.Json.Basic
import SourceDoc.Number.Literal

/-!
# Reading records off JSON values

Small readers that take a value apart and say what is wrong with its shape where they cannot.
-/

namespace SourceDoc.Json

/-- The word for the kind of a value. -/
def kindWord : Json → Text
  | .null => "NoneType".toList
  | .bool _ => "bool".toList
  | .int _ => "int".toList
  | .real _ => "float".toList
  | .text _ => "str".toList
  | .list _ => "list".toList
  | .object _ => "dict".toList

/-- What is wrong with the shape of a value; `kind` is the word for the kind of value that is there. -/
inductive ShapeError where
  /-- A required member is not there. -/
  | missing (name : Text)
  /-- The value has no members that could be asked for by name, and one is required. -/
  | notIndexable (kind : Text)
  /-- The value has no members that could be asked for by name. -/
  | notObject (kind : Text)
  /-- The value has no items. -/
  | notIterable (kind : Text)
  /-- The value is no text. -/
  | notText (kind : Text)
  /-- The value cannot be read as a whole number. -/
  | notNumber (kind : Text)
  /-- The text is not written like a whole number. -/
  | badInteger (e : Number.IntError)
  /-- The number is not a number or infinite. -/
  | notFinite (x : Binary64)
  /-- The item at an index is no pair but has another length. -/
  | notPair (index length : Nat)
  /-- The item at an index is no pair and has no items. -/
  | noItems (index : Nat)
  deriving DecidableEq, Repr

/-- The wording of what is wrong. -/
def ShapeError.message : ShapeError → Text
  | missing name => Text.quoted name
  | notIndexable kind =>
    if kind = "list".toList then "list indices must be integers or slices, not str".toList
    else if kind = "str".toList then "string indices must be integers, not 'str'".toList
    else '\'' :: (kind ++ "' object is not subscriptable".toList)
  | notObject kind => '\'' :: (kind ++ "' object has no attribute 'get'".toList)
  | notIterable kind => '\'' :: (kind ++ "' object is not iterable".toList)
  | notText kind => "expected a text, not '".toList ++ kind ++ ['\'']
  | notNumber kind =>
    "int() argument must be a string, a bytes-like object or a real number, not '".toList ++ kind ++ ['\'']
  | badInteger e => e.message
  | notFinite .nan => "cannot convert float NaN to integer".toList
  | notFinite _ => "cannot convert float infinity to integer".toList
  | notPair index length =>
    "dictionary update sequence element #".toList ++ Text.ofNat index ++ " has length ".toList ++
      Text.ofNat length ++ "; 2 is required".toList
  | noItems index =>
    "cannot convert dictionary update sequence element #".toList ++ Text.ofNat index ++ " to a sequence".toList

/-- A member that has to be there. -/
def required (name : String) : Json → Except ShapeError Json
  | .object members =>
    match Table.get? name.toList members with
    | some v => .ok v
    | none => .error (.missing name.toList)
  | v => .error (.notIndexable v.kindWord)

/-- A member that need not be there. -/
def optional (name : String) : Json → Except ShapeError (Option Json)
  | .object members => .ok (Table.get? name.toList members)
  | v => .error (.notObject v.kindWord)

/-- A member, or another value where it is not there. -/
def optionalD (name : String) (default : Json) (v : Json) : Except ShapeError Json :=
  (optional name v).map (·.getD default)

/-- The value as a text. -/
def asText : Json → Except ShapeError Text
  | .text t => .ok t
  | v => .error (.notText v.kindWord)

/-- The value as a text, null being none. -/
def asOptionalText : Json → Except ShapeError (Option Text)
  | .null => .ok none
  | v => (asText v).map some

/-- The value as a whole number: a real number loses its fraction, and a text is read. -/
def asInt : Json → Except ShapeError Int
  | .bool b => .ok (if b then 1 else 0)
  | .int i => .ok i
  | .real x =>
    match x.truncate? with
    | some i => .ok i
    | none => .error (.notFinite x)
  | .text t => (Number.parseInt t).mapError .badInteger
  | v => .error (.notNumber v.kindWord)

/-- The items of the value: those of a list, the characters of a text, the names of the members of an object. -/
def asItems : Json → Except ShapeError (List Json)
  | .list items => .ok items
  | .text t => .ok (t.map fun c => .text [c])
  | .object members => .ok (members.map fun m => .text m.1)
  | v => .error (.notIterable v.kindWord)

/-- A text member that has to be there. -/
def textAt (name : String) (v : Json) : Except ShapeError Text := (required name v).bind asText

/-- A text member with a word for its absence. -/
def textAtD (name : String) (word : Text) (v : Json) : Except ShapeError Text :=
  (optionalD name (.text word) v).bind asText

/-- A text member that may be null or absent. -/
def optionalTextAt (name : String) (v : Json) : Except ShapeError (Option Text) :=
  (optionalD name .null v).bind asOptionalText

/-- A member that counts as true or false; an absent one is false. -/
def flagAt (name : String) (v : Json) : Except ShapeError Bool :=
  (optionalD name (.bool false) v).map isTruthy

/-- A number member; an absent one is 0. -/
def intAt (name : String) (v : Json) : Except ShapeError Int := (optionalD name (.int 0) v).bind asInt

/-- The items of a member, each read; an absent one has none. -/
def itemsAt {α : Type} (name : String) (read : Json → Except ShapeError α) (v : Json) :
    Except ShapeError (List α) := do
  let items ← asItems (← optionalD name (.list []) v)
  items.mapM read

/-- The pair that an item of a list stands for. -/
def asPair (index : Nat) (item : Json) : Except ShapeError (Text × Text) :=
  match asItems item with
  | .error _ => .error (.noItems index)
  | .ok [k, v] => do return (← asText k, ← asText v)
  | .ok items => .error (.notPair index items.length)

/-- Pairs of texts: the members of an object, or a list of pairs; what counts as false has none. -/
def textPairs (v : Json) : Except ShapeError (List (Text × Text)) :=
  if !v.isTruthy then .ok []
  else
    match v with
    | .object members => members.mapM fun (k, v) => (asText v).map (k, ·)
    | v => do
      let items ← asItems v
      let pairs ← items.zipIdx.mapM fun (item, i) => asPair i item
      return Table.ofPairs pairs

end SourceDoc.Json
