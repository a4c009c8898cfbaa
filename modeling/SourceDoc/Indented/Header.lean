import SourceDoc.Text.Pattern

/-!
# Headers of blocks

The header of a block runs up to the first colon outside brackets, quotes and comments, possibly over several
lines.  `Header.read?` joins its lines; the shapes that a header can have are recognised on the joined text.
-/

namespace SourceDoc.Indented

open Text

/-! ## Joining the lines of a header -/

/-- What a line of a header gives. -/
inductive HeaderLine where
  /-- The colon was found; the text before it. -/
  | closed (text : Text)
  /-- The header goes on; the text up to a comment, and how many brackets are open. -/
  | goesOn (text : Text) (depth : Int)

/-- Puts a character in front of the text of a line. -/
def HeaderLine.cons (c : Char) : HeaderLine → HeaderLine
  | closed t => closed (c :: t)
  | goesOn t depth => goesOn (c :: t) depth

/-- Reads a line of a header; a quote ends with the line at the latest. -/
def headerLine (depth : Int) (quote : Option Char) : Text → HeaderLine
  | [] => .goesOn [] depth
  | c :: rest =>
    match quote with
    | some q => (headerLine depth (if c = q then none else some q) rest).cons c
    | none =>
      if c = '"' ∨ c = '\'' then (headerLine depth (some c) rest).cons c
      else if c = '#' then .goesOn [] depth
      else if isOpening c then (headerLine (depth + 1) none rest).cons c
      else if isClosing c then (headerLine (depth - 1) none rest).cons c
      else if c = ':' ∧ depth = 0 then .closed []
      else (headerLine depth none rest).cons c

/-- The pieces of a header, and how many lines follow its first one; `bound` is the number of lines to look at. -/
def headerPieces? : (bound : Nat) → (depth : Int) → List Text → Option (List Text × Nat)
  | 0, _, _ => none
  | _, _, [] => none
  | bound + 1, depth, line :: rest =>
    match headerLine depth none (strip line) with
    | .closed piece => some ([piece], 0)
    | .goesOn piece depth => (headerPieces? bound depth rest).map fun (pieces, n) => (piece :: pieces, n + 1)

/-- The text of a header up to its colon, on one line, and how many lines follow its first one. -/
structure Header where
  text : Text
  extraLines : Nat
  deriving DecidableEq, Repr

/-- The most lines that a header may have. -/
def maxHeaderLines : Nat := 64

/-- The header at the front of some lines. -/
def Header.read? (lines : List Text) : Option Header :=
  (headerPieces? maxHeaderLines 0 lines).map fun (pieces, n) =>
    ⟨strip (joinWith [' '] (pieces.filter (· ≠ []))), n⟩

/-! ## Shapes of headers -/

/-- The beginning of a function: whether it is asynchronous, its name, and the text after its opening bracket. -/
structure FunctionStart where
  isAsync : Bool
  name : Text
  rest : Text
  deriving DecidableEq, Repr

/-- The name of a function and the text after its opening bracket. -/
def namedStart? (isAsync : Bool) (t : Text) : Option FunctionStart :=
  (afterWord? "def".toList t).bind fun named =>
    (identifier? named).bind fun (name, rest) =>
      match stripLeft rest with
      | '(' :: inner => some ⟨isAsync, name, inner⟩
      | _ => none

/-- The beginning of a function at the front of a text. -/
def functionStart? (t : Text) : Option FunctionStart :=
  match afterWord? "async".toList t with
  | some rest => namedStart? true rest
  | none => namedStart? false t

/-- The name of a class at the front of a text, and the text after it. -/
def classStart? (t : Text) : Option (Text × Text) := (afterWord? "class".toList t).bind identifier?

/-- A whole class header: the name, and the text between the brackets after it, empty where there are none. -/
def classHeader? (t : Text) : Option (Text × Text) :=
  (classStart? t).bind fun (name, rest) =>
    match strip rest with
    | [] => some (name, [])
    | '(' :: inner => if inner.getLast? = some ')' then some (name, inner.dropLast) else none
    | _ => none

/-- What follows the parameters of a function: nothing, or an arrow and a type. -/
def returnType? (t : Text) : Option (Option Text) :=
  match strip t with
  | [] => some none
  | '-' :: '>' :: type => (stripped? type).map some
  | _ => none

end SourceDoc.Indented
