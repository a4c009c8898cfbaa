import SourceDoc.Braced.Scan
import SourceDoc.Outline.Basic

/-!
# Functions

A function starts at the left margin.  Its signature may run over several lines, up to the brace of its body;
parameters are grouped by type, so a name without a type has the type of the next name that has one.
-/

namespace SourceDoc.Braced

open Text

/-- A capital letter at the front makes a name visible outside. -/
def isPublic (name : Text) : Bool := name.head?.any fun c => 65 ≤ c.toNat && c.toNat ≤ 90

def visibilityOf (name : Text) : Text := if isPublic name then "public".toList else "private".toList

/-! ## Signatures -/

/-- What a line of a signature gives. -/
inductive SignatureLine where
  /-- The brace of the body stands in a column. -/
  | closed (column : Nat)
  /-- How many brackets are open after the line. -/
  | goesOn (depth : Int)

/-- Reads a line of a signature; `before` is the part already read, last character first.  A brace after the word for
a structure or an interface belongs to a type. -/
def signatureLine (depth : Int) (before : Text) : Text → SignatureLine
  | [] => .goesOn depth
  | c :: rest =>
    if c = '(' ∨ c = '[' then signatureLine (depth + 1) (c :: before) rest
    else if c = ')' ∨ c = ']' then signatureLine (depth - 1) (c :: before) rest
    else if c = '\x7b' then
      let left := (stripLeft before).reverse
      if depth = 0 ∧ !endsWith left "interface".toList ∧ !endsWith left "struct".toList then .closed before.length
      else signatureLine (depth + 1) (c :: before) rest
    else if c = '\x7d' then signatureLine (depth - 1) (c :: before) rest
    else signatureLine depth (c :: before) rest

/-- The lines of a signature, and the place of the brace of the body: how many lines below the first, and the column.
`bound` is the number of lines to look at. -/
def signatureFrom : (bound : Nat) → (depth : Int) → List Text → List Text × Option (Nat × Nat)
  | 0, _, _ => ([], none)
  | _, _, [] => ([], none)
  | bound + 1, depth, line :: rest =>
    let line := uncommented line
    match signatureLine depth [] line with
    | .closed column => ([line.take column], some (0, column))
    | .goesOn depth =>
      if depth ≤ 0 then ([line], none)
      else
        let (pieces, brace) := signatureFrom bound depth rest
        (line :: pieces, brace.map fun (n, column) => (n + 1, column))

/-- The most lines that a signature may have. -/
def maxSignatureLines : Nat := 64

/-- The signature at the front of some lines on one line, and the place of the brace of the body. -/
def readSignature (lines : List Text) : Text × Option (Nat × Nat) :=
  let (pieces, brace) := signatureFrom maxSignatureLines 0 lines
  (strip (joinWith [' '] (pieces.map strip)), brace)

/-! ## Parameters and results -/

/-- Words that begin a type. -/
def typeWords : List Text :=
  ["chan", "func", "map", "struct", "interface"].map String.toList

/-- A name with its type, or a piece that is a name or a type alone. -/
def namedPiece (piece : Text) : Text × Option Text :=
  match firstWordAndRest? piece with
  | some (word, rest) =>
    if isIdentifier word && !typeWords.contains word then (word, some (strip rest)) else (piece, none)
  | none => (piece, none)

/-- Parameters with the types of their groups; `pending` are names whose type is still to come, the last first. -/
def grouped (pending : List Text) : List (Text × Option Text) → List Parameter
  | [] => pending.reverse.map fun name => { name := name }
  | (name, none) :: rest => grouped (name :: pending) rest
  | (name, some type) :: rest =>
    (pending.reverse ++ [name]).map (fun n => { name := n, type := some type }) ++ grouped [] rest

/-- The parameters between the brackets of a signature; where none has a name, all are types. -/
def parametersOf (t : Text) : List Parameter :=
  let pieces := splitTopLevel ',' t
  let named := pieces.map namedPiece
  if named.any (·.2.isSome) then grouped [] named
  else pieces.map fun type => { name := ['_'], type := some type }

/-- The word for a function without a result. -/
def noResult : Text := "void".toList

/-- The result type from what follows the parameters. -/
def resultType (t : Text) : Text :=
  let results := strip t
  if results = [] then noResult
  else if startsWith results ['('] && endsWith results [')'] then
    let inner := strip ((results.drop 1).dropLast)
    if inner = [] then noResult
    else
      match splitTopLevel ',' inner with
      | first :: second :: more => '(' :: (joinWith [',', ' '] (first :: second :: more) ++ [')'])
      | _ => inner
  else results

/-- The name of the type of a receiver, without the mark of a pointer and without type arguments; empty where there is
no receiver. -/
def receiverType (t : Text) : Except Failure Text :=
  if t = [] then .ok []
  else
    match (words t).getLast? with
    | some word => .ok (before '[' (dropLeft (· = '*') word))
    | none => .error .noReceiver

/-! ## Function declarations -/

/-- The beginning of a function: its receiver, its name, and the text after the opening bracket of its parameters. -/
structure FunctionStart where
  receiver : Text
  name : Text
  rest : Text
  deriving DecidableEq, Repr

/-- The receiver between brackets at the front of a text, empty where there is none, and the text after it. -/
def receiverOf? (t : Text) : Option (Text × Text) :=
  match stripLeft t with
  | '(' :: inner =>
    match inner.dropWhile (· ≠ ')') with
    | _ :: rest => some (inner.takeWhile (· ≠ ')'), rest)
    | [] => none
  | _ => some ([], t)

/-- The beginning of a function at the front of a text. -/
def functionStart? (t : Text) : Option FunctionStart :=
  (after? "func".toList t).bind fun t =>
    (receiverOf? t).bind fun (receiver, t) =>
      ((afterBlanks? t).bind identifier?).bind fun (name, t) =>
        match stripLeft (skipSquare t) with
        | '(' :: inner => some ⟨strip receiver, name, inner⟩
        | _ => none

/-- No character hides brackets. -/
def isNoQuote (_ : Char) : Bool := false

/-- The header of a function: its beginning, the text between the brackets of its parameters, the text after them, and
the place of the brace of its body: how many lines below the first, and the column. -/
structure FunctionHeader where
  first : FunctionStart
  parameters : Text
  result : Text
  brace : Option (Nat × Nat)
  deriving DecidableEq, Repr

/-- The header of a function at the front of some lines. -/
def FunctionHeader.read? (lines : List Text) : Option FunctionHeader :=
  let (signature, brace) := readSignature lines
  (functionStart? signature).bind fun first =>
    (breakClosing? isNoQuote 1 none first.rest).map fun (inner, after) => ⟨first, inner, after, brace⟩

/-- The end of the function whose header stands on line `i`: where its body is closed, or with its line where it has
none. -/
def FunctionHeader.stop (header : FunctionHeader) (lines : List Text) (total i : Nat) : Nat :=
  match header.brace with
  | some (n, column) => closingLine lines total (i + n) column
  | none => i + 1

/-- The function whose signature starts on line `i`. -/
def functionAt? (lines : List Text) (total i : Nat) : Except Failure (Option FunctionDecl) :=
  match FunctionHeader.read? (lines.drop i) with
  | none => .ok none
  | some header =>
    (receiverType header.first.receiver).map fun receiver =>
      some
        { name := header.first.name
          parameters := parametersOf header.parameters
          returnType := some (resultType header.result)
          visibility := some (visibilityOf header.first.name)
          comments := leadingComments lines i
          startLine := i + 1
          endLine := header.stop lines total i
          receiver := receiver }

/-- The function on line `i`, where one starts there. -/
def functionOn? (lines : List Text) (total i : Nat) : Except Failure (Option FunctionDecl) :=
  if startsWith ((lines[i]?).getD []) "func".toList then functionAt? lines total i else .ok none

/-- The functions of a file. -/
def functionsOf (lines : List Text) (total : Nat) : Except Failure (List FunctionDecl) :=
  ((List.range lines.length).mapM (functionOn? lines total)).map fun found => found.filterMap id

end SourceDoc.Braced
