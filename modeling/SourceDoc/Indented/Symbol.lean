import SourceDoc.Indented.Member

/-!
# Functions and classes

`functionAt?` and `classAt?` read the symbol whose header starts on a line.  `total` is the number of lines of the
file counted by all line boundaries, which may exceed the number of lines split at newlines; the body of a class
that runs to the end of such a file runs past the last line, which is the one way to fail.
-/

namespace SourceDoc.Indented

open Text

/-- Why there is no outline. -/
inductive Failure where
  /-- The body of a class runs past the last line. -/
  | beyondLastLine
  deriving DecidableEq, Repr

def Failure.message : Failure → Text
  | beyondLastLine => "list index out of range".toList

/-! ## Functions -/

/-- A method takes the instance or the class as a first parameter, which is not shown. -/
def dropReceiver : List Parameter → List Parameter
  | p :: rest => if p.name = "self".toList ∨ p.name = "cls".toList then rest else p :: rest
  | [] => []

/-- A character that hides brackets up to the next one like it. -/
def isTextQuote (c : Char) : Bool := c = '"' || c = '\''

/-- The header of a function: its beginning, the text between its brackets, its result, and how many lines follow its
first one. -/
structure FunctionHeader where
  first : FunctionStart
  parameters : Text
  returnType : Option Text
  extraLines : Nat
  deriving DecidableEq, Repr

/-- The header of a function at the front of some lines. -/
def FunctionHeader.read? (lines : List Text) : Option FunctionHeader :=
  (Header.read? lines).bind fun header =>
    (functionStart? header.text).bind fun first =>
      (breakClosing? isTextQuote 1 none first.rest).bind fun (inner, after) =>
        (returnType? after).map fun returns => ⟨first, inner, returns, header.extraLines⟩

/-- The function whose header starts on line `i`. -/
def functionAt? (lines : List Text) (total : Nat) (isMethod : Bool) (i : Nat) : Option FunctionDecl :=
  (FunctionHeader.read? (lines.drop i)).map fun header =>
    let body := i + header.extraLines + 1
    let stop := blockEnd (indentation ((lines[i]?).getD [])) total body lines
    let parameters := parametersOf header.parameters
    let marks := decorators lines i
    { name := header.first.name
      parameters := if isMethod then dropReceiver parameters else parameters
      returnType := header.returnType
      isAsync := header.first.isAsync
      isGenerator := yields lines body stop
      isStatic := isMethod && (marks.contains "staticmethod".toList || marks.contains "classmethod".toList)
      visibility := some (visibilityOf header.first.name)
      comments := documentation? lines body stop
      startLine := i + 1
      endLine := stop }

/-! ## Classes -/

/-- What is known of a class part way through its body. -/
structure ClassBody where
  /-- The indentation of the first line of code; lines indented otherwise belong to something inside. -/
  indent : Option Nat := none
  methods : List FunctionDecl := []
  constructor? : Option FunctionDecl := none
  properties : List Property := []
  deriving DecidableEq, Repr

/-- Adds a property unless one of that name is there. -/
def ClassBody.addProperty (b : ClassBody) (p : Property) : ClassBody :=
  if b.properties.any (·.name = p.name) then b else { b with properties := b.properties ++ [p] }

/-- Adds the method whose header stands on line `i`; the constructor also gives the attributes that it sets. -/
def ClassBody.addMethod (lines : List Text) (i : Nat) (b : ClassBody) (m : FunctionDecl) : ClassBody :=
  if m.name = "__init__".toList then
    (instanceAttributes lines (i + 1) m.endLine.toNat).foldl addProperty { b with constructor? := some m }
  else { b with methods := b.methods ++ [m] }

/-- A line that is no attribute whatever follows. -/
def isOtherMember (t : Text) : Bool :=
  ["@", "class ", "def ", "async "].any fun head => startsWith t head.toList

/-- Adds the attribute on a line, if there is one. -/
def ClassBody.addAttribute (b : ClassBody) (t : Text) : ClassBody :=
  if isOtherMember t then b
  else
    match attribute? t with
    | some p => b.addProperty p
    | none => b

/-- Reads the body of a class from line `i` up to `stop`. -/
def ClassBody.read (lines : List Text) (total stop : Nat) (i : Nat) (b : ClassBody) : Except Failure ClassBody :=
  if i < stop then
    match lines[i]? with
    | none => .error .beyondLastLine
    | some line =>
      let t := strip line
      if t = [] ∨ startsWith t ['#'] then read lines total stop (i + 1) b
      else
        let b : ClassBody := { b with indent := b.indent.or (some (indentation line)) }
        if b.indent ≠ some (indentation line) then read lines total stop (i + 1) b
        else if (functionStart? t).isSome then
          match functionAt? lines total true i with
          | some m => read lines total stop (max (i + 1) m.endLine.toNat) (b.addMethod lines i m)
          | none => read lines total stop (i + 1) b
        else read lines total stop (i + 1) (b.addAttribute t)
  else .ok b
termination_by stop - i
decreasing_by all_goals omega

/-- The classes that a class extends, from the text between its brackets. -/
def basesOf (t : Text) : List Text :=
  (splitTopLevel ',' t).filter fun base => !contains base ['='] && !startsWith base ['*']

/-- The header of a class: its name, the text between its brackets, and how many lines follow its first one. -/
structure ClassHeader where
  name : Text
  bases : Text
  extraLines : Nat
  deriving DecidableEq, Repr

/-- The header of a class at the front of some lines. -/
def ClassHeader.read? (lines : List Text) : Option ClassHeader :=
  (Header.read? lines).bind fun header =>
    (classHeader? header.text).map fun (name, bases) => ⟨name, bases, header.extraLines⟩

/-- The class whose header starts on line `i`. -/
def classAt? (lines : List Text) (total : Nat) (i : Nat) : Except Failure (Option TypeDecl) :=
  match ClassHeader.read? (lines.drop i) with
  | none => .ok none
  | some header =>
    let body := i + header.extraLines + 1
    let stop := blockEnd (indentation ((lines[i]?).getD [])) total body lines
    (ClassBody.read lines total stop (afterDocumentation lines body stop) {}).map fun b =>
      some
        { name := header.name
          methods := b.methods
          properties := b.properties
          constructor? := b.constructor?
          superType := (basesOf header.bases).head?
          startLine := i + 1
          endLine := stop
          comments := documentation? lines body stop }

end SourceDoc.Indented
