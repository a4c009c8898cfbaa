import SourceDoc.Braced.Function

/-!
# Structures and interfaces

A type is declared at the left margin, or indented in a group of types.  The members of its body stand one on a
line, or between semicolons where the whole body stands on one line.
-/

namespace SourceDoc.Braced

open Text

/-! ## Declarations -/

/-- The kinds of types that have members. -/
inductive BodyKind where
  | struct
  | interface
  deriving DecidableEq, Repr

/-- The word for a kind of type. -/
def BodyKind.word : BodyKind → Text
  | .struct => "struct".toList
  | .interface => "interface".toList

/-- A word and an opening brace stand at the front of a text. -/
def opensBody (t : Text) (kind : BodyKind) : Bool :=
  match after? kind.word t with
  | some rest => startsWith (stripLeft rest) ['\x7b']
  | none => false

/-- The name and the kind of a type with members. -/
def typeStart? (t : Text) : Option (Text × BodyKind) :=
  (identifier? t).bind fun (name, rest) =>
    (afterBlanks? (skipSquare rest)).bind fun rest =>
      if opensBody rest .struct then some (name, .struct)
      else if opensBody rest .interface then some (name, .interface)
      else none

/-- The name and the kind of a type with members that the word for types introduces. -/
def declaredStart? (t : Text) : Option (Text × BodyKind) := (afterWord? "type".toList t).bind typeStart?

/-! ## Members of a body -/

/-- How many braces are open after a line of code. -/
def depthAfter (depth : Int) (code : Text) : Int :=
  depth + (code.filter (· = '\x7b')).length - (code.filter (· = '\x7d')).length

/-- The lines directly in a body, with their numbers, from line `i` on. -/
def bodyFrom (depth : Int) (i : Nat) : List Text → List (Nat × Text)
  | [] => []
  | line :: rest =>
    let code := uncommented line
    let here := if depth = 1 ∧ strip code ≠ ['\x7d'] then [(i, line)] else []
    let depth := depthAfter depth code
    if depth ≤ 0 then here else here ++ bodyFrom depth (i + 1) rest

/-- The members of the body whose brace stands in a column of line `i`, with the numbers of their lines. -/
def bodyOf (lines : List Text) (i column stop : Nat) : List (Nat × Text) :=
  let tail := ((lines[i]?).getD []).drop (column + 1)
  match breakLast? '\x7d' tail with
  | some (inner, _) => ((splitOn ';' inner).filter (!isBlankText ·)).map fun part => (i, part)
  | none => bodyFrom 1 (i + 1) ((lines.take stop).drop (i + 1))

/-- A line of code without a raw text at its end. -/
def dropTag (code : Text) : Text :=
  let code := strip code
  match breakLast? '\x60' code with
  | some (front, []) =>
    match breakLast? '\x60' front with
    | some (bare, _) => strip bare
    | none => code
  | _ => code

/-- The code of a member, without its tag, and the text of the comment after it. -/
def splitMember (line : Text) : Text × Option Text :=
  let code := uncommented line
  let comment := strip (line.drop code.length)
  let note := if startsWith comment ['/', '/'] then stripped? (comment.drop 2) else none
  (dropTag code, note)

/-- A character of a qualified name. -/
def isQualified (c : Char) : Bool := isWord c || c = '.'

/-- The member is the name of an embedded type, with the mark of a pointer and with type arguments at most. -/
def isEmbedded (code : Text) : Bool :=
  match dropHead ['*'] code with
  | c :: rest =>
    isIdentStart c &&
      (match rest.dropWhile isQualified with
        | [] => true
        | tail => afterSquare? tail = some [])
  | [] => false

/-- The lengths of the lists of names at the front of a text, the longest first; `length` counts what stands before. -/
def nameListLengths (bound length : Nat) (t : Text) : List Nat :=
  match bound, identifier? t with
  | 0, _ => []
  | _, none => []
  | bound + 1, some (name, rest) =>
    let length := length + name.length
    match stripLeft rest with
    | ',' :: more =>
      let next := stripLeft more
      nameListLengths bound (length + (rest.length - next.length)) next ++ [length]
    | _ => [length]

/-- The names of a field and its type: the longest list of names that blanks follow. -/
def field? (code : Text) : Option (Text × Text) :=
  ((nameListLengths code.length 0 code).find? fun n => (code.drop n).head?.any isBlank).map fun n =>
    (code.take n, strip (code.drop n))

/-- Adds the member of a structure on a line. -/
def addField (found : List Property × List Text) (line : Text) : List Property × List Text :=
  let (properties, embedded) := found
  let (code, note) := splitMember line
  if code = [] ∨ startsWith code ['/', '*'] ∨ startsWith code ['\x7d'] then found
  else if isEmbedded code then (properties, embedded ++ [dropLeft (· = '*') code])
  else
    match field? code with
    | none => found
    | some (names, type) =>
      (properties ++ (splitTopLevel ',' names).map (fun name =>
        { name := name, type := some type, visibility := some (visibilityOf name), comments := note }), embedded)

/-- The method that a line of an interface declares. -/
def methodOf? (line : Nat) (code : Text) (note : Option Text) : Option (Option FunctionDecl) :=
  (identifier? code).bind fun (name, rest) =>
    match stripLeft rest with
    | '(' :: inner =>
      some ((breakClosing? isNoQuote 1 none inner).map fun (inner, after) =>
        { name := name
          parameters := parametersOf inner
          returnType := some (resultType after)
          visibility := some (visibilityOf name)
          comments := note
          startLine := line
          endLine := line })
    | _ => none

/-- Adds the member of an interface on a line. -/
def addMethod (found : List FunctionDecl × List Text) (member : Nat × Text) : List FunctionDecl × List Text :=
  let (methods, embedded) := found
  let (code, note) := splitMember member.2
  if code = [] then found
  else
    match methodOf? (member.1 + 1) code note with
    | some m => (methods ++ m.toList, embedded)
    | none => if isEmbedded code then (methods, embedded ++ [code]) else found

/-- The column of the brace that opens the body of a type: the first one after the first word for its kind. -/
def braceColumn (line : Text) (kind : BodyKind) : Except Failure Nat :=
  match breakOn? kind.word line with
  | none => .error .noBrace
  | some (front, rest) =>
    match breakOn? ['\x7b'] rest with
    | none => .error .noBrace
    | some (between, _) => .ok (front.length + kind.word.length + between.length)

/-- The members of a body: the fields of a structure or the methods of an interface, and the embedded types. -/
def membersOf (body : List (Nat × Text)) : BodyKind → List Property × List FunctionDecl × List Text
  | .struct =>
    let (properties, embedded) := (body.map Prod.snd).foldl addField ([], [])
    (properties, [], embedded)
  | .interface => ([], body.foldl addMethod ([], []))

/-- The type with the given name and kind that is declared on line `i`. -/
def typeAt (lines : List Text) (total i : Nat) (name : Text) (kind : BodyKind) : Except Failure SourceDoc.TypeDecl :=
  (braceColumn ((lines[i]?).getD []) kind).map fun column =>
    let stop := closingLine lines total i column
    let (properties, methods, embedded) := membersOf (bodyOf lines i column stop) kind
    { name := name
      methods := methods
      properties := properties
      superType := embedded.head?
      isInterface := kind = .interface
      startLine := i + 1
      endLine := stop
      comments := leadingComments lines i
      kind := kind.word }

/-! ## Groups of types -/

/-- A line opens a group. -/
def opensGroup (word line : Text) : Bool :=
  match after? word line with
  | some rest => stripLeft rest = ['(']
  | none => false

/-- The line is indented. -/
def isIndented (line : Text) : Bool := line.head?.any isBlank

/-- The types with members, from line `i` on, with the numbers of their lines. -/
def typeStartsFrom (inGroup : Bool) (i : Nat) : List Text → List (Nat × Text × BodyKind)
  | [] => []
  | line :: rest =>
    let t := strip line
    let isMarked := startsWith line "type".toList
    if isMarked && opensGroup "type".toList t then typeStartsFrom true (i + 1) rest
    else if inGroup && t = [')'] && !isIndented line then typeStartsFrom false (i + 1) rest
    else
      let found := if isMarked then declaredStart? t else none
      let found := found.or (if inGroup && isIndented line then typeStart? t else none)
      found.toList.map (fun (name, kind) => (i, name, kind)) ++ typeStartsFrom inGroup (i + 1) rest

/-- The types of a file. -/
def typesOf (lines : List Text) (total : Nat) : Except Failure (List SourceDoc.TypeDecl) :=
  (typeStartsFrom false 0 lines).mapM fun (i, name, kind) => typeAt lines total i name kind

end SourceDoc.Braced
