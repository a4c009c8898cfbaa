import SourceDoc.Indented.Outline
import SourceDoc.Proofs.Indented.ClassBody
import SourceDoc.Proofs.Indented.Edge

/-!
# What is read ahead

A header, a documentation, the names of an import and the names that are exported may run over several lines, and are
read up to where they end without regard to anything else.  `lookaheads` are the headers and the documentations that are
read in a file, and `IsClosed` says that nothing that is begun in its lines runs past the last one: whatever stands
below then has no part in what is read in them.
-/

namespace SourceDoc.Indented

open Text

/-! ## Headers and documentations -/

/-- A header runs past the last line: its colon is not found, and there are fewer lines than are looked at. -/
def headerRunsOut : (bound : Nat) → (depth : Int) → List Text → Bool
  | 0, _, _ => false
  | _ + 1, _, [] => true
  | bound + 1, depth, line :: rest =>
    match headerLine depth none (strip line) with
    | .closed _ => false
    | .goesOn _ depth => headerRunsOut bound depth rest

/-- The documentation at the front of a block runs past the last line: the quotes that it starts with do not come
again. -/
def documentationRunsOut (lines : List Text) (start stop : Nat) : Bool :=
  match firstCode? lines start stop with
  | none => false
  | some i =>
    let first := dropLeft isQuoteLetter (strip ((lines[i]?).getD []))
    match longQuote? first with
    | none => false
    | some mark => !contains (first.drop mark.length) mark && !(lines.drop (i + 1)).any (contains · mark)

/-- What is read ahead: the header on a line, or the documentation at the front of a block. -/
inductive Lookahead where
  | header (i : Nat)
  | documentation (start stop : Nat)
  deriving DecidableEq, Repr

namespace Lookahead

/-- It runs past the last line. -/
def runsOut (lines : List Text) : Lookahead → Bool
  | header i => headerRunsOut maxHeaderLines 0 (lines.drop i)
  | documentation start stop => documentationRunsOut lines start stop

/-- What is read for the function whose header starts on line `i`. -/
def ofFunction (lines : List Text) (total i : Nat) : List Lookahead :=
  header i :: (FunctionHeader.read? (lines.drop i)).toList.map fun h =>
    let body := i + h.extraLines + 1
    documentation body (blockEnd (indentation ((lines[i]?).getD [])) total body lines)

end Lookahead

/-- What is read for the methods in the body of a class from line `i` up to `stop`. -/
def ClassBody.lookaheads (lines : List Text) (total stop : Nat) (i : Nat) (b : ClassBody) : List Lookahead :=
  if i < stop then
    match lines[i]? with
    | none => []
    | some line =>
      (if b.startsMethod line then Lookahead.ofFunction lines total i else []) ++
        lookaheads lines total stop (step lines total i line b).2 (step lines total i line b).1
  else []
termination_by stop - i
decreasing_by
  have := @lt_step lines total i line b
  omega

/-- What is read for the class whose header starts on line `i`. -/
def Lookahead.ofClass (lines : List Text) (total i : Nat) : List Lookahead :=
  header i ::
    match ClassHeader.read? (lines.drop i) with
    | none => []
    | some h =>
      let body := i + h.extraLines + 1
      let stop := blockEnd (indentation ((lines[i]?).getD [])) total body lines
      documentation body stop :: ClassBody.lookaheads lines total stop (afterDocumentation lines body stop) {}

/-- What is read for the symbol whose header starts on line `i`, where it stands at the left margin. -/
def lookaheadsAt (lines : List Text) (total i : Nat) : List Lookahead :=
  let line := (lines[i]?).getD []
  let t := strip line
  if t = [] ∨ indentation line ≠ 0 then []
  else if (functionStart? t).isSome then Lookahead.ofFunction lines total i
  else if (classStart? t).isSome then Lookahead.ofClass lines total i
  else []

/-- What is read for the symbols of a file. -/
def lookaheads (lines : List Text) : List Lookahead :=
  (List.range lines.length).flatMap (lookaheadsAt lines lines.length)

/-! ## Closed lines -/

/-- **Nothing that is begun in the lines runs past the last one.** -/
structure IsClosed (lines : List Text) : Prop where
  lookaheads : ∀ l ∈ lookaheads lines, l.runsOut lines = false
  imports : (importLeft none 1 lines).isNone = true
  exports : (exportLeft none 1 lines).isNone = true

end SourceDoc.Indented
