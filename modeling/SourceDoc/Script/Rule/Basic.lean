import SourceDoc.Script.Lexeme

/-!
# Symbols and building blocks of the script grammar

`Symbol` lists what the grammar has rules for.  An expression is read in a `Context` that says what may not
follow or stand in it.  The rest of the module names the small rules that all parts of the grammar share:
keywords, marks, lists, and the end of a statement.
-/

namespace SourceDoc.Script

/-- Where an expression stands. -/
structure Context where
  /-- The word `in` is not an operator here, as in the head of a loop. -/
  noIn : Bool := false
  /-- The end of the line may end the expression. -/
  lineEnds : Bool := false
  /-- A colon after the parameters of an arrow function is not the start of a result type. -/
  noResultType : Bool := false
  deriving DecidableEq, Repr

/-- What the grammar has rules for. -/
inductive Symbol where
  | program
  | statement
  /-- A declaration, and whether it stands where an expression could. -/
  | declaration (orExpression : Bool)
  /-- The variables of a declaration and its end. -/
  | variableList
  /-- Statements in braces, and whether an operator may follow. -/
  | block (thenOperator : Bool)
  | expression (c : Context)
  | unary (c : Context)
  | operand (c : Context)
  | construction
  | superclass
  | expressions (c : Context)
  | object
  | element
  | pattern
  | formalParameters
  | callSignature
  | arrowSignature (c : Context)
  | propertyName
  | type
  | typeOperand
  | typeParameters
  | typeArguments
  | typeClause
  | objectType
  | classBody
  | decorator
  deriving DecidableEq, Repr

/-- Rules of the script grammar. -/
abbrev Rule := Grammar.Rule Symbol Kind Field

/-- Right parts of left-nested nodes of the script grammar. -/
abbrev Tail := Grammar.Tail Symbol Kind Field

namespace Rule

/-! ## Combinations -/

/-- The rules one after the other. -/
def seqs : List Rule → Rule
  | [] => .done
  | [r] => r
  | r :: rs => .seq r (seqs rs)

/-- The first rule that matches. -/
def alts : List Rule → Rule
  | [] => .fail
  | [r] => r
  | r :: rs => .alt r (alts rs)

/-- The rule, or nothing. -/
def opt (r : Rule) : Rule := .alt r .done

/-- The rule at least once. -/
def some1 (r : Rule) : Rule := .seq r (.many r)

/-- A node of rules one after the other. -/
def nodeOf (k : Kind) (rs : List Rule) : Rule := .node k (seqs rs)

/-- The rule of a symbol. -/
def sym (s : Symbol) : Rule := .call s

/-! ## Tokens -/

/-- A word that is a keyword here. -/
def word (w : String) : Rule := .leaf (.token w) (Lexeme.keyword? w)

/-- A mark, whatever follows it. -/
def mark (s : String) : Rule := .leaf (.token s) (Lexeme.exactly s)

/-- An operator that is no part of a longer one. -/
def operator (s : String) : Rule := .leaf (.token s) (Lexeme.oneOf [s])

/-- One of some operators. -/
def operators (ss : List String) : Rule := .leaf (.token "operator") (Lexeme.oneOf ss)

/-- A name that is not reserved. -/
def identifier : Rule := .leaf .identifier Lexeme.identifier?

/-- Any name, reserved or not. -/
def anyName : Rule := .leaf .identifier Lexeme.name?

/-- A string. -/
def string : Rule := .leaf .string Lexeme.string?

/-- The next token stands on the same line. -/
def sameLine : Rule := .check Lexeme.sameLine

/-- The next token starts with one of some characters. -/
def ahead (p : Char → Bool) : Rule := .check fun t => (Lexeme.nextToken t).head?.any p

/-! ## Lists -/

/-- One or more, with commas between. -/
def commaList1 (r : Rule) : Rule := .seq r (.many (.seq (mark ",") r))

/-- Any number, with commas between. -/
def commaList (r : Rule) : Rule := opt (commaList1 r)

/-- In brackets, any number with commas between and perhaps one at the end. -/
def bracketed (opening : String) (r : Rule) (closing : String) : Rule :=
  seqs [mark opening, opt (.seq (commaList1 r) (opt (mark ","))), mark closing]

/-! ## Ends of statements -/

/-- The end of the line as the end of a statement. -/
def lineEnd (d : Dialect) (afterExpression : Bool) : Rule :=
  .gap fun t => Lexeme.endsStatement d afterExpression false (t.length + 1) t

/-- A semicolon, or the end of the line. -/
def semicolon (d : Dialect) (afterExpression : Bool) : Rule :=
  .alt (mark ";") (lineEnd d afterExpression)

/-- The end of a declaration of a function without a body. -/
def signatureEnd (d : Dialect) : Rule :=
  .alt (mark ";") (.gap fun t => Lexeme.endsStatement d false true (t.length + 1) t)

/-- The next token starts the name of a property. -/
def beforeName : Rule :=
  .check fun t =>
    let next := Lexeme.nextToken t
    (Lexeme.name? next).isSome ||
      next.head?.any fun c => c = '"' || c = '\'' || c = '[' || c = '#' || Lexeme.isDigit 10 c

/-- A word that changes the meaning of the name after it, on the same line. -/
def modifier (w : String) : Rule := seqs [word w, sameLine, beforeName]

/-- A field for the rule. -/
def named (f : Field) (r : Rule) : Rule := .field f r

/-- A value after an equals sign. -/
def initializer (c : Context) : Rule := .seq (operator "=") (named .value (sym (.expression c)))

end Rule

end SourceDoc.Script
