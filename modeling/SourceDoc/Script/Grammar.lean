import SourceDoc.Script.Rule.Statement

/-!
# The grammar of scripts

`parse?` reads a script of a dialect into a syntax tree, or finds that it is not well-formed.
-/

namespace SourceDoc.Script

/-- The rule of each symbol. -/
def ruleOf (d : Dialect) : Symbol → Rule
  | .program => Rule.program
  | .statement => Rule.statement d
  | .declaration orExpression => Rule.declaration d orExpression
  | .variableList => Rule.variableList d
  | .block thenOperator => Rule.block d thenOperator
  | .expression c => Rule.expression d c
  | .unary c => Rule.unary d c
  | .operand c => Rule.operand d c
  | .construction => Rule.construction d
  | .superclass => Rule.superclass d
  | .expressions c => Rule.expressions c
  | .object => Rule.object
  | .element => Rule.element d
  | .pattern => Rule.pattern
  | .formalParameters => Rule.formalParameters d
  | .callSignature => Rule.callSignature d
  | .arrowSignature c => Rule.arrowSignature d c
  | .propertyName => Rule.propertyName
  | .type => Rule.type
  | .typeOperand => Rule.typeOperand
  | .typeParameters => Rule.typeParameters
  | .typeArguments => if d.hasTypes then Rule.typeArguments else .fail
  | .typeClause => Rule.typeClause
  | .objectType => Rule.objectType d
  | .classBody => Rule.classBody d
  | .decorator => Rule.decorator

/-- The grammar of a dialect. -/
def grammar (d : Dialect) : Grammar.Table Symbol Kind Field where
  rule := ruleOf d
  filler := Lexeme.filler
  comment := .comment
  empty := .empty

/-- The syntax tree of a script, whose children are its statements and the comments between them. -/
def parse? (d : Dialect) (source : Text) : Option Node :=
  ((grammar d).parse? .program source).map fun read =>
    .node .program none {} (({} : Grammar.Place).after source) (read.filter (·.kind ≠ .empty))

end SourceDoc.Script
