import SourceDoc.Grammar.Rule

/-!
# Kinds of nodes

The kinds of nodes in the syntax tree of a script (JavaScript, TypeScript, and both with markup in
expressions).  Kinds that make a difference to a reader of declarations have a name of their own; all other
statements, expressions, types, patterns and members share the five general kinds.
-/

namespace SourceDoc.Script

/-- The dialects: without types, with types, and with types and markup. -/
inductive Dialect where
  | plain
  | typed
  | typedMarkup
  deriving DecidableEq, Repr

/-- The dialect has type annotations. -/
def Dialect.hasTypes : Dialect → Bool
  | .plain => false
  | _ => true

/-- The dialect has markup elements among its expressions. -/
def Dialect.hasMarkup : Dialect → Bool
  | .typed => false
  | _ => true

/-- Kinds of nodes and leaves. -/
inductive Kind where
  /-- A keyword or a mark, by its text. -/
  | token (text : String)
  /-- A place without text, such as the end of a statement at the end of its line. -/
  | empty
  | comment
  | program
  -- general kinds
  | statement | expression | pattern | typeExpr | member
  -- imports and exports
  | importStatement | importClause | namespaceImport | namedImports | importSpecifier
  | exportStatement | exportClause | exportSpecifier | namespaceExport
  -- declarations
  | functionDeclaration | generatorDeclaration | functionSignature
  | lexicalDeclaration | variableDeclaration | variableDeclarator
  | classDeclaration | abstractClassDeclaration | interfaceDeclaration | typeAlias | enumDeclaration
  | block
  -- classes and interfaces
  | classHeritage | extendsClause | implementsClause | extendsTypeClause
  | classBody | interfaceBody
  | methodDefinition | fieldDefinition | methodSignature | propertySignature
  | accessModifier | overrideModifier | decorator
  -- names
  | identifier | propertyName | privateName | computedName | string | number
  -- expressions
  | undefinedValue | thisValue | memberExpression | subscript | nonNull | parenthesized | array | object
  | arrowFunction | functionExpression | generatorExpression | classExpression
  -- parameters
  | formalParameters | requiredParameter | optionalParameter
  | assignmentPattern | objectPattern | arrayPattern | restPattern
  -- types
  | typeClause | predefinedType | typeName | nestedTypeName | genericType | arrayType
  | typeParameters | typeArguments
  deriving DecidableEq, Repr

/-- A leaf that is a keyword or a mark, or an empty place, has no name of its own. -/
def Kind.isNamed : Kind → Bool
  | .token _ => false
  | .empty => false
  | _ => true

/-- Fields that a child may fill in its parent. -/
inductive Field where
  | name | newName | source | declaration | value | body
  | parameter | parameters | returnType
  | type | pattern | left | right
  deriving DecidableEq, Repr

/-- The trees of scripts. -/
abbrev Node := Grammar.Tree Kind Field

/-- The children that are no keywords or marks; comments are among them. -/
def namedChildren (n : Node) : List Node := n.children.filter (·.kind.isNamed)

end SourceDoc.Script
