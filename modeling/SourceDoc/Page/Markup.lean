import SourceDoc.Text.Basic

/-!
# Markup

A tree of elements and texts, and its text.  Characters of a text that would be read as markup are written as
references.  The values of attributes are given as they are written: `escape` writes a text for them.
-/

namespace SourceDoc

/-- A piece of a page. -/
inductive Markup where
  | text (t : Text)
  | element (name : String) (attributes : List (String × Text)) (children : List Markup)
  deriving Repr

namespace Markup

/-- A character as it is written in a text. -/
def escapeChar (c : Char) : Text :=
  if c = '&' then "&amp;".toList
  else if c = '<' then "&lt;".toList
  else if c = '>' then "&gt;".toList
  else if c = '"' then "&quot;".toList
  else if c = '\'' then "&#x27;".toList
  else [c]

/-- A text as it is written. -/
def escape (t : Text) : Text := t.flatMap escapeChar

/-- An attribute as it is written. -/
def attributeText (a : String × Text) : Text := ' ' :: (a.1.toList ++ '=' :: '"' :: (a.2 ++ ['"']))

mutual

/-- A piece of a page as it is written. -/
def toText : Markup → Text
  | text t => escape t
  | element name attributes children =>
    '<' :: (name.toList ++ attributes.flatMap attributeText ++ '>' :: (allText children ++
      '<' :: '/' :: (name.toList ++ ['>'])))

/-- Pieces of a page one after the other. -/
def allText : List Markup → Text
  | [] => []
  | m :: rest => toText m ++ allText rest

end

/-- The text of a literal. -/
def literal (s : String) : Markup := text s.toList

/-- An element without attributes. -/
def plain (name : String) (children : List Markup) : Markup := element name [] children

/-- An element of a class. -/
def classed (name cls : String) (children : List Markup) : Markup := element name [("class", cls.toList)] children

end Markup

end SourceDoc
