import SourceDoc.Json.Printer
import SourceDoc.Outline.Json
import SourceDoc.Text.Case

/-!
# Prompts

A prompt asks a language model for prose about a source file.  It holds what the file declares, imports and exports as
JSON, the source itself, and the shape of the reply.
-/

namespace SourceDoc

/-- How much is asked for. -/
inductive Style where
  | concise
  | detailed
  deriving DecidableEq, Repr

/-- The name of a style. -/
def Style.name : Style → Text
  | concise => "concise".toList
  | detailed => "detailed".toList

/-- The style with a name in any case; any other name is that of the detailed style. -/
def Style.ofName (t : Text) : Style := if Text.lower t = "concise".toList then .concise else .detailed

/-- What a prompt is made with. -/
structure PromptOptions where
  style : Style := .detailed
  includesExamples : Bool := true
  /-- The length of the source from which on the rest is left out; a negative length counts from the end. -/
  maxSource : Option Int := some 24000
  deriving DecidableEq, Repr

/-- A question for a model, and the part that the model is to play. -/
structure Prompt where
  system : Text
  question : Text
  deriving DecidableEq, Repr

namespace Prompt

/-- The part that the model is to play. -/
def systemText : Text :=
  ("You are an expert technical documentation writer. Generate clear and useful " ++
    "documentation for code files. Always respond with valid JSON in the requested format.").toList

/-- The text up to a length, which may count from the end. -/
def cut (n : Int) (t : Text) : Text :=
  if n < 0 then t.take (t.length - n.natAbs) else t.take n.toNat

/-- The source, cut where it is too long. -/
def sourceText (limit : Option Int) (source : Text) : Text :=
  match limit with
  | none => source
  | some n => if n < source.length then cut n source ++ "\n... (truncated)".toList else source

/-- The shape of the reply; `sample` stands in the place of an example. -/
def replyShape (sample : String) : List String :=
  ["\x7b",
    "  \"title\": \"Clear, descriptive title for this file\",",
    "  \"description\": \"Brief overview of what this file does\",",
    "  \"functions\": [",
    "    \x7b",
    "      \"name\": \"function_name\",",
    "      \"description\": \"What this function does\",",
    "      \"parameters\": [",
    "        \x7b\"name\": \"param_name\", \"type\": \"param_type\", \"description\": \"What this parameter is for\"\x7d",
    "      ],",
    "      \"returns\": \x7b\"type\": \"return_type\", \"description\": \"What this function returns\"\x7d,",
    "      \"example\": \"" ++ sample ++ "\"",
    "    \x7d",
    "  ],",
    "  \"classes\": [",
    "    \x7b",
    "      \"name\": \"class_name\",",
    "      \"description\": \"What this class represents\",",
    "      \"methods\": [",
    "        \x7b\"name\": \"method_name\", \"description\": \"What this method does\", " ++
      "\"parameters\": [], \"returns\": \x7b\x7d\x7d",
    "      ],",
    "      \"properties\": [",
    "        \x7b\"name\": \"property_name\", \"type\": \"property_type\", " ++
      "\"description\": \"What this property represents\"\x7d",
    "      ]",
    "    \x7d",
    "  ],",
    "  \"exports\": [",
    "    \x7b\"name\": \"export_name\", \"type\": \"export_type\", \"description\": \"What this export provides\"\x7d",
    "  ],",
    "  \"usage\": \"How to use this file or module\",",
    "  \"notes\": \"Important notes, caveats or additional context\"",
    "\x7d"]

/-- The request for a style. -/
def styleRequest : Style → String
  | .concise => "Write concise, to-the-point documentation focusing on essential information only."
  | .detailed => "Write detailed, comprehensive documentation with thorough explanations and context."

/-- The question about an outline. -/
def questionText (options : PromptOptions) (o : Outline) : Text :=
  let examples :=
    if options.includesExamples then "Include practical usage examples for functions and classes where appropriate."
    else "Focus on descriptions without usage examples."
  let sample := if options.includesExamples then "Usage example" else "Omit"
  let shape := (Json.record o.structureMembers).write Json.indentedAscii
  let fence := "\x60\x60\x60".toList
  Text.joinLines
    (["Please generate ".toList ++ options.style.name ++ " documentation for the following code file.".toList, [],
        "File: ".toList ++ o.path, "Language: ".toList ++ o.language, [],
        (styleRequest options.style).toList, examples.toList, [],
        "Code Structure:".toList, shape, [],
        "Raw Code:".toList, fence ++ o.language, sourceText options.maxSource o.source, fence, [],
        "Respond with a JSON object in this exact structure:".toList] ++
      (replyShape sample).map String.toList ++
      [[], "Only document the names that appear in the code structure above.".toList, []])

/-- The prompt for prose about an outline. -/
def build (options : PromptOptions) (o : Outline) : Prompt := ⟨systemText, questionText options o⟩

end Prompt

end SourceDoc
