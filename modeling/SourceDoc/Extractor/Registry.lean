import SourceDoc.Extractor.Basic
import SourceDoc.Path
import SourceDoc.Table
import SourceDoc.Text.Basic

/-!
# Registries

A registry says which extractor takes the files with an extension.  Extensions are kept in lower case; an extractor
that is registered later wins the extensions that it shares with an earlier one.  `Registry.discover` makes a registry of
the built-in extractors and of those that plug-ins provide at their entry points.
-/

namespace SourceDoc

/-- A table from extensions to extractors. -/
structure Registry where
  entries : List (Text × Extractor) := []

/-- Why something cannot be registered. -/
inductive RegistryError where
  /-- It is no extractor. -/
  | notExtractor
  /-- A plug-in provides no extractor. -/
  | notPlugin
  /-- The entry point of a plug-in cannot be loaded. -/
  | notLoaded (entry reason : Text)
  /-- A plug-in fails to make its extractor. -/
  | notMade (cause : Cause)
  deriving DecidableEq, Repr

/-- The wording of the reason. -/
def RegistryError.message : RegistryError → Text
  | notExtractor => "Extractor registry only accepts Extractor instances".toList
  | notPlugin => "Extractor entry point must be an Extractor subclass or factory".toList
  | notLoaded entry reason => "Failed to load extractor entry point '".toList ++ entry ++ "': ".toList ++ reason
  | notMade cause => cause.message

/-! ## Entry points -/

/-- What stands at the entry point of a plug-in. -/
inductive Provision where
  /-- An extractor, or something that makes one. -/
  | extractor (e : Extractor)
  /-- Something that is no extractor and makes none. -/
  | other
  /-- Something that fails when it is asked to make one. -/
  | failing (cause : Cause)

/-- An entry point of a plug-in: its name, and what stands there or why it cannot be loaded. -/
structure EntryPoint where
  name : Text
  content : Except Text Provision

/-- The extractor that a plug-in provides. -/
def EntryPoint.extractor (p : EntryPoint) : Except RegistryError Extractor :=
  match p.content with
  | .error reason => .error (.notLoaded p.name reason)
  | .ok (.extractor e) => .ok e
  | .ok .other => .error .notPlugin
  | .ok (.failing cause) => .error (.notMade cause)

namespace Registry

/-- The registry with one more extractor. -/
def register (r : Registry) (e : Extractor) : Registry :=
  ⟨e.extensions.foldl (fun entries x => Table.put (Text.lower x) e entries) r.entries⟩

/-- The registry with one more extractor, where there is one. -/
def registerAny (r : Registry) : Option Extractor → Except RegistryError Registry
  | some e => .ok (r.register e)
  | none => .error .notExtractor

/-- The registry of some extractors. -/
def ofExtractors (es : List Extractor) : Registry := es.foldl register {}

/-- The registry of the built-in extractors. -/
def builtIn : Registry := ofExtractors Extractor.all

/-- The registry of the built-in extractors and, where plug-ins are included, of the extractors that they provide. -/
def discover (includesPlugins : Bool) (plugins : List EntryPoint) : Except RegistryError Registry :=
  if includesPlugins then plugins.foldlM (fun r p => p.extractor.map r.register) builtIn else .ok builtIn

/-- The extensions, in order. -/
def extensions (r : Registry) : List Text := Text.sortedUnique (r.entries.map Prod.fst)

/-- The names of the languages, in order. -/
def languages (r : Registry) : List Text := Text.sortedUnique (r.entries.map (·.2.language))

/-- The extractor for a path. -/
def lookup? (r : Registry) (path : Text) : Option Extractor :=
  Table.get? (Text.lower (Path.splitExtension path).2) r.entries

/-- Some extractor takes the path. -/
def supports (r : Registry) (path : Text) : Bool := (r.lookup? path).isSome

/-- The extractor for a path, which has to be there. -/
def forPath (r : Registry) (path : Text) : Except ExtractError Extractor :=
  match r.lookup? path with
  | some e => .ok e
  | none => .error (.unsupported path (Path.splitExtension path).2)

/-- The outline of a source, read by the extractor for its path. -/
def extract (r : Registry) (path source : Text) : Except ExtractError Outline :=
  match r.forPath path with
  | .error e => .error e
  | .ok extractor => extractor.extract path source

end Registry

end SourceDoc
