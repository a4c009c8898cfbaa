import SourceDoc.Extractor.Registry

/-!
# Steps of a registry

What is done with a registry over time: extractors are registered, the registry is made anew from the built-in
extractors and the plug-ins, and it is asked in between.  A step has an answer or fails, and leaves a registry behind.
-/

namespace SourceDoc.Registry

/-- What is done with a registry. -/
inductive Step where
  | discover (includesPlugins : Bool) (plugins : List EntryPoint)
  /-- Registers something, which may be no extractor. -/
  | register (offered : Option Extractor)
  | extensions
  | languages
  | lookup (path : Text)
  | supports (path : Text)
  /-- Asks the extractor for one path whether it takes another. -/
  | extractorSupports (of path : Text)
  | forPath (path : Text)
  | extract (path source : Text)

/-- What a step gives. -/
inductive Answer where
  | texts (ts : List Text)
  | flag (b : Bool)
  | found (e? : Option Extractor)
  | extractor (e : Extractor)
  | outline (o : Outline)

/-- Why a step fails. -/
inductive StepError where
  | change (e : RegistryError)
  | reading (e : ExtractError)
  deriving DecidableEq, Repr

/-- A change of the registry, which answers with the extensions. -/
def change (r : Registry) (changed : Except RegistryError Registry) : Except StepError Answer × Registry :=
  match changed with
  | .ok r' => (.ok (.texts r'.extensions), r')
  | .error e => (.error (.change e), r)

/-- A question that the registry has to have an extractor for. -/
def question (r : Registry) (answer : Except ExtractError Answer) : Except StepError Answer × Registry :=
  (answer.mapError .reading, r)

/-- Takes a step: what it gives, and the registry after it. -/
def Step.run (r : Registry) : Step → Except StepError Answer × Registry
  | discover includesPlugins plugins => r.change (Registry.discover includesPlugins plugins)
  | register offered => r.change (r.registerAny offered)
  | extensions => (.ok (.texts r.extensions), r)
  | languages => (.ok (.texts r.languages), r)
  | lookup path => (.ok (.found (r.lookup? path)), r)
  | supports path => (.ok (.flag (r.supports path)), r)
  | extractorSupports of path => r.question ((r.forPath of).map fun e => .flag (e.supports path))
  | forPath path => r.question ((r.forPath path).map .extractor)
  | extract path source => r.question ((r.extract path source).map .outline)

/-- Takes some steps: what each of them gives, and the registry after the last one. -/
def runAll (r : Registry) : List Step → List (Except StepError Answer) × Registry
  | [] => ([], r)
  | step :: rest =>
    let (answer, r) := step.run r
    let (answers, r) := r.runAll rest
    (answer :: answers, r)

end SourceDoc.Registry
