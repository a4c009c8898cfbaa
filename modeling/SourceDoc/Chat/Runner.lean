import SourceDoc.Chat.Fault
import SourceDoc.Json.Parser
import SourceDoc.Json.Printer
import SourceDoc.Json.Reader
import SourceDoc.Log
import SourceDoc.Prose.Prompt
import SourceDoc.Text.Pattern

/-!
# Model runners

A runner asks a language model, over HTTP where it has a base address, else through a program.  What it asks is a
`Request`; what comes back is a `Reply`, out of which the runner takes the text of the model.
-/

namespace SourceDoc.Chat

/-! ## Settings -/

/-- A runner. -/
structure Runner where
  model : Text
  baseUrl? : Option Text
  executable? : Option Text
  temperature? : Option Quantity
  maxTokens? : Option Quantity
  apiKey? : Option Text
  timeout? : Option Quantity
  deriving DecidableEq, Repr

/-- A setting that is given or is looked up in the environment. -/
inductive Setting where
  | fromEnvironment
  | given (value? : Option Text)
  deriving DecidableEq, Repr

/-- What is known about a runner before the environment is looked at. -/
structure RunnerOptions where
  model? : Option Text := none
  baseUrl : Setting := .fromEnvironment
  executable? : Option Text := some "ollama".toList
  temperature? : Option Quantity := some (.real (Binary64.ofDecimal false 3 (-1)))
  maxTokens? : Option Quantity := some (.whole 4000)
  apiKey : Setting := .fromEnvironment
  timeout? : Option Quantity := some (.real (Binary64.ofInt 60))
  deriving DecidableEq, Repr

/-- The variables of the environment. -/
abbrev Environment := List (Text × Text)

/-- The variables that may name the model, the preferred one first. -/
def modelVariables : List String := ["AUTODOCS_LLM_MODEL", "OPENAI_MODEL"]

/-- The variables that may give the address of the model. -/
def addressVariables : List String := ["AUTODOCS_LLM_BASE_URL", "OPENAI_BASE_URL"]

/-- The variables that may give the key to the model. -/
def keyVariables : List String := ["AUTODOCS_LLM_API_KEY", "OPENAI_API_KEY"]

/-- All variables that a runner looks at. -/
def environmentNames : List String := modelVariables ++ addressVariables ++ keyVariables

/-- The first of some variables that is set and not empty. -/
def firstValue? (names : List String) (e : Environment) : Option Text :=
  names.findSome? fun name => (Table.get? name.toList e).filter (· ≠ [])

namespace Runner

/-- The address that requests go to unless another is given. -/
def defaultBaseUrl : Text := "https://api.openai.com/v1".toList

def defaultModel : Text := "gpt-4o".toList

/-- The runner with some options in an environment. -/
def ofOptions (o : RunnerOptions) (e : Environment) : Runner where
  model :=
    ((o.model?.filter (· ≠ [])).orElse fun _ => firstValue? modelVariables e).getD defaultModel
  baseUrl? :=
    let url? :=
      match o.baseUrl with
      | .given url? => url?
      | .fromEnvironment => some ((firstValue? addressVariables e).getD defaultBaseUrl)
    url?.map (Text.dropRight (· = '/'))
  executable? := o.executable?
  temperature? := o.temperature?
  maxTokens? := o.maxTokens?
  apiKey? :=
    match o.apiKey with
    | .given key? => key?
    | .fromEnvironment => firstValue? keyVariables e
  timeout? := o.timeout?

/-- The base address, where the model is asked over HTTP. -/
def address? (r : Runner) : Option Text := r.baseUrl?.filter (· ≠ [])

/-- The time that a request over HTTP may take, in seconds. -/
def httpTimeout (r : Runner) : Quantity := (r.timeout?.filter Quantity.isNonzero).getD (.real (Binary64.ofInt 60))

end Runner

/-! ## Requests -/

/-- What is sent to the other side. -/
inductive Request where
  | http (url : Text) (headers : List (Text × Text)) (body : Text) (timeout : Quantity)
  | program (arguments : List Text) (timeout? : Option Quantity)
  deriving DecidableEq, Repr

/-- What comes back. -/
inductive Reply where
  | body (octets : List UInt8)
  | fault (f : Fault)
  deriving DecidableEq, Repr

/-- Why the model gave no text. -/
inductive ModelError where
  | noProgram (executable? : Option Text)
  | programTimeout (limit? : Option Quantity)
  | programExit (code : Int) (complaint : Text)
  | status (code : Int) (detail : Text)
  | unreachable (reason : Text)
  | timeout (limit : Quantity)
  | broken (f : Fault)
  | notJson
  | empty
  deriving DecidableEq, Repr

def ModelError.message : ModelError → Text
  | noProgram executable? =>
    "Unable to locate '".toList ++ executable?.getD "None".toList ++
      "'. Install Ollama or configure a base_url.".toList
  | programTimeout limit? => "LLM runner timed out after ".toList ++ Fault.limitText limit? ++ ['s']
  | programExit code complaint =>
    "LLM runner failed with exit code ".toList ++ Text.ofInt code ++ ": ".toList ++ complaint
  | status code detail =>
    "LLM HTTP runner failed with status ".toList ++ Text.ofInt code ++ ": ".toList ++ detail
  | unreachable reason => "LLM HTTP runner failed: ".toList ++ reason
  | timeout limit => "LLM HTTP runner timed out after ".toList ++ limit.toText ++ ['s']
  | broken f => "LLM HTTP runner failed: ".toList ++ f.description
  | notJson => "LLM HTTP runner returned invalid JSON".toList
  | empty => "LLM HTTP runner returned an empty response".toList

/-- Why there is no text of a model. -/
inductive Failure where
  | model (e : ModelError)
  /-- A fault that the runner leaves as it is. -/
  | fault (f : Fault)
  | unknownScheme (url : Text)
  | undecodable (e : Text.DecodeError)
  /-- The answer is JSON, but no object. -/
  | notObject (kind : Text)
  | badNumber (e : Number.IntError)
  deriving DecidableEq, Repr

namespace Failure

def name : Failure → String
  | model _ => FaultKind.model.name
  | fault f => f.name
  | unknownScheme _ => "ValueError"
  | undecodable _ => "UnicodeDecodeError"
  | notObject _ => "AttributeError"
  | badNumber _ => "ValueError"

def message : Failure → Text
  | model e => e.message
  | fault f => f.message
  | unknownScheme url => "unknown url type: ".toList ++ Text.quoted url
  | undecodable e => e.message
  | notObject kind => ['\''] ++ kind ++ "' object has no attribute 'get'".toList
  | badNumber e => e.message

/-- The message, or the description of a fault that has none. -/
def shown (f : Failure) : Text :=
  match f with
  | fault g => if g.message = [] then g.description else g.message
  | _ => f.message

/-- The failures that are reported as those of the model; all others are mistakes of the program. -/
def isForeseen : Failure → Bool
  | model _ => true
  | fault f => f.isForeseen
  | _ => false

end Failure

namespace Runner

/-- An address as it is taken: without blanks around it and without a mark that says that it is one. -/
def cleanUrl (url : Text) : Text :=
  let t := Text.strip url
  match Text.after? "URL:".toList t with
  | some rest => Text.strip rest
  | none => t

/-- An address names its scheme: some characters before a colon, and no slash among them. -/
def hasScheme (url : Text) : Bool :=
  let front := ((Text.breakLast? '#' url).map Prod.fst).getD url
  let scheme := front.takeWhile fun c => c ≠ '/' && c ≠ ':'
  scheme ≠ [] && (front.drop scheme.length).head? = some ':'

/-- One message of a conversation. -/
def message (role : String) (content : Text) : Json :=
  .object [("role".toList, .ofString role), ("content".toList, .text content)]

/-- The conversation that asks something. -/
def conversation (r : Runner) (p : Prompt) (wantsJson : Bool) : Json :=
  .object (
    [("model".toList, .text r.model),
      ("messages".toList, .list
        ((if p.system = [] then [] else [message "system" p.system]) ++ [message "user" p.question]))] ++
    (r.temperature?.map fun q => ("temperature".toList, q.toJson)).toList ++
    (r.maxTokens?.map fun q => ("max_tokens".toList, q.toJson)).toList ++
    (if wantsJson then [("response_format".toList, .object [("type".toList, .ofString "json_object")])] else []))

/-- The request over HTTP to an address. -/
def httpRequest (r : Runner) (address : Text) (p : Prompt) (wantsJson : Bool) : Except Failure Request :=
  let url := cleanUrl (address ++ "/chat/completions".toList)
  let key :=
    match r.apiKey?.filter (· ≠ []) with
    | none => []
    | some key => [("authorization".toList, "Bearer ".toList ++ key)]
  if hasScheme url then
    .ok (.http url (key ++ [("content-type".toList, "application/json".toList)])
      ((r.conversation p wantsJson).write Json.compactAscii) r.httpTimeout)
  else .error (.unknownScheme url)

/-- The program that is started and what it is given. -/
def programRequest (r : Runner) (p : Prompt) (wantsJson : Bool) : Request :=
  .program
    ([(r.executable?.filter (· ≠ [])).getD "ollama".toList, "run".toList, r.model] ++
      (if wantsJson then ["--format".toList, "json".toList] else []) ++
      [if p.system = [] then p.question else p.system ++ "\n\n".toList ++ p.question])
    r.timeout?

/-- The request that asks something. -/
def request (r : Runner) (p : Prompt) (wantsJson : Bool) : Except Failure Request :=
  match r.address? with
  | some address => r.httpRequest address p wantsJson
  | none => .ok (r.programRequest p wantsJson)

/-! ## Replies -/

/-- The text in the first choice of an answer, empty where there is none. -/
def contentOf (answer : Json.Members) : Text :=
  match Table.get? "choices".toList answer with
  | some (.list (.object first :: _)) =>
    let content? :=
      match Table.get? "message".toList first with
      | some (.object m) => (Table.get? "content".toList m).bind Json.text?
      | _ => none
    (content?.orElse fun _ => (Table.get? "text".toList first).bind Json.text?).getD []
  | _ => []

/-- The text in the body of an answer over HTTP. -/
def readHttpBody (octets : List UInt8) : Except Failure Text := do
  let t ← (Text.decode octets).mapError .undecodable
  match Json.parse t with
  | .error e =>
    match e.fault with
    | .number n => .error (.badNumber n)
    | _ => .error (.model .notJson)
  | .ok (.object answer) =>
    let content := contentOf answer
    if content = [] then .error (.model .empty) else .ok (Text.strip content)
  | .ok v => .error (.notObject v.kindWord)

/-- What a fault of a request over HTTP amounts to. -/
def httpFailure (r : Runner) (f : Fault) : Failure :=
  match f with
  | .status code reason body =>
    let detail := Text.strip (Text.decodeKnown body)
    .model (.status code (if detail = [] then reason else detail))
  | .unreachable reason => .model (.unreachable reason)
  | .plain .timeout _ => .model (.timeout r.httpTimeout)
  | .plain .model _ => .fault f
  | .plain .runtime _ => .fault f
  | _ => if f.isForeseen then .model (.broken f) else .fault f

/-- What a fault of a program amounts to. -/
def programFailure (r : Runner) (f : Fault) : Failure :=
  match f with
  | .plain .missingFile _ => .model (.noProgram r.executable?)
  | .programTimeout _ _ => .model (.programTimeout r.timeout?)
  | .programExit _ code complaint => .model (.programExit code (Text.strip complaint))
  | _ => .fault f

/-- The text of the model in a reply to a request of the runner. -/
def read (r : Runner) (reply : Reply) : Except Failure Text :=
  match r.address?, reply with
  | some _, .body octets => readHttpBody octets
  | some _, .fault f => .error (r.httpFailure f)
  | none, .body octets => ((Text.decode octets).mapError .undecodable).map Text.strip
  | none, .fault f => .error (r.programFailure f)

/-! ## Conversations -/

/-- What the runner tells before it asks. -/
def dispatchEntry (r : Runner) (p : Prompt) : Log.Entry :=
  let target := (r.address?.orElse fun _ => r.executable?).getD "None".toList
  ⟨.debug, "llm", "Dispatching prompt (".toList ++ Text.ofNat p.question.length ++ " chars) to ".toList ++ target⟩

end Runner

/-- The other side of a conversation: the replies that it has left, and what it was asked. -/
structure Line where
  replies : List Reply := []
  requests : List Request := []
  deriving Repr

namespace Line

/-- The next reply.  A line without replies is out of reach. -/
def next (l : Line) : Reply × List Reply :=
  match l.replies with
  | [] => (.fault (.unreachable "no network".toList), [])
  | reply :: rest => (reply, rest)

end Line

/-- Asks the model over a line. -/
def Runner.ask (r : Runner) (p : Prompt) (wantsJson : Bool) (l : Line) : Except Failure Text × Line :=
  match r.request p wantsJson with
  | .error e => (.error e, l)
  | .ok request =>
    let (reply, rest) := l.next
    (r.read reply, { replies := rest, requests := l.requests ++ [request] })

end SourceDoc.Chat
