import SourceDoc.Number.Literal
import SourceDoc.Table
import SourceDoc.Text.Pattern
import SourceDoc.Text.Quoted

/-!
# Reading command lines

A command line is made of options, which start with a hyphen, and of positional arguments.  A long option may be
shortened as long as it is clear which one is meant, and may have its value after an equals sign.  Short options may be
written together, and the last of them may have its value right behind it.  After two hyphens all is positional.
-/

namespace SourceDoc.CommandLine

/-- What an option takes. -/
inductive Taking where
  | nothing
  /-- Nothing; it asks for help. -/
  | help
  | text
  | int
  | oneOf (words : List Text)
  deriving DecidableEq, Repr

/-- An option. -/
structure OptionForm where
  names : List Text
  key : String
  takes : Taking
  deriving DecidableEq, Repr

/-- What is positional. -/
inductive Positional where
  | nothing
  /-- One argument, with its name. -/
  | one (name : Text)
  /-- A command, and all that comes after it. -/
  | command (name : Text) (commands : List Text)
  deriving DecidableEq, Repr

/-- The form of a command line. -/
structure Form where
  program : Text
  options : List OptionForm
  positional : Positional
  deriving DecidableEq, Repr

/-- What an option was given. -/
inductive Given where
  | flag
  | text (t : Text)
  | int (i : Int)
  deriving DecidableEq, Repr

/-- What is wrong with a command line. -/
inductive Mistake where
  | noValue (names : List Text)
  | badInt (names : List Text) (value : Text)
  | badChoice (names : List Text) (value : Text) (words : List Text)
  | needlessValue (names : List Text) (value : Text)
  | ambiguous (argument : Text) (names : List Text)
  | required (name : Text)
  | unrecognized (arguments : List Text)
  deriving DecidableEq, Repr

/-- Some names of an argument as one. -/
def nameOf (names : List Text) : Text := Text.joinWith ['/'] names

def Mistake.message : Mistake → Text
  | noValue names => "argument ".toList ++ nameOf names ++ ": expected one argument".toList
  | badInt names value => "argument ".toList ++ nameOf names ++ ": invalid int value: ".toList ++ Text.quoted value
  | badChoice names value words =>
    "argument ".toList ++ nameOf names ++ ": invalid choice: ".toList ++ Text.quoted value ++ " (choose from ".toList ++
      Text.joinWith ", ".toList (words.map Text.quoted) ++ [')']
  | needlessValue names value =>
    "argument ".toList ++ nameOf names ++ ": ignored explicit argument ".toList ++ Text.quoted value
  | ambiguous argument names =>
    "ambiguous option: ".toList ++ argument ++ " could match ".toList ++ Text.joinWith ", ".toList names
  | required name => "the following arguments are required: ".toList ++ name
  | unrecognized arguments => "unrecognized arguments: ".toList ++ Text.joinWith [' '] arguments

/-- Why reading stops: a mistake, or a call for help. -/
inductive Stop where
  | mistake (program : Text) (m : Mistake)
  | help (program : Text)
  deriving DecidableEq, Repr

/-- The last line that tells a mistake. -/
def Stop.line? : Stop → Option Text
  | mistake program m => some (program ++ ": error: ".toList ++ m.message)
  | help _ => none

/-! ## Arguments -/

/-- How the value of an option is joined to its name. -/
inductive Joint where
  | direct
  | equals
  deriving DecidableEq, Repr

/-- An option as it is written, with a value joined to it. -/
structure Written where
  option : OptionForm
  name : Text
  value? : Option (Joint × Text) := none
  deriving DecidableEq, Repr

/-- What an argument is. -/
inductive Mark where
  | plain
  | separator
  | option (w : Written)
  | unknown
  deriving DecidableEq, Repr

/-- An argument with what it is. -/
abbrev Marked := Text × Mark

/-- The names of the options with their options. -/
def Form.names (f : Form) : List (Text × OptionForm) := f.options.flatMap fun o => o.names.map fun n => (n, o)

/-- The parts of an argument around its first equals sign. -/
def breakEquals (t : Text) : Text × Option (Joint × Text) :=
  match Text.breakOn? ['='] t with
  | some (name, value) => (name, some (.equals, value))
  | none => (t, none)

/-- The options that an argument may be short for. -/
def Form.candidates (f : Form) (argument : Text) : List Written :=
  match argument with
  | '-' :: '-' :: _ =>
    let (front, value?) := breakEquals argument
    (f.names.filter fun n => Text.startsWith n.1 front).map fun (name, option) => { option, name, value? }
  | _ =>
    f.names.filterMap fun (name, option) =>
      if name = argument.take 2 then some { option, name, value? := some (.direct, argument.drop 2) }
      else if Text.startsWith name argument then some { option, name }
      else none

/-- A text is a negative number. -/
def isNegativeNumber (t : Text) : Bool :=
  let isDigits := fun t : Text => t.all fun c => (Text.digitValue? c).isSome
  match t with
  | '-' :: rest =>
    (rest ≠ [] && isDigits rest) ||
      match Text.breakOn? ['.'] rest with
      | some (whole, fraction) => isDigits whole && fraction ≠ [] && isDigits fraction
      | none => false
  | _ => false

/-- What an argument in front of two hyphens is. -/
def Form.mark (f : Form) (argument : Text) : Except Stop Mark :=
  let (front, value?) := breakEquals argument
  match Table.get? argument f.names, Table.get? front f.names with
  | some option, _ => .ok (.option { option, name := argument })
  | none, found =>
    if argument.head? ≠ some '-' || argument.length = 1 then .ok .plain
    else
      match found, f.candidates argument with
      | some option, _ => .ok (.option { option, name := front, value? })
      | none, [w] => .ok (.option w)
      | none, [] => .ok (if isNegativeNumber argument || argument.any (· = ' ') then .plain else .unknown)
      | none, ws => .error (.mistake f.program (.ambiguous argument (ws.map (·.name))))

/-- The arguments with what they are. -/
def Form.marks (f : Form) : List Text → Except Stop (List Marked)
  | [] => .ok []
  | argument :: rest =>
    if argument = ['-', '-'] then .ok ((argument, .separator) :: rest.map fun t => (t, .plain))
    else do
      let m ← f.mark argument
      return (argument, m) :: (← f.marks rest)

/-! ## Options -/

/-- The option takes a value. -/
def OptionForm.takesValue (o : OptionForm) : Bool := o.takes ≠ .nothing && o.takes ≠ .help

/-- Options with the texts of their values. -/
abbrev Taken := List (OptionForm × Option Text)

/-- What a written option comes to: the options in it, arguments that nobody knows, and the arguments after it. -/
def Form.take (f : Form) : Nat → Written → List Marked → Except Stop (Taken × List Text × List Marked)
  | 0, _, rest => .ok ([], [], rest)
  | fuel + 1, w, rest =>
    let stop := fun m => Except.error (.mistake f.program m)
    match w.value? with
    | none =>
      if !w.option.takesValue then .ok ([(w.option, none)], [], rest)
      else
        match rest with
        | (value, .plain) :: rest => .ok ([(w.option, some value)], [], rest)
        | _ => stop (.noValue w.option.names)
    | some (joint, value) =>
      if w.option.takesValue then .ok ([(w.option, some value)], [], rest)
      else if w.name.drop 1 |>.head? |>.any (· = '-') then stop (.needlessValue w.option.names value)
      else
        match value with
        | [] => stop (.needlessValue w.option.names value)
        | c :: more =>
          if joint = .equals || c = '-' then stop (.needlessValue w.option.names value)
          else
            let name := ['-', c]
            match Table.get? name f.names with
            | none => .ok ([(w.option, none)], ['-' :: value], rest)
            | some option =>
              let value? :=
                match more with
                | [] => none
                | '=' :: more => some (Joint.equals, more)
                | _ => some (Joint.direct, more)
              (f.take fuel { option, name, value? } rest).map fun (taken, unknown, rest) =>
                ((w.option, none) :: taken, unknown, rest)

/-- What an option is given by a text. -/
def Form.give (f : Form) (o : OptionForm) (value? : Option Text) : Except Stop (String × Given) :=
  let value := value?.getD []
  match o.takes with
  | .nothing => .ok (o.key, .flag)
  | .help => .error (.help f.program)
  | .text => .ok (o.key, .text value)
  | .int =>
    match Number.parseInt value with
    | .ok i => .ok (o.key, .int i)
    | .error _ => .error (.mistake f.program (.badInt o.names value))
  | .oneOf words =>
    if words.contains value then .ok (o.key, .text value)
    else .error (.mistake f.program (.badChoice o.names value words))

/-! ## Reading -/

/-- What was read of a command line. -/
structure Read where
  /-- What the options were given, in order. -/
  given : List (String × Given) := []
  /-- The positional arguments. -/
  positional : List Text := []
  /-- The arguments that nobody knows. -/
  unknown : List Text := []
  deriving DecidableEq, Repr

/-- The positional arguments at the front of some arguments, and those after them. -/
def Positional.front (p : Positional) (ms : List Marked) : Option (List Text × List Marked) :=
  let (separators, ms') := (ms.takeWhile (·.2 = .separator), ms.dropWhile (·.2 = .separator))
  match p, ms' with
  | .one _, (argument, .plain) :: rest => some ([argument], rest.dropWhile (·.2 = .separator))
  | .command _ _, (argument, .plain) :: rest => some ((separators ++ (argument, .plain) :: rest).map Prod.fst, [])
  | _, _ => none

/-- The positional arguments, if they may be what they are. -/
def Form.checkPositional (f : Form) (arguments : List Text) : Except Stop (List Text) :=
  match f.positional, arguments with
  | .command name commands, first :: _ =>
    if commands.contains first then .ok arguments
    else .error (.mistake f.program (.badChoice [name] first commands))
  | _, _ => .ok arguments

/-- The argument is an option or looks like one. -/
def isOption (m : Marked) : Bool :=
  match m.2 with
  | .option _ => true
  | .unknown => true
  | _ => false

/-- Reads what is left of a command line. -/
def Form.readFrom (f : Form) : Nat → Read → List Marked → Except Stop Read
  | 0, r, _ => .ok r
  | fuel + 1, r, ms =>
    let front? := if r.positional = [] then f.positional.front ms else none
    match ms with
    | [] => .ok r
    | (argument, m) :: rest =>
      match m, front? with
      | .unknown, _ => f.readFrom fuel { r with unknown := r.unknown ++ [argument] } rest
      | .option w, _ => do
        let (taken, unknown, rest) ← f.take (argument.length + 1) w rest
        let given ← taken.mapM fun (o, value?) => f.give o value?
        f.readFrom fuel { r with given := r.given ++ given, unknown := r.unknown ++ unknown } rest
      | _, some (arguments, rest) => do
        let arguments ← f.checkPositional arguments
        f.readFrom fuel { r with positional := arguments } rest
      | _, none =>
        let extra := ms.takeWhile (!isOption ·)
        f.readFrom fuel { r with unknown := r.unknown ++ extra.map Prod.fst } (ms.drop extra.length)

/-- Reads a command line; what nobody knows is left to the caller. -/
def Form.read (f : Form) (arguments : List Text) : Except Stop Read := do
  let ms ← f.marks arguments
  let r ← f.readFrom (arguments.length + 1) {} ms
  match f.positional, r.positional with
  | .one name, [] => .error (.mistake f.program (.required name))
  | .command name _, [] => .error (.mistake f.program (.required name))
  | _, _ => return r

namespace Read

/-- What an option was given last. -/
def get? (r : Read) (key : String) : Option Given := r.given.reverse.lookup key

def text? (r : Read) (key : String) : Option Text :=
  match r.get? key with
  | some (.text t) => some t
  | _ => none

def int? (r : Read) (key : String) : Option Int :=
  match r.get? key with
  | some (.int i) => some i
  | _ => none

def has (r : Read) (key : String) : Bool := (r.get? key).isSome

end Read

end SourceDoc.CommandLine
