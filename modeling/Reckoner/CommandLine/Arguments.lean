import Reckoner.Separator

/-! # Arguments of the command line

The arguments are options of the program, the name of a job, and options and a file of the job. The
general options may stand in front of the name and behind it, once in either place; behind it they
win. The arguments are taken from left to right, and the first that asks for help or the version, or
is wrong, decides. -/

namespace Reckoner.CommandLine

/-! ### What may be given -/

/-- An option with a value. -/
inductive Parameter where
  | config
  | thousands
  | decimal
  | image
  | ops
  deriving DecidableEq

/-- An option without a value. -/
inductive Switch where
  | rowMode
  | combine
  | json
  | verbose
  deriving DecidableEq

/-- Where arguments stand: in front of the name of a job, or behind it. -/
inductive Scope where
  | general
  | parse
  | evaluate
  | console
  deriving DecidableEq

/-- The options with a value that a place knows, by name. -/
def Scope.parameter? (scope : Scope) (name : String) : Option Parameter :=
  match name with
  | "config" => some .config
  | "thousands" => some .thousands
  | "decimal" => some .decimal
  | "image" => if scope = .parse ∨ scope = .evaluate then some .image else none
  | "ops" => if scope = .evaluate then some .ops else none
  | _ => none

/-- The options without a value, by name. -/
def Switch.ofName? : String → Option Switch
  | "row-mode" => some .rowMode
  | "combine" => some .combine
  | "json" => some .json
  | "verbose" => some .verbose
  | _ => none

/-- Whether a file may be named. -/
def Scope.takesFile (scope : Scope) : Bool := scope = .parse || scope = .evaluate

/-- Whether an option takes the value. -/
def Parameter.accepts (value : List Char) : Parameter → Bool
  | .config => value ≠ []
  | .image => value ≠ []
  | .thousands => (Separator.ofName? (String.ofList value)).isSome
  | .decimal => (Separator.ofName? (String.ofList value)).isSome
  | .ops => true

/-! ### What was given -/

/-- The options and the file given in one place. -/
structure Given where
  parameters : List (Parameter × List Char) := []
  switches : List Switch := []
  file : Option (List Char) := none

namespace Given

/-- Adds an option with its value; it may be given once. -/
def addParameter? (p : Parameter) (value : List Char) (g : Given) : Option Given :=
  if (g.parameters.lookup p).isNone && p.accepts value then
    some { g with parameters := (p, value) :: g.parameters }
  else none

/-- Adds an option without a value; it may be given once. -/
def addSwitch? (s : Switch) (g : Given) : Option Given :=
  if g.switches.contains s then none else some { g with switches := s :: g.switches }

/-- Names the file; only one may be named. -/
def addFile? (scope : Scope) (path : List Char) (g : Given) : Option Given :=
  if scope.takesFile && g.file.isNone && path ≠ [] then some { g with file := some path } else none

end Given

/-- What the arguments of one place come to. -/
inductive Taken where
  | wrong
  | help
  | version
  /-- The arguments end. -/
  | finished (g : Given)
  /-- An argument that is no option stands where the name of a job may. -/
  | named (g : Given) (name : List Char) (rest : List (List Char))

/-! ### From left to right -/

/-- Whether an argument may be the value of the option in front of it; a lone minus may. -/
def isValue (arg : List Char) : Bool := arg.head? ≠ some '-' || arg = ['-']

/-- Takes the letters behind a single minus; `none` where all of them are switches. -/
def takeLetters (scope : Scope) : Given → List Char → Except Taken Given
  | g, [] => .ok g
  | g, 'v' :: letters =>
    match g.addSwitch? .verbose with
    | some g => takeLetters scope g letters
    | none => .error .wrong
  | _, 'h' :: _ => .error .help
  | _, 'V' :: _ => .error (if scope = .general then .version else .wrong)
  | _, _ :: _ => .error .wrong

/-- Takes arguments that can only be files. -/
def takeFiles (scope : Scope) : Given → List (List Char) → Taken
  | g, [] => .finished g
  | g, path :: more =>
    match g.addFile? scope path with
    | some g => takeFiles scope g more
    | none => .wrong

/-- A long option without its minuses: its name, and its value where an equals sign gives one. -/
def splitLong (s : List Char) : String × Option (List Char) :=
  let name := String.ofList (s.takeWhile (· != '='))
  match s.dropWhile (· != '=') with
  | [] => (name, none)
  | _ :: value => (name, some value)

/-- A long option that needs nothing behind it: a switch, or an option given with its value. The
value of any other known option is to be the next argument. -/
def takeLong (scope : Scope) (g : Given) (s : List Char) : Except Taken (Given ⊕ Parameter) :=
  let wrong := .error .wrong
  match splitLong s with
  | (name, some value) =>
    match (scope.parameter? name).bind (g.addParameter? · value) with
    | some g => .ok (.inl g)
    | none => wrong
  | (name, none) =>
    match scope.parameter? name, Switch.ofName? name with
    | some p, _ => .ok (.inr p)
    | none, some s =>
      match g.addSwitch? s with
      | some g => .ok (.inl g)
      | none => wrong
    | none, none =>
      if name = "help" then .error .help
      else if name = "version" ∧ scope = .general then .error .version
      else wrong

/-- Takes the arguments of one place; `awaiting` is the option whose value is next. -/
def take (scope : Scope) : (awaiting : Option Parameter) → Given → List (List Char) → Taken
  | none, g, [] => .finished g
  | some _, _, [] => .wrong
  | some p, g, value :: args =>
    match isValue value, g.addParameter? p value with
    | true, some g => take scope none g args
    | _, _ => .wrong
  | none, g, arg :: args =>
    match arg with
    | ['-', '-'] => takeFiles scope g args
    | '-' :: '-' :: long =>
      match takeLong scope g long with
      | .error t => t
      | .ok (.inl g) => take scope none g args
      | .ok (.inr p) => take scope (some p) g args
    | '-' :: letter :: letters =>
      match takeLetters scope g (letter :: letters) with
      | .error t => t
      | .ok g => take scope none g args
    | _ =>
      if scope = .general then .named g arg args
      else
        match g.addFile? scope arg with
        | some g => take scope none g args
        | none => .wrong

/-! ### Invocations -/

/-- Where the text of a job comes from: an image, a file, or else the standard input. -/
inductive Input where
  | standard
  | file (path : List Char)
  | image (path : List Char)
  deriving DecidableEq

/-- What is to be done. -/
inductive Job where
  /-- Shows the numbers of a text. -/
  | parse (input : Input)
  /-- Works a text out, with operators if some are given. -/
  | evaluate (input : Input) (ops : Option (List Char))
  /-- Runs the console on the standard input. -/
  | console
  deriving DecidableEq

/-- The general options. -/
structure Options where
  config : Option (List Char) := none
  thousands : Option Separator := none
  decimal : Option Separator := none
  rowMode : Bool := false
  combine : Bool := false
  json : Bool := false

/-- What the arguments ask for. -/
inductive Invocation where
  | wrong
  | help
  | version
  | run (options : Options) (job : Job)

/-- The options of two places together, those of the second first. -/
def options (general job : Given) : Options :=
  let value (p : Parameter) := (job.parameters.lookup p).or (general.parameters.lookup p)
  let separator (p : Parameter) := (value p).bind fun v => Separator.ofName? (String.ofList v)
  let given (s : Switch) := general.switches.contains s || job.switches.contains s
  ⟨value .config, separator .thousands, separator .decimal, given .rowMode, given .combine,
    given .json⟩

/-- The input of a job; an image and a file exclude each other. -/
def Given.input? (g : Given) : Option Input :=
  match g.parameters.lookup .image, g.file with
  | some _, some _ => none
  | some path, none => some (.image path)
  | none, some path => some (if path = ['-'] then .standard else .file path)
  | none, none => some .standard

/-- The place of a job's arguments, by the name of the job. -/
def Scope.ofName? : String → Option Scope
  | "parse" => some .parse
  | "eval" => some .evaluate
  | "repl" => some .console
  | _ => none

/-- The job of a place with what was given there. -/
def Given.job? (g : Given) : Scope → Option Job
  | .general => none
  | .parse => g.input?.map .parse
  | .evaluate => g.input?.map fun input => .evaluate input (g.parameters.lookup .ops)
  | .console => some .console

/-- Whether help may be asked for with these words behind it. -/
def isHelpTopic : List (List Char) → Bool
  | [] => true
  | [name] => name = "help".toList || (Scope.ofName? (String.ofList name)).isSome
  | _ => false

/-- What a name and the arguments behind it ask for. -/
def ofNamed (general : Given) (name : List Char) (rest : List (List Char)) : Invocation :=
  match Scope.ofName? (String.ofList name) with
  | some scope =>
    match take scope none {} rest with
    | .finished g =>
      match g.job? scope with
      | some job => .run (options general g) job
      | none => .wrong
    | .help => .help
    | _ => .wrong
  | none => if name = "help".toList ∧ isHelpTopic rest then .help else .wrong

/-- What the arguments ask for. -/
def Invocation.ofArguments (args : List (List Char)) : Invocation :=
  match take .general none {} args with
  | .named g name rest => ofNamed g name rest
  | .help => .help
  | .version => .version
  | _ => .wrong

end Reckoner.CommandLine
