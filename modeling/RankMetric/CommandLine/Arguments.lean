import RankMetric.Propagation

/-!
# Command-line arguments

A call names a command after its general options, and the command is followed by its own options and
operands. The general options may stand after the command too, where they count for more. An option
may be given once before the command and once after it.

`Invocation.ofArguments` reads the arguments from left to right. The first that is misused, or that
asks for help or for the version, decides; what is missing is found at the end. The value of an
option before the command is judged when the next argument has been read, so that help asked of the
command comes before a fault of the value.
-/

namespace RankMetric

/-- The forms in which the program answers. -/
inductive OutputFormat where
  | text
  | json
  deriving DecidableEq, Repr

/-- What the general options say. -/
structure Settings where
  output : OutputFormat := .text
  /-- Whether the messages of errors are kept back. -/
  quiet : Bool := false
  deriving DecidableEq, Repr

/-- What the program is asked to do. -/
inductive Command where
  /-- Weave a description into a template. -/
  | compile (description template : Text) (p : Propagation)
  /-- Show what compiling a description finds out. -/
  | debug (description : Text) (p : Propagation)
  /-- List the built-in quantities. -/
  | builtins
  deriving DecidableEq, Repr

/-- The words that name a command. -/
inductive CommandWord where
  | compile
  | builtins
  | help
  deriving DecidableEq, Repr

/-- The command word of an argument. -/
def CommandWord.ofText? (s : Text) : Option CommandWord :=
  if s = "compile".toList then some .compile
  else if s = "builtins".toList then some .builtins
  else if s = "help".toList then some .help
  else none

/-- A call of the program. -/
inductive Invocation where
  | run (settings : Settings) (command : Command)
  /-- Help on a command, or on the program. -/
  | help (topic : Option CommandWord)
  | version
  | misuse
  deriving DecidableEq, Repr

namespace Arguments

/-! ### Single arguments -/

/-- Options without a value. -/
inductive Switch where
  | quiet
  | debug
  deriving DecidableEq, Repr

/-- Options with a value. -/
inductive Setting where
  | output
  | logLevel
  | propagation
  deriving DecidableEq, Repr

/-- Where an argument stands: before the command, or after one. -/
inductive Stage where
  | front
  | compile
  | builtins
  deriving DecidableEq, Repr

/-- What an argument is by its form. -/
inductive Argument where
  /-- Two dashes, after which every argument is an operand. -/
  | separator
  | help
  | version
  | switch (s : Switch)
  /-- An option with a value, which may be attached to it by an equals sign. -/
  | setting (s : Setting) (value : Option Text)
  | operand (s : Text)
  | unknown
  deriving DecidableEq, Repr

/-- Whether an argument has the form of an option. A single dash is an operand. -/
def looksLikeOption : Text → Bool
  | '-' :: _ :: _ => true
  | _ => false

/-- The name of a long option, and the value attached to it. -/
def splitValue (s : Text) : Text × Option Text :=
  (s.takeWhile (· ≠ '='), match s.dropWhile (· ≠ '=') with
    | [] => none
    | _ :: v => some v)

/-- The long option with a given name. -/
def longOption (stage : Stage) (name : Text) (value : Option Text) : Argument :=
  let plain (a : Argument) := if value.isNone then a else .unknown
  if name = "output".toList then .setting .output value
  else if name = "log-level".toList then .setting .logLevel value
  else if name = "quiet".toList then plain (.switch .quiet)
  else if name = "help".toList then plain .help
  else if name = "version".toList ∧ stage = .front then plain .version
  else if name = "debug".toList ∧ stage = .compile then plain (.switch .debug)
  else if name = "propagation".toList ∧ stage = .compile then .setting .propagation value
  else .unknown

/-- What an argument is at a stage. -/
def Argument.read (stage : Stage) : Text → Argument
  | ['-', '-'] => .separator
  | '-' :: '-' :: s =>
    let (name, value) := splitValue s
    longOption stage name value
  | '-' :: 'h' :: _ => .help
  | '-' :: 'v' :: _ => if stage = .front then .version else .unknown
  | '-' :: _ :: _ => .unknown
  | s => .operand s

/-! ### Options seen so far -/

/-- The options and operands of a stage. -/
structure Options where
  output : Option OutputFormat := none
  logLevel : Option Text := none
  propagation : Option Propagation := none
  quiet : Bool := false
  debug : Bool := false
  operands : List Text := []
  deriving DecidableEq, Repr

/-- The format with a given name. -/
def outputFormat? (s : Text) : Option OutputFormat :=
  if s = "text".toList then some .text
  else if s = "json".toList then some .json
  else none

/-- The strategy with a given name. -/
def propagation? (s : Text) : Option Propagation :=
  if s = "heuristic".toList then some .heuristic
  else if s = "block-tree".toList then some .blockTree
  else none

/-- The names of the log levels, which are accepted in large letters too. -/
def logLevels : List Text :=
  ["off", "error", "warn", "info", "debug", "trace"].map String.toList

/-- The name of a log level in small letters. -/
def logLevel? (s : Text) : Option Text :=
  let s := s.map Char.toLower
  if logLevels.contains s then some s else none

namespace Options

/-- Turn a switch on, unless it is on. -/
def turnOn (o : Options) : Switch → Option Options
  | .quiet => if o.quiet then none else some { o with quiet := true }
  | .debug => if o.debug then none else some { o with debug := true }

/-- Give an option its value, unless it has one or the value is none of its values. -/
def set (o : Options) (s : Setting) (v : Text) : Option Options :=
  match s with
  | .output =>
    if o.output.isSome then none else (outputFormat? v).map fun f ↦ { o with output := some f }
  | .logLevel =>
    if o.logLevel.isSome then none else (logLevel? v).map fun l ↦ { o with logLevel := some l }
  | .propagation =>
    if o.propagation.isSome then none
    else (propagation? v).map fun p ↦ { o with propagation := some p }

/-- The number of operands that a stage takes. -/
def maxOperands : Stage → Nat
  | .compile => 2
  | _ => 0

/-- Add an operand, unless it is empty or there are enough. -/
def addOperand (stage : Stage) (o : Options) (s : Text) : Option Options :=
  if s = [] ∨ maxOperands stage ≤ o.operands.length then none
  else some { o with operands := o.operands ++ [s] }

/-- What the general options of both stages say. Those after the command count for more. -/
def settings (front after : Options) : Settings where
  output := (after.output.or front.output).getD .text
  quiet := front.quiet || after.quiet

/-- The command `compile`, if nothing is missing. -/
def compile? (o : Options) : Option Command :=
  let p := o.propagation.getD .heuristic
  match o.operands, o.debug with
  | description :: _, true => some (.debug description p)
  | description :: template :: _, false => some (.compile description template p)
  | _, _ => none

/-- The command of a stage, if nothing is missing. -/
def command? (o : Options) : Stage → Option Command
  | .front => none
  | .compile => o.compile?
  | .builtins => some .builtins

end Options

/-! ### Reading from left to right -/

/-- How the reading of a command's arguments ends. -/
inductive Ending where
  | complete (o : Options)
  | help
  | misuse
  deriving DecidableEq, Repr

/-- Read the arguments of a command. -/
def readCommand (stage : Stage) (o : Options) : List Text → Ending
  | [] => .complete o
  | a :: rest =>
    match Argument.read stage a, rest with
    | .help, _ => .help
    | .version, _ | .unknown, _ => .misuse
    | .separator, rest =>
      match rest.foldlM (Options.addOperand stage) o with
      | some o => .complete o
      | none => .misuse
    | .switch s, rest =>
      match o.turnOn s with
      | some o => readCommand stage o rest
      | none => .misuse
    | .operand s, rest =>
      match o.addOperand stage s with
      | some o => readCommand stage o rest
      | none => .misuse
    | .setting s (some v), rest =>
      match o.set s v with
      | some o => readCommand stage o rest
      | none => .misuse
    | .setting _ none, [] => .misuse
    | .setting s none, v :: rest =>
      if looksLikeOption v then .misuse
      else
        match o.set s v with
        | some o => readCommand stage o rest
        | none => .misuse

/-- The call of a command whose arguments have been read. -/
def conclude (stage : Stage) (word : CommandWord) (front : Options) : Ending → Invocation
  | .complete o =>
    match o.command? stage with
    | some c => .run (front.settings o) c
    | none => .misuse
  | .help => .help (some word)
  | .misuse => .misuse

/-- The call that a command word and the arguments after it make up. -/
def readWord (front : Options) (word : CommandWord) (rest : List Text) : Invocation :=
  match word with
  | .compile => conclude .compile word front (readCommand .compile {} rest)
  | .builtins => conclude .builtins word front (readCommand .builtins {} rest)
  | .help =>
    match rest with
    | [] => .help none
    | [topic] => (CommandWord.ofText? topic).elim .misuse fun w ↦ .help (some w)
    | _ => .misuse

/-- What becomes of a call after a faulty value: help that the next argument brings, and a misuse
otherwise. -/
def afterFault (rest : List Text) : Invocation :=
  match rest with
  | [] => .misuse
  | a :: rest =>
    match (CommandWord.ofText? a).map fun w ↦ readWord {} w rest with
    | some (.help topic) => .help topic
    | _ => .misuse

/-- Read the arguments before the command, and go on with the command. -/
def readFront (o : Options) : List Text → Invocation
  | [] => .misuse
  | a :: rest =>
    match Argument.read .front a, rest with
    | .help, _ => .help none
    | .version, _ => .version
    | .unknown, _ | .separator, _ => .misuse
    | .operand s, rest =>
      match CommandWord.ofText? s with
      | some w => readWord o w rest
      | none => .misuse
    | .switch s, rest =>
      match o.turnOn s with
      | some o => readFront o rest
      | none => .misuse
    | .setting s (some v), rest =>
      match o.set s v with
      | some o => readFront o rest
      | none => .misuse
    | .setting _ none, [] => .misuse
    | .setting s none, v :: rest =>
      if looksLikeOption v then .misuse
      else
        match o.set s v with
        | some o => readFront o rest
        | none => afterFault rest

end Arguments

/-- The call that some arguments make up. -/
def Invocation.ofArguments (args : List Text) : Invocation :=
  Arguments.readFront {} args

end RankMetric
