import RankMetric.CommandLine.Arguments
import RankMetric.Dump
import RankMetric.Generation

/-!
# Answers of the program

`Command.respond` is what the program does with a command: a function of the files it reads, the
name by which it was called, the time and the settings. An answer has an exit code and the texts for
the two outputs. Every failure has the exit code `exitFailure`, an empty standard output and one
report, unless reports are kept back.
-/

namespace RankMetric

open Text (unlines)

/-- What the program writes and how it ends. -/
structure Response where
  code : Nat := 0
  stdout : Text := []
  stderr : Text := []
  deriving DecidableEq, Repr

/-- The name of the program. -/
def programName : Text :=
  "metricc".toList

/-- The name of the program in what it generates: how it was called, if that is known. -/
def toolName (call : Option Text) : Text :=
  (call.filter fun s ↦ !s.isEmpty).getD programName

/-- The line that tells the version. -/
def versionLine : Text :=
  programName ++ " 0.2.0".toList

/-- The exit code of every failure. -/
def exitFailure : Nat := 2

/-! ### Reports -/

namespace Settings

/-- A text or a data form, as the settings say, with a line feed. -/
def choose (s : Settings) (plain : Text) (data : Json) : Text :=
  match s.output with
  | .text => plain ++ ['\n']
  | .json => data.render ++ ['\n']

/-- The answer to a failure. -/
def report (s : Settings) (e : GenerationError) : Response where
  code := exitFailure
  stderr := if s.quiet then [] else s.choose e.message e.toJson

end Settings

/-! ### Built-in quantities -/

/-- The routines in the order in which they are listed. -/
def routines : List Routine :=
  [.decode, .post]

/-- The line of a built-in. -/
def builtinLineText (entry : Name × Text) : Text :=
  "    ".toList ++ entry.1 ++ ": ".toList ++ entry.2

/-- The list of built-ins. -/
def builtinList : Text :=
  List.intercalate ['\n'] <| routines.map fun r ↦
    unlines <|
      ("these quantities are available in ".toList ++ r.name ++ " routines:".toList) ::
        (builtinDocs r).map builtinLineText

/-- The data form of the list of built-ins. -/
def builtinJson : Json :=
  .object <| routines.map fun r ↦
    (r.name, .object <| (builtinDocs r).map fun (n, doc) ↦ (n, .text doc))

/-- The list of built-ins at the end of the help on the program. -/
def builtinHelp : Text :=
  unlines <| "Built-in quantities:".toList :: routines.flatMap fun r ↦
    [] :: ("  available in ".toList ++ r.name ++ " routines:".toList) ::
      (builtinDocs r).map builtinLineText

/-! ### Help -/

/-- The line that shows how the program, or a command, is called. -/
def usageLine : Option CommandWord → Text
  | none => "Usage: ".toList ++ programName ++ " [OPTIONS] <COMMAND>".toList
  | some .compile =>
    "Usage: ".toList ++ programName ++ " compile [OPTIONS] <DESCRIPTION> [TEMPLATE]".toList
  | some .builtins => "Usage: ".toList ++ programName ++ " builtins [OPTIONS]".toList
  | some .help => "Usage: ".toList ++ programName ++ " help [COMMAND]".toList

/-- The options that every command takes. -/
def generalHelp : List String := [
  "Options:",
  "      --output <OUTPUT>        Output format (text or json)",
  "      --quiet                  Suppress error messages",
  "      --log-level <LOG_LEVEL>  Set log filter value",
  "  -h, --help                   Print help"]

/-- The help on the program or on a command. -/
def helpText (topic : Option CommandWord) : Text :=
  let lines : List String :=
    match topic with
    | none => [
        "", "Commands:",
        "  compile   Compile a metric description and weave it into a C template",
        "  builtins  List the quantities every description can use",
        "  help      Print help on the program or a command", ""] ++
        generalHelp ++ ["  -v, --version                Print version", ""]
    | some .compile => [
        "", "Arguments:",
        "  <DESCRIPTION>  Path to the description",
        "  [TEMPLATE]     Path to the C template carrying METRIC_* markers", ""] ++
        generalHelp ++ [
        "      --debug                  Dump the compiled description",
        "      --propagation <STRATEGY> heuristic or block-tree"]
    | some .builtins => "" :: generalHelp
    | some .help => []
  unlines (usageLine topic :: lines.map String.toList) ++
    (if topic = none then builtinHelp else [])

/-- The report of a misuse. -/
def misuseText : Text :=
  unlines ["error: the arguments cannot be understood".toList, [], usageLine none]

/-! ### Commands -/

namespace Command

/-- The paths that a command may read, in order. -/
def paths : Command → List Text
  | compile description template _ => [description, template]
  | debug description _ => [description]
  | builtins => []

/-- The answer to a command. The program was called by the name `call`, and the time is `now`. -/
def respond {lib : TimeLibrary} (c : Command) (read : TextReader) (call : Option Text)
    (now : lib.DateTime) (s : Settings) : Response :=
  match c with
  | compile description template p =>
    let config : WeaveConfig lib := ⟨description, template, toolName call, now⟩
    match generate read description template p config with
    | .ok text => { stdout := text }
    | .error e => s.report e
  | debug description p =>
    match compileFile read description p with
    | .ok m =>
      match s.output with
      | .text => { stdout := m.dump }
      | .json => { stdout := m.toJson.render ++ ['\n'] }
    | .error e => s.report e
  | builtins =>
    match s.output with
    | .text => { stdout := builtinList }
    | .json => { stdout := builtinJson.render ++ ['\n'] }

end Command

/-- The answer to a call. -/
def Invocation.respond {lib : TimeLibrary} (i : Invocation) (read : TextReader)
    (call : Option Text) (now : lib.DateTime) : Response :=
  match i with
  | .run s c => c.respond read call now s
  | .help topic => { stdout := helpText topic }
  | .version => { stdout := versionLine ++ ['\n'] }
  | .misuse => { code := exitFailure, stderr := misuseText }

end RankMetric
