import Mathlib.Tactic.SplitIfs
import RankMetric.CommandLine.Response

/-!
# Calls of the command `compile`

A call of `compile` names a description and a template, and options may stand anywhere around them:
`--quiet` and `--output` before the command or behind it, `--propagation` behind it, each with its
value attached or in the next argument (`Arguments.Spells`). Paths that look like options may follow
two dashes. `Arguments.Calls` has these calls, every combination has one
(`Arguments.exists_calls`), and a reader of arguments is to take each for one command with some
settings (`Arguments.ReadsCalls`). The one that the program runs with does so
(`Arguments.readsCalls_ofArguments`).

`Invocation.all_or_nothing` says what the program does then, with any such reader and with any
library of dates and times. Either the generated text is the whole answer, or there is one report
and nothing else. The settings concern the report alone, and the template is not looked at before
the description has been compiled.
-/

namespace RankMetric

namespace Arguments

variable {stage : Stage} {s : Setting} {args rest : List Text} {o o' : Options} {v : Text}

/-! ### Options and operands -/

/-- The argument that names an option. -/
def Setting.text : Setting → Text
  | .output => "--output".toList
  | .logLevel => "--log-level".toList
  | .propagation => "--propagation".toList

/-- Whether a stage takes an option that concerns what is compiled or how it is reported. -/
def Stage.Takes : Stage → Setting → Prop
  | _, .output => True
  | .compile, .propagation => True
  | _, _ => False

/-- The arguments that give an option a value, which is attached to the option or follows it. -/
def valued (s : Setting) (value : Text) (attached : Bool) : List Text :=
  if attached then [s.text ++ '=' :: value] else [s.text, value]

/-- **What arguments spell**: options, each of which is given once at most, and operands. -/
inductive Spells (stage : Stage) : List Text → Options → Prop
  | nil : Spells stage [] {}
  | quiet {args : List Text} {o o' : Options} (front : Spells stage args o)
      (on : o.turnOn .quiet = some o') : Spells stage (args ++ ["--quiet".toList]) o'
  | setting {args : List Text} {o o' : Options} {s : Setting} {v : Text} (attached : Bool)
      (front : Spells stage args o) (takes : stage.Takes s) (set : o.set s v = some o') :
      Spells stage (args ++ valued s v attached) o'
  | operand {args : List Text} {o o' : Options} {v : Text} (front : Spells stage args o)
      (plain : looksLikeOption v = false) (add : o.addOperand stage v = some o') :
      Spells stage (args ++ [v]) o'

theorem read_quiet (stage : Stage) : Argument.read stage "--quiet".toList = .switch .quiet := by
  cases stage <;> rfl

theorem read_operand (h : looksLikeOption v = false) : Argument.read stage v = .operand v := by
  unfold Argument.read
  split
  · cases h
  · cases h
  · cases h
  · cases h
  · cases h
  · rfl

theorem read_setting (h : stage.Takes s) : Argument.read stage s.text = .setting s none := by
  cases stage <;> cases s <;> first | rfl | exact h.elim

theorem read_setting_attached (h : stage.Takes s) :
    Argument.read stage (s.text ++ '=' :: v) = .setting s (some v) := by
  cases stage <;> cases s <;> first | rfl | exact h.elim

/-- A value that is accepted does not look like an option. -/
theorem looksLikeOption_of_set (h : stage.Takes s) (hset : o.set s v = some o') :
    looksLikeOption v = false := by
  cases s with
  | logLevel => cases stage <;> exact h.elim
  | output =>
    have hvalue : outputFormat? v ≠ none := by
      intro hnone
      simp [Options.set, hnone] at hset
    unfold outputFormat? at hvalue
    split_ifs at hvalue with htext hjson
    · exact htext ▸ rfl
    · exact hjson ▸ rfl
    · exact absurd rfl hvalue
  | propagation =>
    have hvalue : propagation? v ≠ none := by
      intro hnone
      simp [Options.set, hnone] at hset
    unfold propagation? at hvalue
    split_ifs at hvalue with hheuristic hblocks
    · exact hheuristic ▸ rfl
    · exact hblocks ▸ rfl
    · exact absurd rfl hvalue

/-- Whether a reader of arguments goes on behind what it accepts, with what it has learned. -/
structure GoesOn {α : Type} (stage : Stage) (f : Options → List Text → α) : Prop where
  switch : ∀ {a : Text} {s : Switch} {o o' : Options} (rest : List Text),
    Argument.read stage a = .switch s → o.turnOn s = some o' → f o (a :: rest) = f o' rest
  attached : ∀ {a v : Text} {s : Setting} {o o' : Options} (rest : List Text),
    Argument.read stage a = .setting s (some v) → o.set s v = some o' →
      f o (a :: rest) = f o' rest
  apart : ∀ {a v : Text} {s : Setting} {o o' : Options} (rest : List Text),
    Argument.read stage a = .setting s none → looksLikeOption v = false → o.set s v = some o' →
      f o (a :: v :: rest) = f o' rest
  operand : ∀ {a v : Text} {o o' : Options} (rest : List Text),
    Argument.read stage a = .operand v → o.addOperand stage v = some o' →
      f o (a :: rest) = f o' rest

theorem goesOn_readCommand (stage : Stage) : GoesOn stage (readCommand stage) where
  switch rest hread hon := by
    rw [readCommand.eq_def]
    simp only [hread, hon]
  attached rest hread hset := by
    rw [readCommand.eq_def]
    simp only [hread, hset]
  apart rest hread hplain hset := by
    rw [readCommand.eq_def]
    simp only [hread, hplain, hset]
    rfl
  operand rest hread hadd := by
    rw [readCommand.eq_def]
    simp only [hread, hadd]

theorem goesOn_readFront : GoesOn .front readFront where
  switch rest hread hon := by
    rw [readFront.eq_def]
    simp only [hread, hon]
  attached rest hread hset := by
    rw [readFront.eq_def]
    simp only [hread, hset]
  apart rest hread hplain hset := by
    rw [readFront.eq_def]
    simp only [hread, hplain, hset]
    rfl
  operand rest hread hadd := by simp [Options.addOperand, Options.maxOperands] at hadd

/-- **What is spelled is read.** -/
theorem Spells.read_append {α : Type} {f : Options → List Text → α} (h : Spells stage args o)
    (hf : GoesOn stage f) (rest : List Text) : f {} (args ++ rest) = f o rest := by
  induction h generalizing rest with
  | nil => rfl
  | quiet front on ih =>
    rw [List.append_assoc, ih]
    exact hf.switch rest (read_quiet stage) on
  | setting attached front takes set ih =>
    rw [List.append_assoc, ih]
    cases attached with
    | true => exact hf.attached rest (read_setting_attached takes) set
    | false => exact hf.apart rest (read_setting takes) (looksLikeOption_of_set takes set) set
  | operand front plain add ih =>
    rw [List.append_assoc, ih]
    exact hf.operand rest (read_operand plain) add

/-- The option `--debug` is not among what is spelled. -/
theorem Spells.debug_eq (h : Spells stage args o) : o.debug = false := by
  induction h with
  | nil => rfl
  | quiet front on ih =>
    simp only [Options.turnOn] at on
    split at on
    · cases on
    · exact Option.some.inj on ▸ ih
  | @setting args o o' s v attached front takes set ih =>
    cases s with
    | output | logLevel | propagation =>
      simp only [Options.set] at set
      split at set
      · cases set
      · obtain ⟨x, -, rfl⟩ := Option.map_eq_some_iff.1 set
        exact ih
  | operand front plain add ih =>
    rw [Options.addOperand] at add
    split at add
    · cases add
    · exact Option.some.inj add ▸ ih

/-- Operands behind two dashes are taken as they are. -/
theorem foldlM_addOperand {vs : List Text} (hvs : ∀ v ∈ vs, v ≠ [])
    (hmax : o.operands.length + vs.length ≤ Options.maxOperands stage) :
    vs.foldlM (Options.addOperand stage) o = some { o with operands := o.operands ++ vs } := by
  induction vs generalizing o with
  | nil => rw [List.append_nil]; rfl
  | cons v vs ih =>
    obtain ⟨hv, hvs⟩ := List.forall_mem_cons.1 hvs
    rw [List.length_cons] at hmax
    have hadd : o.addOperand stage v = some { o with operands := o.operands ++ [v] } := by
      rw [Options.addOperand, if_neg (by rw [not_or]; exact ⟨hv, by omega⟩)]
    rw [List.foldlM_cons, hadd]
    show vs.foldlM (Options.addOperand stage) _ = _
    rw [ih hvs (by rw [List.length_append, List.length_singleton]; omega)]
    simp

theorem readCommand_separator {vs : List Text}
    (hadd : vs.foldlM (Options.addOperand stage) o = some o') :
    readCommand stage o ("--".toList :: vs) = .complete o' := by
  have hread : Argument.read stage "--".toList = .separator := rfl
  rw [readCommand.eq_def]
  simp only [hread, hadd]

/-! ### Calls -/

/-- **Whether arguments ask for the compilation** of description `d` with template `t` by a
strategy, and under which settings. -/
inductive Calls (d t : Text) : Propagation → Settings → List Text → Prop
  | plain {front after : List Text} {o o' : Options} (general : Spells .front front o)
      (command : Spells .compile after o') (operands : o'.operands = [d, t]) :
      Calls d t (o'.propagation.getD .heuristic) (o.settings o')
        (front ++ "compile".toList :: after)
  | separated {front after vs : List Text} {o o' : Options} (general : Spells .front front o)
      (command : Spells .compile after o') (nonempty : ∀ v ∈ vs, v ≠ [])
      (operands : o'.operands ++ vs = [d, t]) :
      Calls d t (o'.propagation.getD .heuristic) (o.settings o')
        (front ++ "compile".toList :: (after ++ "--".toList :: vs))

variable {d t : Text} {p : Propagation} {set : Settings}

theorem conclude_complete (hoperands : o'.operands = [d, t]) (hdebug : o'.debug = false) :
    conclude .compile .compile o (.complete o') =
      .run (o.settings o') (.compile d t (o'.propagation.getD .heuristic)) := by
  have hcommand : o'.command? .compile =
      some (.compile d t (o'.propagation.getD .heuristic)) := by
    rw [Options.command?, Options.compile?, hoperands, hdebug]
  rw [conclude, hcommand]

/-- **All these calls run the same command.** -/
theorem Calls.ofArguments_eq (h : Calls d t p set args) :
    Invocation.ofArguments args = .run set (.compile d t p) := by
  cases h with
  | @plain front after o o' general command operands =>
    rw [Invocation.ofArguments, general.read_append goesOn_readFront]
    show conclude .compile .compile o (readCommand .compile {} after) = _
    have hread := command.read_append (goesOn_readCommand .compile) []
    rw [List.append_nil] at hread
    rw [hread]
    exact conclude_complete operands command.debug_eq
  | @separated front after vs o o' general command nonempty operands =>
    have hlength := congrArg List.length operands
    rw [List.length_append] at hlength
    rw [Invocation.ofArguments, general.read_append goesOn_readFront]
    show conclude .compile .compile o (readCommand .compile {} (after ++ "--".toList :: vs)) = _
    rw [command.read_append (goesOn_readCommand .compile)]
    rw [readCommand_separator (foldlM_addOperand nonempty (Nat.le_of_eq hlength))]
    exact conclude_complete operands command.debug_eq

/-- Whether a reader of arguments takes every call of `compile` for what it asks for. -/
def ReadsCalls (reader : List Text → Invocation) : Prop :=
  ∀ ⦃d t p set args⦄, Calls d t p set args → reader args = .run set (.compile d t p)

theorem readsCalls_ofArguments : ReadsCalls Invocation.ofArguments :=
  fun _ _ _ _ _ h ↦ h.ofArguments_eq

theorem exists_spells_general (set : Settings) :
    ∃ front o, Spells .front front o ∧ o.output = some set.output ∧ o.quiet = set.quiet := by
  obtain ⟨output, quiet⟩ := set
  have houtput : ∃ front o, Spells .front front o ∧ o.output = some output ∧ o.quiet = false := by
    cases output with
    | text =>
      have hset : ({} : Options).set .output "text".toList = some { output := some .text } := rfl
      exact ⟨_, _, .setting (s := .output) true .nil trivial hset, rfl, rfl⟩
    | json =>
      have hset : ({} : Options).set .output "json".toList = some { output := some .json } := rfl
      exact ⟨_, _, .setting (s := .output) true .nil trivial hset, rfl, rfl⟩
  obtain ⟨front, o, hfront, hformat, hquiet⟩ := houtput
  cases quiet with
  | false => exact ⟨front, o, hfront, hformat, hquiet⟩
  | true => exact ⟨_, _, hfront.quiet (if_neg (by simp [hquiet])), hformat, rfl⟩

theorem exists_spells_strategy (p : Propagation) :
    ∃ after, Spells .compile after { propagation := some p } := by
  cases p with
  | heuristic =>
    have hset : ({} : Options).set .propagation "heuristic".toList =
        some { propagation := some .heuristic } := rfl
    exact ⟨_, .setting (s := .propagation) true .nil trivial hset⟩
  | blockTree =>
    have hset : ({} : Options).set .propagation "block-tree".toList =
        some { propagation := some .blockTree } := rfl
    exact ⟨_, .setting (s := .propagation) true .nil trivial hset⟩

/-- **Every combination can be asked for**, with any paths. -/
theorem exists_calls (hd : d ≠ []) (ht : t ≠ []) (p : Propagation) (set : Settings) :
    ∃ args, Calls d t p set args := by
  obtain ⟨front, o, hgeneral, houtput, hquiet⟩ := exists_spells_general set
  obtain ⟨after, hcommand⟩ := exists_spells_strategy p
  have hpaths : ∀ v ∈ [d, t], v ≠ [] := by simp [hd, ht]
  have hcalls := Calls.separated hgeneral hcommand hpaths rfl
  have hset : o.settings { propagation := some p } = set := by
    rw [Options.settings, houtput, hquiet]
    simp
  rw [hset] at hcalls
  exact ⟨_, hcalls⟩

end Arguments

/-! ### Answers -/

section

variable {lib : TimeLibrary} {read read' : TextReader} {d t : Text} {p : Propagation}
  {e : GenerationError}

/-- The description alone decides whether it can be compiled. -/
theorem compileFile_congr (h : read' d = read d) :
    compileFile read' d p = compileFile read d p := by
  rw [compileFile, compileFile, readAt, readAt, h]

/-- What is wrong with the description comes before all that could be wrong with the template. -/
theorem generate_eq_error (h : compileFile read d p = .error e) (config : WeaveConfig lib) :
    generate read d t p config = .error e := by
  rw [generate, h]
  rfl

end

open Arguments

variable {lib : TimeLibrary} {reader : List Text → Invocation} {d t : Text} {p : Propagation}
  {set : Settings} {args : List Text}

theorem Invocation.respond_of_calls (hreader : ReadsCalls reader) (h : Calls d t p set args)
    (read : TextReader) (call : Option Text) (now : lib.DateTime) :
    (reader args).respond read call now =
      match generate read d t p (⟨d, t, toolName call, now⟩ : WeaveConfig lib) with
      | .ok text => { stdout := text }
      | .error e => set.report e := by
  rw [hreader h]
  rfl

/-- **Compilation is all or nothing.** A call of `compile` either has exit code 0 and writes the
generated text and nothing else, or has exit code 2 and writes no text, but a report of the one
failure unless reports are kept back. The exit code and the text are the same for all calls with the
same paths and the same strategy, whatever is said of the output format and of reports. And if the
description cannot be read or compiled, the answer is the same whatever else there is to read, the
template included. -/
theorem Invocation.all_or_nothing (hreader : ReadsCalls reader) (h : Calls d t p set args)
    (read : TextReader) (call : Option Text) (now : lib.DateTime) :
    ((∃ text, generate read d t p (⟨d, t, toolName call, now⟩ : WeaveConfig lib) = .ok text ∧
        (reader args).respond read call now = { code := 0, stdout := text, stderr := [] }) ∨
      ∃ e, generate read d t p (⟨d, t, toolName call, now⟩ : WeaveConfig lib) = .error e ∧
        (reader args).respond read call now =
          { code := 2, stdout := [],
            stderr := if set.quiet then [] else set.choose e.message e.toJson }) ∧
    (∀ set' args', Calls d t p set' args' →
      ((reader args').respond read call now).code = ((reader args).respond read call now).code ∧
      ((reader args').respond read call now).stdout =
        ((reader args).respond read call now).stdout) ∧
    ∀ e, compileFile read d p = .error e → ∀ read' : TextReader, read' d = read d →
      (reader args).respond read' call now = (reader args).respond read call now := by
  refine ⟨?_, fun set' args' h' ↦ ?_, fun e herror read' hread ↦ ?_⟩
  · rw [respond_of_calls hreader h]
    cases generate read d t p (⟨d, t, toolName call, now⟩ : WeaveConfig lib) with
    | ok text => exact .inl ⟨text, rfl, rfl⟩
    | error e => exact .inr ⟨e, rfl, rfl⟩
  · rw [respond_of_calls hreader h, respond_of_calls hreader h']
    cases generate read d t p (⟨d, t, toolName call, now⟩ : WeaveConfig lib) <;> exact ⟨rfl, rfl⟩
  · have herror' : compileFile read' d p = .error e := (compileFile_congr hread).trans herror
    rw [respond_of_calls hreader h, respond_of_calls hreader h, generate_eq_error herror,
      generate_eq_error herror']

/-- Two calls, one of them quiet, when nothing can be read. -/
theorem Invocation.all_or_nothing_unreadable :
    let d := "okapi.metric".toList
    let t := "okapi.c".toList
    let read : TextReader := fun _ ↦ .error .noSuchFile
    let now : TimeLibrary.civil.DateTime := ClockTime.ofInstant 0 0
    let report := "error opening file okapi.metric: No such file or directory (os error 2)\n".toList
    let plain := ["compile".toList, d, t]
    let quiet := ["--quiet".toList, "compile".toList, d, "--output".toList, "json".toList, t]
    ReadsCalls ofArguments ∧ Calls d t .heuristic {} plain ∧
      Calls d t .heuristic ⟨.json, true⟩ quiet ∧
      ((ofArguments quiet).respond read none now).code =
        ((ofArguments plain).respond read none now).code ∧
      (ofArguments plain).respond read none now =
        { code := 2, stdout := [], stderr := report } := by
  intro d t read now report plain quiet
  have hoperands : Spells .compile ([] ++ [d] ++ [t]) { operands := [d, t] } :=
    .operand (.operand .nil rfl rfl) rfl rfl
  have hjson : Spells .compile ([] ++ [d] ++ valued .output "json".toList false ++ [t])
      { output := some .json, operands := [d, t] } :=
    .operand (.setting false (.operand .nil rfl rfl) trivial rfl) rfl rfl
  have hplain : Calls d t .heuristic {} plain := .plain .nil hoperands rfl
  have hquiet : Calls d t .heuristic ⟨.json, true⟩ quiet := .plain (.quiet .nil rfl) hjson rfl
  obtain ⟨hanswer, hsame, -⟩ := all_or_nothing readsCalls_ofArguments hplain read none now
  refine ⟨readsCalls_ofArguments, hplain, hquiet, (hsame _ _ hquiet).1, ?_⟩
  rcases hanswer with ⟨text, htext, -⟩ | ⟨e, herror, hrespond⟩
  · cases htext
  · obtain rfl := Except.error.inj herror
    exact hrespond

end RankMetric
