import RankMetric.Declaration
import RankMetric.Levelling
import RankMetric.Text.Lines

/-!
# Reading a description

A description is read line by line. Outside the routines it has remarks, which begin with `#`,
`parameter` lines and the headers `decode() {` and `post() {`. A routine has declarations first and
then statements, and ends with a line that is `}` alone. The remarks and blank lines at the top,
before the first line of another kind, are the comments of the description.

Reading is a run of `Reader.step` over the lines at their positions, and all that is carried from
line to line is in `Reader`: the tables, the comments, and the place in the description (`Place`).
So a description can be read in parts (`Reader.run_append`). What is wrong with a description is
either found in a step or, if the last line leaves a routine open, by `Reader.finish`.

What is recorded of a position is a number of 32 bits (`lineNumber`). A description of fewer than
`2 ^ 32` lines has a number for each of them (`FitsNumbers`); in a longer one the numbers start
again from 0.
-/

namespace RankMetric

open Text

/-! ### Line numbers -/

/-- The number of the line at a position of a description, counted from 1, in 32 bits. -/
def lineNumber (n : Nat) : Nat :=
  n % 0x100000000

/-- Whether the lines of a description are few enough for each to have the number of its
position. -/
def FitsNumbers (lines : List Text) : Prop :=
  lines.length < 0x100000000

instance (lines : List Text) : Decidable (FitsNumbers lines) :=
  inferInstanceAs (Decidable (_ < _))

theorem lineNumber_of_lt {n : Nat} (h : n < 0x100000000) : lineNumber n = n :=
  Nat.mod_eq_of_lt h

theorem lineNumber_lt (n : Nat) : lineNumber n < 0x100000000 :=
  Nat.mod_lt n (by decide)

theorem FitsNumbers.lineNumber_eq {lines : List Text} (h : FitsNumbers lines) {n : Nat}
    (hn : n ≤ lines.length) : lineNumber n = n :=
  lineNumber_of_lt (Nat.lt_of_le_of_lt hn h)

/-- The number of the line behind some of the lines. -/
theorem FitsNumbers.lineNumber_behind {before rest : List Text} (h : FitsNumbers (before ++ rest))
    (hrest : rest ≠ []) : lineNumber (1 + before.length) = 1 + before.length :=
  h.lineNumber_eq <| by
    have := List.length_pos_iff.2 hrest
    rw [List.length_append]
    omega

/-! ### Kinds of lines -/

/-- The text of a remark, if a line without blanks at its ends is one. -/
def remark? : Text → Option Text
  | '#' :: s => some (trimStart s)
  | _ => none

/-- The kinds of lines outside a routine. -/
inductive OuterLine where
  /-- A blank line, with the empty text, or a remark. -/
  | comment (text : Text)
  | parameter (declaration : Text)
  | header (r : Routine)
  | unexpected
  deriving DecidableEq, Repr

/-- The word that begins the line of a parameter. -/
def parameterWord : Text :=
  "parameter".toList

/-- The kind of a line outside a routine. -/
def OuterLine.ofText (line : Text) : OuterLine :=
  let trimmed := trim line
  match trimmed, remark? trimmed with
  | [], _ => .comment []
  | _, some text => .comment text
  | _, none =>
    let ws := words trimmed
    if ws = ["decode()".toList, ['{']] then .header .decode
    else if ws = ["post()".toList, ['{']] then .header .post
    else if ws.head? = some parameterWord ∧ 1 < ws.length then
      .parameter (trimmed.drop parameterWord.length)
    else .unexpected

/-- The kinds of lines within a routine. -/
inductive InnerLine where
  | closing
  | blank
  | remark (text : Text)
  | code
  deriving DecidableEq, Repr

/-- The kind of a line within a routine. A line closes the routine if it is `}` with nothing before
it and nothing but blanks after it. -/
def InnerLine.ofText (line : Text) : InnerLine :=
  if trimEnd line = ['}'] then .closing
  else
    match trim line, remark? (trim line) with
    | [], _ => .blank
    | _, some text => .remark text
    | _, none => .code

/-! ### The reader -/

/-- Where in a description the reader is. -/
inductive Place where
  /-- Outside the routines. -/
  | outside
  | declarations (r : Routine)
  | statements (r : Routine)
  /-- Within an assignment whose terminator has not come yet. -/
  | assignment (r : Routine) (a : Assignment)
  deriving DecidableEq

/-- What the reader knows after some lines. -/
structure Reader where
  tables : Tables
  comments : List Text := []
  place : Place := .outside
  deriving DecidableEq

/-- What stays the same while a description is read. -/
structure Source where
  /-- The label of the file in error messages. -/
  file : Text
  /-- The name of the metric, by which the macros of its parameters are named. -/
  metric : Name
  deriving DecidableEq, Repr

namespace Reader

/-- The attributes of a parameter. -/
def parameterAttributes (metric name : Name) : Attributes where
  macroText := "opt->u.".toList ++ metric ++ '.' :: name
  doc := "metric parameter".toList

/-- The attributes of a quantity that a routine declares. -/
def localAttributes : Attributes where
  doc := "user declared quantity".toList

/-- The scopes of a parameter. -/
def parameterScopes : List Scope :=
  [.params, .routine .post, .routine .decode]

/-- Stop with a fault. -/
def fail (src : Source) (rd : Reader) (n : Nat) (c : Cause) (text : Text) : Except Halted Reader :=
  .error ⟨.located src.file n c text, rd.tables⟩

/-- Go on at a place with what has become of the tables. -/
def proceed (rd : Reader) (place : Place) : Except DescriptionError (Name × Tables) →
    Except Halted Reader
  | .ok (_, t) => .ok { rd with tables := t, place := place }
  | .error e => .error ⟨e, rd.tables⟩

/-- Go on among the statements of a routine with what has become of its body. -/
def settle (src : Source) (rd : Reader) (r : Routine) (n : Nat) (text : Text) :
    Except StatementFault Body → Except Halted Reader
  | .ok b => .ok { rd with tables := rd.tables.setBody r b, place := .statements r }
  | .error (c, b) => fail src { rd with tables := rd.tables.setBody r b } n c text

/-- Read the end of an assignment, or go on within it. -/
def advance (src : Source) (rd : Reader) (r : Routine) (a : Assignment) : Except Halted Reader :=
  if a.isComplete then rd.settle src r a.line a.text ((rd.tables.body r).assign a)
  else .ok { rd with place := .assignment r a }

/-- Read a line outside the routines. A comment is kept as long as the number of its line has not
gone beyond the number of comments: then no other line has come before it. -/
def stepOuter (src : Source) (rd : Reader) (n : Nat) (line : Text) : Except Halted Reader :=
  match OuterLine.ofText line with
  | .comment text =>
    .ok <|
      if n ≤ rd.comments.length + 1 then { rd with comments := rd.comments ++ [text] } else rd
  | .parameter text =>
    rd.proceed .outside <|
      rd.tables.declare src.file parameterScopes text n .constant (parameterAttributes src.metric)
  | .header r => .ok { rd with place := .declarations r }
  | .unexpected => rd.fail src n .unexpectedLine line

/-- Read a line among the statements of a routine. -/
def stepStatement (src : Source) (rd : Reader) (r : Routine) (n : Nat) (line : Text) :
    Except Halted Reader :=
  let body := rd.tables.body r
  match InnerLine.ofText line with
  | .closing => .ok { rd with place := .outside }
  | .blank => .ok { rd with place := .statements r }
  | .remark text => rd.settle src r n line (.ok (body.remark n text))
  | .code =>
    match Assignment.begin? body.quantities n line with
    | some a => rd.advance src r a
    | none => rd.settle src r n line (body.evaluate n line)

/-- Read a line among the declarations of a routine. The first line of code that does not begin with
a type word is the first statement. -/
def stepDeclaration (src : Source) (rd : Reader) (r : Routine) (n : Nat) (line : Text) :
    Except Halted Reader :=
  match InnerLine.ofText line with
  | .closing => .ok { rd with place := .outside }
  | .blank | .remark _ => .ok rd
  | .code =>
    if (significant line).head?.any fun t ↦ isTypeWord t.text then
      rd.proceed (.declarations r) <|
        rd.tables.declare src.file [.routine r] line n .perDocument fun _ ↦ localAttributes
    else rd.stepStatement src r n line

/-- Read the line at position `n`. -/
def step (src : Source) (rd : Reader) (n : Nat) (line : Text) : Except Halted Reader :=
  match rd.place with
  | .outside => rd.stepOuter src (lineNumber n) line
  | .declarations r => rd.stepDeclaration src r (lineNumber n) line
  | .statements r => rd.stepStatement src r (lineNumber n) line
  | .assignment r a => rd.advance src r (a.extend line)

/-- Read lines, the first of which is at position `n`. -/
def run (src : Source) (rd : Reader) (n : Nat) : List Text → Except Halted Reader
  | [] => .ok rd
  | line :: lines => do (← rd.step src n line).run src (n + 1) lines

/-- A description can be read in parts. -/
theorem run_append (src : Source) (rd : Reader) (n : Nat) (ls ms : List Text) :
    rd.run src n (ls ++ ms) = (rd.run src n ls).bind fun rd ↦ rd.run src (n + ls.length) ms := by
  induction ls generalizing rd n with
  | nil => rfl
  | cons l ls ih =>
    rw [List.cons_append, run, run]
    cases rd.step src n l with
    | error h => rfl
    | ok rd' =>
      show rd'.run src (n + 1) (ls ++ ms) = _
      rw [ih, List.length_cons, Nat.add_assoc, Nat.add_comm 1]
      rfl

/-- What is wrong if the description ends here, after the line at position `n`. A routine must not
stay open. -/
def finish (src : Source) (rd : Reader) (n : Nat) : Except Halted Reader :=
  match rd.place with
  | .outside => .ok rd
  | .declarations r | .statements r => rd.fail src (lineNumber n) (.unexpectedEnd r.name) []
  | .assignment r a => rd.fail src (lineNumber n) (.unexpectedEnd r.name) a.text

/-- The comments without the empty ones at their end. -/
def trimComments (cs : List Text) : List Text :=
  (cs.reverse.dropWhile List.isEmpty).reverse

end Reader

namespace Tables

/-- Read a description, given as lines, into tables. -/
def readLines (t : Tables) (src : Source) (ls : List Text) :
    Except Halted (List Text × Tables) := do
  let rd ← ({ tables := t } : Reader).run src 1 ls
  let rd ← rd.finish src ls.length
  return (Reader.trimComments rd.comments, rd.tables)

/-- Read a description into tables. The answer holds its comments and the tables reached. -/
def readDescription (t : Tables) (src : Source) (text : Text) :
    Except Halted (List Text × Tables) :=
  t.readLines src (lines text)

end Tables

end RankMetric
