import RankMetric.DescriptionError
import RankMetric.Text.Token

/-!
# The level of a statement

A statement runs at the highest level among the declared quantities that it reads, and at level 1 if
it reads none. Names that are not declared count for nothing. An assignment reads the tokens after
its operator; it raises its target to its own level, so that later statements which read the target
inherit the dependency. Any other statement reads all its tokens.

Reading an accumulator is a fault, and so is an assignment to a constant built-in. The first
accumulator among the operands is the one at fault, and the operands before it have been recorded as
used by then.
-/

namespace RankMetric

open Text

/-- The declared quantities that tokens name, in the order of the tokens. -/
def Quantities.named (q : Quantities) (ts : List Token) : List Quantity :=
  ts.filterMap fun t ↦ q.get? t.text

/-- The highest level of some quantities. -/
def Quantity.joinLevels (qs : List Quantity) : Level :=
  Level.join (qs.map Quantity.level)

/-- A fault in a statement, with the body as it was when the fault was found. -/
abbrev StatementFault := Cause × Body

namespace Body

/-- Read the operands among some tokens: record them as used and give them back, unless one is an
accumulator. -/
def readOperands (b : Body) (ts : List Token) : Except StatementFault (List Quantity × Body) :=
  let operands := Quantities.named b.quantities ts
  match operands.find? fun q ↦ q.level.isWriteOnly with
  | some q =>
    let readable := operands.takeWhile fun q ↦ !q.level.isWriteOnly
    .error (.accumulatorRead q.name, b.useAll (readable.map Quantity.name))
  | none => .ok (operands, b.useAll (operands.map Quantity.name))

/-- Add a remark as a comment of the generated text. -/
def remark (b : Body) (line : Nat) (text : Text) : Body :=
  b.push ⟨line, .constant, "/* ".toList ++ text ++ " */".toList, .remark⟩

/-- Add a statement that assigns to nothing. -/
def evaluate (b : Body) (line : Nat) (text : Text) : Except StatementFault Body := do
  let (operands, b) ← b.readOperands (significant text)
  return b.push
    ⟨line, Quantity.joinLevels operands, trim text, .evaluation (operands.map Quantity.name)⟩

end Body

/-! ### Assignments -/

/-- An assignment as far as it has been read. -/
structure Assignment where
  /-- The first line of the assignment. -/
  line : Nat
  target : Name
  operator : Text
  /-- The tokens after the operator. -/
  tokens : List Token
  /-- The lines read so far, joined by single spaces. -/
  text : Text
  deriving DecidableEq, Repr

namespace Assignment

/-- The assignment that a line begins: at least three tokens, of which the first is a declared name
and the second an assignment operator. -/
def begin? (q : Quantities) (line : Nat) (text : Text) : Option Assignment :=
  match significant text with
  | target :: operator :: t :: ts =>
    if q.contains target.text && assignmentOperators.contains operator.text then
      some ⟨line, target.text, operator.text, t :: ts, text⟩
    else none
  | _ => none

/-- Whether the last token is the terminator. -/
def isComplete (a : Assignment) : Bool :=
  a.tokens.getLast?.any Token.isTerminator

/-- The assignment with one more line. -/
def extend (a : Assignment) (text : Text) : Assignment :=
  { a with
    tokens := a.tokens ++ significant text
    text := trimEnd a.text ++ ' ' :: text }

end Assignment

namespace Body

/-- Whether a name belongs to a constant built-in. -/
def isFixed (b : Body) (n : Name) : Bool :=
  (b.quantities.get? n).any fun q ↦ q.isBuiltin && q.isConst

/-- Add an assignment that is complete, and raise its target. -/
def assign (b : Body) (a : Assignment) : Except StatementFault Body :=
  if b.isFixed a.target then .error (.constAssignment a.target, b)
  else do
    let (operands, b) ← b.readOperands a.tokens
    let level := Quantity.joinLevels operands
    return ((b.use a.target).raise a.target level).push
      ⟨a.line, level, trim a.text, .assignment a.target a.operator (operands.map Quantity.name)⟩

end Body

end RankMetric
