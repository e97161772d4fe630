import RankMetric.Level
import RankMetric.Name

/-!
# Statements

A statement is a line of C text with the level it runs at. It also records what was found when it
was read: whether it is a remark, and if not, which declared quantities it reads and which one it
assigns to (`Statement.action`). The record is what the laws on levels and on used names speak of.

`Statement.shape` tells how the text takes part in a block: it opens one, closes one, or does
neither. A line that does both, such as `} else {`, counts as neither.
-/

namespace RankMetric

/-- What a statement does with the declared quantities. -/
inductive Action where
  /-- A comment of the description. -/
  | remark
  /-- The statement reads the given quantities, in this order, and assigns to none. -/
  | evaluation (operands : List Name)
  /-- The statement assigns to `target` by `operator` and reads the given quantities. -/
  | assignment (target : Name) (operator : Text) (operands : List Name)
  deriving DecidableEq, Repr

/-- The quantities that an action reads. -/
def Action.operands : Action → List Name
  | remark => []
  | evaluation ns => ns
  | assignment _ _ ns => ns

/-- The quantity that an action assigns to. -/
def Action.target? : Action → Option Name
  | assignment t _ _ => some t
  | _ => none

/-- One statement of a routine. -/
structure Statement where
  /-- The number of the first line of the statement. -/
  line : Nat
  level : Level
  text : Text
  action : Action := .evaluation []
  deriving DecidableEq, Repr

/-- How a line takes part in the nesting of blocks. -/
inductive Shape where
  | opening
  | closing
  | plain
  deriving DecidableEq, Repr

/-- The shape of a text: opening if it has `{` and no `}`, closing if it has `}` and no `{`. -/
def Shape.ofText (s : Text) : Shape :=
  match s.contains '{', s.contains '}' with
  | true, false => .opening
  | false, true => .closing
  | _, _ => .plain

namespace Statement

/-- How the statement takes part in the nesting of blocks. -/
def shape (s : Statement) : Shape :=
  .ofText s.text

/-- Raise the level of a statement to at least `l`. -/
def raise (l : Level) (s : Statement) : Statement :=
  { s with level := max s.level l }

@[simp] theorem raise_level (l : Level) (s : Statement) : (s.raise l).level = max s.level l := rfl

@[simp] theorem raise_text (l : Level) (s : Statement) : (s.raise l).text = s.text := rfl

@[simp] theorem raise_shape (l : Level) (s : Statement) : (s.raise l).shape = s.shape := rfl

end Statement

end RankMetric
