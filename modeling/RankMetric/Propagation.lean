import RankMetric.Outline

/-!
# Keeping blocks whole

The lines that open and close a block must run at the level of what they enclose. There are two
strategies, and both only ever raise levels.

* `heuristic` looks at neighbours. A forward pass raises each closing line to the level of the line
  before it, and then a backward pass raises each opening line to the level of the line after it.
  That is enough for blocks of one statement.
* `blockTree` raises every line of an outermost block to the highest level in it.
-/

namespace RankMetric

/-- How the levels of a block's lines are brought together. -/
inductive Propagation where
  | heuristic
  | blockTree
  deriving DecidableEq, Repr

namespace Propagation

/-- Raise each closing line to the level of the line before it; `level` is that of the line before
the first. -/
def liftClosing (level : Level) : List Statement → List Statement
  | [] => []
  | s :: ss =>
    let s := if s.shape = .closing then s.raise level else s
    s :: liftClosing s.level ss

/-- The level of the first statement, if there is one. -/
def headLevel : List Statement → Level
  | [] => .constant
  | s :: _ => s.level

/-- Raise each opening line to the level of the line after it, from the end on. -/
def liftOpening : List Statement → List Statement
  | [] => []
  | s :: ss =>
    let ss := liftOpening ss
    (if s.shape = .opening then s.raise (headLevel ss) else s) :: ss

/-- Raise brace lines to the levels of their neighbours. -/
def byNeighbours (ss : List Statement) : List Statement :=
  liftOpening (liftClosing .constant ss)

/-- Raise each statement to the highest level of some statements. -/
def raiseToJoin (ss : List Statement) (s : Statement) : Statement :=
  s.raise (Level.join (ss.map Statement.level))

/-- Raise every line of an outermost block to the highest level in the block. -/
def byBlocks (ss : List Statement) : List Statement :=
  ((Outline.ofList Statement.shape ss).mapBlocks raiseToJoin).toList

/-- Raise levels by a strategy. -/
def apply : Propagation → List Statement → List Statement
  | heuristic => byNeighbours
  | blockTree => byBlocks

end Propagation

end RankMetric
