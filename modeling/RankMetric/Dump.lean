import RankMetric.Emission
import RankMetric.Metric

/-!
# The text of a compiled description

`Metric.dump` shows what a compilation has found out: the comments, the parameters, and for each
routine its quantities, its statements with their lines and levels, and the names it uses; at the
end the set-up texts. Each part has a title and ends with a blank line, but for the last.
-/

namespace RankMetric

open Text

namespace Dump

/-- A line of a part. -/
def entry (s : Text) : Text :=
  spaces 4 ++ s

/-- The line of a quantity. -/
def quantity (q : Quantity) : Text :=
  let initializer :=
    match q.initializer with
    | some s => ' ' :: s
    | none => []
  let origin :=
    if q.isBuiltin then ", built-in".toList else ", line ".toList ++ ofInt q.line
  let macroNote :=
    match q.macroText with
    | some s => ", macro ".toList ++ s
    | none => []
  entry <| q.type ++ ' ' :: q.name ++ initializer ++ "  [level ".toList ++ q.level.text ++
    origin ++ macroNote ++ [']']

/-- The line of a statement: the number of its line, right-aligned in four columns, its level and
its text. -/
def statement (s : Statement) : Text :=
  entry <| (ofNat s.line).leftpad 4 ' ' ++ " [".toList ++ s.level.text ++ "] ".toList ++ s.text

/-- A part with its title and the blank line after it. -/
def part (title : Text) (entries : List Text) : List Text :=
  title :: entries ++ [[]]

/-- The parts of a routine. -/
def body (r : Routine) (b : Body) : List Text :=
  part (r.name ++ "_decl".toList) (b.quantities.toList.map quantity) ++
  part r.name (b.statements.map statement) ++
  part (r.name ++ "_used".toList) [entry (List.intercalate ", ".toList b.used.names)]

end Dump

/-- The text of a compiled description. -/
def Metric.dump (m : Metric) : Text :=
  unlines <|
    Dump.part "comments".toList (m.comments.map Dump.entry) ++
    Dump.part "params".toList (m.params.toList.map Dump.quantity) ++
    Dump.body .decode m.decode ++ Dump.body .post m.post ++
    "pre".toList :: m.prerequisites.map Dump.entry

end RankMetric
