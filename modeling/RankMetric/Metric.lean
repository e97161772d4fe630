import RankMetric.Builtin
import RankMetric.Contribution
import RankMetric.Description
import RankMetric.Propagation

/-!
# Compiling a description

A metric is a description that has been read and levelled: the built-ins are declared, the
description is read into their tables, the levels of both routines are propagated, the used sets are
closed and the set-up texts collected. `Metric.compile` is these steps in this order.
-/

namespace RankMetric

/-- Raise the levels of both routines by a strategy. -/
def Tables.propagate (t : Tables) (p : Propagation) : Tables :=
  { t with
    decode := { t.decode with statements := p.apply t.decode.statements }
    post := { t.post with statements := p.apply t.post.statements } }

/-- A compiled description. -/
structure Metric extends Tables where
  /-- The base name of the description. -/
  name : Name
  /-- The label of the description's file. -/
  source : Text
  /-- The comments at the top of the description. -/
  comments : List Text
  /-- The set-up texts. -/
  prerequisites : List Text
  deriving DecidableEq

namespace Metric

/-- The metric that the comments and tables of a description make up. -/
def ofTables (src : Source) (p : Propagation) (comments : List Text) (t : Tables) : Metric :=
  let t := (t.propagate p).closeContributions
  { t with
    name := src.metric
    source := src.file
    comments := comments
    prerequisites := t.prerequisites }

/-- Compile a description. -/
def compile (src : Source) (p : Propagation) (text : Text) : Except DescriptionError Metric :=
  match Tables.withBuiltins.readDescription src text with
  | .error h => .error h.error
  | .ok (comments, t) => .ok (ofTables src p comments t)

/-- The parameters in the order of their lines. -/
def parameters (m : Metric) : List Quantity :=
  Quantity.sortByLine m.params.toList

end Metric

end RankMetric
