import RankMetric.Json
import RankMetric.Metric

/-!
# Data forms

The JSON forms of the records of a compilation. Fields without content are left out of a quantity;
all other records have all their fields. The fields of an error stand in alphabetical order, those
of the other records in an order of their own.
-/

namespace RankMetric

open Json

/-- The data form of a quantity. -/
def Quantity.toJson (q : Quantity) : Json :=
  object <|
    [field "name" q.name, field "type" q.type] ++ optional "initializer" q.initializer ++
    [("line".toList, number q.line), ("level".toList, number q.level.toNat)] ++
    optional "macro" q.macroText ++ optional "fallback_init" q.fallbackInit ++
    optional "prerequisite" q.prerequisite ++ optional "contrib" q.contribution ++
    (if q.contributionReads.isEmpty then []
      else [("contrib_deps".toList, texts q.contributionReads)]) ++
    optional "comment" (Text.nonempty? q.comment) ++ optional "doc" (Text.nonempty? q.doc)

/-- The data form of the quantities of a scope: an object with a field for each name. -/
def Quantities.toJson (qs : Quantities) : Json :=
  object <| qs.toList.map fun q ↦ (q.name, q.toJson)

/-- The data form of a statement. -/
def Statement.toJson (s : Statement) : Json :=
  object [
    ("line".toList, number s.line),
    ("level".toList, number s.level.toNat),
    field "text" s.text]

/-- The data form of the body of a routine. -/
def Body.toJson (r : Routine) (b : Body) : Json :=
  object [
    field "section" r.name,
    ("decls".toList, Quantities.toJson b.quantities),
    ("used".toList, texts b.used.names),
    ("statements".toList, array (b.statements.map Statement.toJson))]

/-- The data form of a metric. -/
def Metric.toJson (m : Metric) : Json :=
  object [
    field "name" m.name,
    field "source" m.source,
    ("comments".toList, texts m.comments),
    ("params".toList, Quantities.toJson m.params),
    ("decode".toList, m.decode.toJson .decode),
    ("post".toList, m.post.toJson .post),
    ("prerequisites".toList, texts m.prerequisites)]

/-- The data form of a cause, with the name it speaks of. -/
def Cause.toJson (c : Cause) : Json :=
  object <| field "kind" c.label ::
    match c with
    | .duplicateDeclaration n | .accumulatorRead n | .constAssignment n => [field "name" n]
    | .unexpectedEnd r => [field "section" r]
    | _ => []

/-- The data form of an error. -/
def DescriptionError.toJson (e : DescriptionError) : Json :=
  object [
    field "file" e.file,
    ("kind".toList, e.cause.toJson),
    ("line".toList, number e.line),
    field "message" e.cause.message,
    field "text" e.text]

end RankMetric
