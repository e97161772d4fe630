import RankMetric.Files
import RankMetric.Report
import RankMetric.Weave

/-!
# From files to generated text

`generate` reads a description, compiles it, reads a template and weaves the two. The first thing
that fails is the failure of the whole: what is wrong with the description is found before the
template is looked at, and what is wrong with the template before the time is written.
-/

namespace RankMetric

/-- Why no text is generated. -/
inductive GenerationError where
  /-- A file cannot be read. -/
  | unreadable (path : Text) (failure : ReadFailure)
  /-- The description is wrong. -/
  | description (e : DescriptionError)
  /-- The template has no header comment. -/
  | invalidTemplate (path : Text)
  /-- The time cannot be written, for the given reason. -/
  | emit (reason : Text)
  deriving DecidableEq

namespace GenerationError

/-- The wording for a template without a header. -/
def templateMessage (path : Text) : Text :=
  path ++ ": no header comment closed by '*/'".toList

/-- The wording of an error. -/
def message : GenerationError → Text
  | unreadable path f => "error opening file ".toList ++ path ++ ": ".toList ++ f.message
  | description e => e.message
  | invalidTemplate path => "invalid template: ".toList ++ templateMessage path
  | emit reason => "emit error: ".toList ++ reason

/-- The word for the kind of an error in data. -/
def label : GenerationError → Text
  | unreadable _ _ => "io".toList
  | description e => e.cause.label
  | invalidTemplate _ => "invalid_template".toList
  | emit _ => "emit".toList

/-- The data form of an error. -/
def toJson : GenerationError → Json
  | unreadable path f =>
    .object [
      Json.field "file" path,
      Json.field "kind" "io".toList,
      Json.field "message" f.message]
  | description e => e.toJson
  | invalidTemplate path =>
    .object [
      Json.field "kind" "invalid_template".toList,
      Json.field "message" (templateMessage path)]
  | emit reason =>
    .object [
      Json.field "kind" "emit".toList,
      Json.field "message" reason]

end GenerationError

/-- The text at a path, for which a failure names the path. -/
def readAt (read : TextReader) (path : Text) : Except GenerationError Text :=
  (read path).mapError (.unreadable path)

/-- Compile the description at a path. -/
def compileFile (read : TextReader) (path : Text) (p : Propagation) :
    Except GenerationError Metric := do
  let text ← readAt read path
  (Metric.compile ⟨path, Path.metricName path⟩ p text).mapError .description

section

variable {lib : TimeLibrary}

/-- Weave a metric into a template. -/
def Metric.weave (m : Metric) (c : WeaveConfig lib) (template : Text) :
    Except GenerationError Text :=
  match templateBody? template with
  | none => .error (.invalidTemplate c.templatePath)
  | some ls =>
    match c.provenance with
    | .ok p => .ok (m.header p ++ m.weaveLines ls)
    | .error reason => .error (.emit reason)

/-- Compile the description at a path and weave it into the template at another. -/
def generate (read : TextReader) (description template : Text) (p : Propagation)
    (config : WeaveConfig lib) : Except GenerationError Text := do
  let metric ← compileFile read description p
  let text ← readAt read template
  metric.weave config text

end

end RankMetric
