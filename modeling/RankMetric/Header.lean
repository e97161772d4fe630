import RankMetric.Emission
import RankMetric.Metric
import RankMetric.Text.Lowercase
import RankMetric.Timestamp

/-!
# The header of the generated text

The first comment of a template is replaced by one that names what the text was made from and when,
and that repeats the comments of the description.
-/

namespace RankMetric

open Text

/-- What a header names besides the metric. -/
structure Provenance where
  /-- The path of the description. -/
  metricPath : Text
  /-- The path of the template. -/
  templatePath : Text
  /-- The name of the program that made the text. -/
  tool : Text
  /-- When the text was made. -/
  stamp : Text
  deriving DecidableEq, Repr

/-- What is known of a generated text before its time has been written out. -/
structure WeaveConfig (lib : TimeLibrary) where
  metricPath : Text
  templatePath : Text
  tool : Text
  /-- When the text is made. -/
  generatedAt : lib.DateTime

/-- What the header names, or why the time cannot be written. -/
def WeaveConfig.provenance {lib : TimeLibrary} (c : WeaveConfig lib) : Except Text Provenance :=
  (lib.timestamp c.generatedAt).map fun stamp ↦ ⟨c.metricPath, c.templatePath, c.tool, stamp⟩

/-- A comment of the description as a line of the header, without blanks at its end. -/
def headerComment (comment : Text) : Text :=
  trimEnd (" * ".toList ++ comment)

/-- The lines of the header. -/
def headerLines (name : Name) (comments : List Text) (p : Provenance) : List Text :=
  [ "/* ".toList ++ lowercase name ++ ".c implements the ".toList ++ name ++
      " metric for the query".toList,
    " * subsystem.  This file was automatically generated from".toList,
    " * ".toList ++ p.metricPath ++ " and ".toList ++ p.templatePath,
    " * by ".toList ++ p.tool ++ " on ".toList ++ p.stamp ++ ".".toList,
    " *".toList,
    " * DO NOT MODIFY THIS FILE, as changes will be lost upon".toList,
    " * subsequent regeneration.".toList,
    " * Go modify ".toList ++ p.metricPath ++ " or ".toList ++ p.templatePath ++
      " instead.".toList,
    " *".toList,
    " * Comments from ".toList ++ name ++ ".metric:".toList,
    " *".toList ] ++
  comments.map headerComment ++
  (if comments.isEmpty then [] else [" *".toList]) ++
  [" */".toList, []]

/-- The header for a metric. -/
def renderHeader (name : Name) (comments : List Text) (p : Provenance) : Text :=
  unlines (headerLines name comments p)

/-- The header for a metric. -/
def Metric.header (m : Metric) (p : Provenance) : Text :=
  renderHeader m.name m.comments p

end RankMetric
