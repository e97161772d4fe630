import RankMetric.Emission
import RankMetric.Header
import RankMetric.Marker
import RankMetric.Text.Search

/-!
# Weaving a metric into a template

The lines of a template up to the first that has the sign `*/` are its own header and are replaced
by a generated one. What follows is copied token by token, but each marker is replaced by its
comment and by the code it stands for. That code depends on the metric, the marker and the number of
blanks at the front of the marker's line, and on nothing else (`Metric.expansion`).
-/

namespace RankMetric

open Text

namespace Metric

/-- The code of a marker that is followed by whole lines. -/
def emission (m : Metric) (dent : Nat) : Marker → Text
  | .name | .dependsPost => []
  | .pre => unlines (m.prerequisites.map (indent dent))
  | .post =>
    m.post.renderQuantities dent m.post.macros ++ m.post.renderLevel .constant dent m.post.macros
  | .postPerDoc => m.post.renderLevel .perDocument dent m.post.macros
  | .decl => m.decode.renderQuantities dent m.decode.macros
  | .perCall => m.decode.renderLevel .constant dent m.decode.macros
  | .perDoc =>
    m.decode.renderLevel .perDocument dent m.decode.macros ++
      m.decode.renderLevel .perTerm dent m.decode.macros
  | .contrib =>
    m.decode.renderLevel .perDocument dent m.decode.contributions ++
      m.decode.renderLevel .perTerm dent m.decode.contributions

/-- What a marker is replaced by on a line that is indented by `dent`. -/
def expansion (m : Metric) (dent : Nat) (k : Marker) : Text :=
  match k with
  | .name => k.text ++ ' ' :: m.name
  | .dependsPost => k.text ++ ' ' :: ofNat m.post.statements.length
  | _ => k.text ++ '\n' :: m.emission dent k

/-- Weave the tokens of a line, leaving out the first `skip`, which belong to a marker that has been
replaced. -/
def weaveTokens (m : Metric) (dent : Nat) : Nat → List Token → Text
  | _, [] => []
  | skip + 1, _ :: ts => weaveTokens m dent skip ts
  | 0, t :: ts =>
    match Marker.match? (t :: ts) with
    | some (k, span) => m.expansion dent k ++ weaveTokens m dent (span - 1) ts
    | none => t.text ++ weaveTokens m dent 0 ts

/-- Weave one line, given with its ending. -/
def weaveLine (m : Metric) (line : Text) : Text :=
  m.weaveTokens (leadingBlanks line).length 0 (tokenize line)

/-- Weave lines, given with their endings. -/
def weaveLines (m : Metric) (ls : List Text) : Text :=
  ls.flatMap m.weaveLine

/-- Weave a text. -/
def weaveText (m : Metric) (s : Text) : Text :=
  m.weaveLines (pieces s)

end Metric

/-- Whether a line of a template has the sign that closes a comment. -/
def closesHeader (line : Text) : Bool :=
  hasPart Marker.closeSign line

/-- The lines of a template after its header, with their endings; `none` if no line ends a
header. -/
def templateBody? (template : Text) : Option (List Text) :=
  match (pieces template).dropWhile fun l ↦ !closesHeader l with
  | [] => none
  | _ :: ls => some ls

end RankMetric
