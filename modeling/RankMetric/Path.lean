import RankMetric.Name

/-!
# Paths

A path is a text whose parts are set apart by slashes. `Path.steps` reads it: a slash at the front
is the root, `..` goes up, empty parts and `.` are nothing, and every other part is an ordinary
name.

`Path.location` folds the steps without a look at any directory: `..` takes away the step before it,
whatever that is. `Path.metricName` is the name of the metric that a path describes.
-/

namespace RankMetric

/-- A step of a path. -/
inductive PathStep where
  | root
  | up
  | name (n : Name)
  deriving DecidableEq, Repr

/-- Where a path leads, with no way up left in it. -/
abbrev Location := List PathStep

namespace Path

/-- The parts of a path between its slashes. -/
def parts : Text → List Text
  | [] => [[]]
  | c :: s =>
    if c = '/' then [] :: parts s
    else
      match parts s with
      | [] => [[c]]
      | p :: ps => (c :: p) :: ps

/-- The step of a part, if it is one. -/
def step? (part : Text) : Option PathStep :=
  if part = [] ∨ part = ['.'] then none
  else if part = ['.', '.'] then some .up
  else some (.name part)

/-- Whether a path begins at the root. -/
def isAbsolute (path : Text) : Bool :=
  path.head? == some '/'

/-- The steps of a path. -/
def steps (path : Text) : List PathStep :=
  (if isAbsolute path then [.root] else []) ++ (parts path).filterMap step?

/-- The name at the end of a path, if it ends with one. -/
def fileName? (path : Text) : Option Name :=
  match (steps path).getLast? with
  | some (.name n) => some n
  | _ => none

/-- The name of the metric that a path describes: its file name up to the first dot, and the whole
path if it has no file name. -/
def metricName (path : Text) : Name :=
  match fileName? path with
  | some n => n.takeWhile (· ≠ '.')
  | none => path

/-! ### Locations -/

/-- Go one step on from a location. -/
def follow (l : Location) : PathStep → Location
  | .up => l.dropLast
  | s => l ++ [s]

/-- The location of a path. -/
def location (path : Text) : Location :=
  (steps path).foldl follow []

/-- The text of a step. -/
def stepText : PathStep → Text
  | .root => []
  | .up => ['.', '.']
  | .name n => n

/-- The text of a location. -/
def locationText : Location → Text
  | [.root] => ['/']
  | l => List.intercalate ['/'] (l.map stepText)

end Path

end RankMetric
