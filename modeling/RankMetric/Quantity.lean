import RankMetric.Level
import RankMetric.Name

/-!
# Routines and quantities

A description defines two routines: `decode`, which runs for every term of a document, and `post`,
which runs once a document is scored. A *quantity* is a declared name with its C type, its initial
value and the loop level at which it can change. Quantities that come with the search engine, the
*built-ins*, carry the line `builtinLine` and further texts that tell how their value is obtained.

A level only ever rises: `raise` joins it with another, and `raise_level` reads that off.
-/

namespace RankMetric

/-- The routines that a description defines. -/
inductive Routine where
  | decode
  | post
  deriving DecidableEq, Repr

/-- The name of a routine, as it stands in descriptions and in the generated text. -/
def Routine.name : Routine → Name
  | decode => "decode".toList
  | post => "post".toList

/-- The line that built-ins carry, since they stand in no description. -/
def builtinLine : Int := -1

/-- Texts that tell how the value of a quantity is obtained. An empty text stands for none. -/
structure Attributes where
  /-- The expression that takes the place of the name wherever the quantity is mentioned. -/
  macroText : Text := []
  /-- Code that gives the quantity its value where an initializer cannot. -/
  fallbackInit : Text := []
  /-- Code that has to run once before the quantity is first read. -/
  prerequisite : Text := []
  /-- The average that stands in for the quantity where no document is at hand. -/
  contribution : Text := []
  /-- What the quantity is. -/
  doc : Text := []
  deriving DecidableEq, Repr

/-- One declared quantity. -/
structure Quantity where
  name : Name
  /-- The C type, its words separated by single spaces. -/
  type : Text
  /-- What stands between the name and the first terminator, such as `= 1.2`. -/
  initializer : Option Text
  /-- The line of the declaration, or `builtinLine`. -/
  line : Int
  level : Level
  macroText : Option Text
  fallbackInit : Option Text
  prerequisite : Option Text
  contribution : Option Text
  /-- The quantities that the contribution reads, in the first scope of the declaration. -/
  contributionReads : List Name
  /-- The routine in which the use of the quantity brings in what its contribution reads. -/
  contributionHome : Option Routine
  /-- The comment on the line of the declaration. -/
  comment : Text
  doc : Text
  deriving DecidableEq, Repr

namespace Quantity

/-- Whether the quantity comes with the search engine. -/
def isBuiltin (q : Quantity) : Bool :=
  q.line == builtinLine

/-- Whether the type of the quantity begins with `const`. -/
def isConst (q : Quantity) : Bool :=
  "const".toList.isPrefixOf q.type

/-- Raise the level of a quantity to at least `l`. -/
def raise (l : Level) (q : Quantity) : Quantity :=
  { q with level := max q.level l }

@[simp] theorem raise_level (l : Level) (q : Quantity) : (q.raise l).level = max q.level l := rfl

@[simp] theorem raise_name (l : Level) (q : Quantity) : (q.raise l).name = q.name := rfl

/-! ### Order of declaration -/

/-- Put a quantity in front of the first that stands on the same line or a later one. -/
def insertByLine (q : Quantity) : List Quantity → List Quantity
  | [] => [q]
  | p :: ps => if q.line ≤ p.line then q :: p :: ps else p :: insertByLine q ps

/-- Quantities by line. Those of one line keep their order. -/
def sortByLine (qs : List Quantity) : List Quantity :=
  qs.foldr insertByLine []

end Quantity

/-- The quantities of a scope, in the order of their names. -/
abbrev Quantities := NameIndex Quantity.name

end RankMetric
