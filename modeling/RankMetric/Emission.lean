import RankMetric.Substitution
import RankMetric.Text.Indentation

/-!
# Writing quantities and statements

The used quantities of a routine are declared in the order of their lines, built-ins first, and
after all declarations comes the code that gives values to those which no initializer can. A
quantity with a macro needs no declaration, and a built-in needs one only if it is given a value.

Statements are written one level at a time and indented anew: a line that closes a block is indented
four less than the lines before it, and the lines after one that opens a block four more.
-/

namespace RankMetric

open Text

/-- Whether a used quantity is declared in the generated text. -/
def Quantity.isRendered (q : Quantity) : Bool :=
  q.macroText.isNone && (!q.isBuiltin || q.initializer.isSome || q.fallbackInit.isSome)

/-- The line that declares a quantity. No space follows a type that ends with a star. -/
def renderDeclaration (dent : Nat) (m : Substitution) (type : Text) (name : Name)
    (initializer : Option Text) : Text :=
  let gap := if type.getLast? = some '*' then [] else [' ']
  let value :=
    match initializer with
    | some s => ' ' :: m.apply s
    | none => []
  spaces dent ++ type ++ gap ++ name ++ value ++ [';']

/-- The line that declares a quantity. -/
def Quantity.render (dent : Nat) (m : Substitution) (q : Quantity) : Text :=
  renderDeclaration dent m q.type q.name q.initializer

/-- The code that gives a quantity its value, at an indentation. -/
def Quantity.renderFallback? (dent : Nat) (q : Quantity) : Option Text :=
  q.fallbackInit.map fun s ↦ indent dent (dedent s)

/-- The indentation of the lines of a block against the line that opens it. -/
def blockDent : Nat := 4

/-- Statements, the first of them at the indentation `dent`. -/
def renderStatements (m : Substitution) : Nat → List Statement → List Text
  | _, [] => []
  | dent, s :: ss =>
    let dent := if s.shape = .closing then dent - blockDent else dent
    let next := if s.shape = .opening then dent + blockDent else dent
    (spaces dent ++ m.apply s.text) :: renderStatements m next ss

namespace Body

/-- The declarations of the used quantities and then the code that gives them values. -/
def renderQuantities (b : Body) (dent : Nat) (m : Substitution) : Text :=
  let used := b.usedQuantities
  unlines <| (used.filter Quantity.isRendered).map (Quantity.render dent m) ++
    used.filterMap (Quantity.renderFallback? dent)

/-- The statements of one level. -/
def renderLevel (b : Body) (l : Level) (dent : Nat) (m : Substitution) : Text :=
  unlines <| renderStatements m dent (b.statementsAt l)

end Body

end RankMetric
