import RankMetric.Text.Blank
import RankMetric.Text.Lines

/-!
# Indentation

`indent` puts spaces in front of every line, blank ones too. `dedent` takes away as many bytes as
the least indented line has blanks at its front; blank lines count for nothing and are left alone.

The indentation is measured in bytes, and blanks differ in width. Where lines are indented by blanks
of different widths, the cut may fall inside a character. `dedent?` is `dedent` where every cut
falls between characters, and `none` elsewhere.
-/

namespace RankMetric.Text

/-- Put `n` spaces in front of every line. -/
def indent (n : Nat) (s : Text) : Text :=
  joinCells <| (cells s).map (spaces n ++ ·)

/-- The width in bytes of the least indentation of a line that is not blank. -/
def sharedIndent (s : Text) : Nat :=
  (((cells s).filter fun l ↦ !isBlankText l).map fun l ↦ byteLength (leadingBlanks l)).min?.getD 0

/-- Take `n` bytes from the front of a line that is not blank. -/
def dedentLine (n : Nat) (l : Text) : Text :=
  if isBlankText l then l else dropBytes n l

/-- Take the shared indentation from every line that is not blank. -/
def dedent (s : Text) : Text :=
  let n := sharedIndent s
  joinCells <| (cells s).map (dedentLine n)

/-- Take the shared indentation from every line that is not blank, if no cut falls inside a
character. -/
def dedent? (s : Text) : Option Text :=
  let n := sharedIndent s
  if (cells s).all fun l ↦ isBlankText l || isBoundary n l then some (dedent s) else none

end RankMetric.Text
