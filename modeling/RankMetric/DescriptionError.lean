import RankMetric.Tables
import RankMetric.Text.Blank

/-!
# What can be wrong with a description

A description error names the file, the line and the text at fault, and has a cause. The wording of
each cause stands in `Cause.message` alone, and `Cause.label` is the word for it in data.
-/

namespace RankMetric

/-- What is wrong with a line of a description. -/
inductive Cause where
  | duplicateDeclaration (name : Name)
  | missingTerminator
  | unparsableDeclaration
  | unterminatedComment
  | unexpectedLine
  | unexpectedEnd (routine : Name)
  | accumulatorRead (name : Name)
  | constAssignment (name : Name)
  deriving DecidableEq, Repr

namespace Cause

/-- The wording of a cause. -/
def message : Cause → Text
  | duplicateDeclaration n => "duplicate declaration of '".toList ++ n ++ "'".toList
  | missingTerminator => "declaration without semi-colon ending".toList
  | unparsableDeclaration => "error parsing declaration".toList
  | unterminatedComment => "multiline comment in declaration".toList
  | unexpectedLine => "unexpected line".toList
  | unexpectedEnd r => "unexpected EOF in ".toList ++ r
  | accumulatorRead n => "accumulator '".toList ++ n ++ "' used as rvalue".toList
  | constAssignment n => "assigning to const quantity '".toList ++ n ++ "'".toList

/-- The word for a cause in data. -/
def label : Cause → Text
  | duplicateDeclaration _ => "duplicate_declaration".toList
  | missingTerminator => "missing_terminator".toList
  | unparsableDeclaration => "unparsable_declaration".toList
  | unterminatedComment => "unterminated_comment".toList
  | unexpectedLine => "unexpected_line".toList
  | unexpectedEnd _ => "unexpected_eof".toList
  | accumulatorRead _ => "accumulator_read".toList
  | constAssignment _ => "const_assignment".toList

end Cause

/-- A fatal error in a description. -/
structure DescriptionError where
  file : Text
  line : Nat
  cause : Cause
  /-- The text at fault, without blanks at its end. -/
  text : Text
  deriving DecidableEq, Repr

namespace DescriptionError

/-- The error at a given place, for a text that may have blanks at its end. -/
def located (file : Text) (line : Nat) (cause : Cause) (text : Text) : DescriptionError :=
  ⟨file, line, cause, Text.trimEnd text⟩

/-- The wording of an error. -/
def message (e : DescriptionError) : Text :=
  e.file ++ [':'] ++ Text.ofNat e.line ++ ": ".toList ++ e.cause.message ++ ": '".toList ++
    e.text ++ "'".toList

end DescriptionError

/-- A failure together with the tables reached when it happened. -/
structure Halted where
  error : DescriptionError
  tables : Tables
  deriving DecidableEq

end RankMetric
