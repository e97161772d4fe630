import RankMetric.DescriptionError
import RankMetric.Text.Search
import RankMetric.Text.Token

/-!
# Declaration lines

A declaration line is a run of type words, a name, an initializer and a terminator, with an optional
comment. `DeclarationLine.read` takes a line apart without regard to what has been declared.

A comment is what follows the first `#`, or what a block comment encloses; neither mark counts in
the first column. The block comment is looked for in what the `#` leaves, so its text wins over the
other.
-/

namespace RankMetric

open Text

/-- The parts of a declaration line. -/
structure DeclarationLine where
  /-- The type words, separated by single spaces. -/
  type : Text
  name : Name
  /-- Whether the last token of the line is a terminator. -/
  isTerminated : Bool
  /-- The word tokens between the name and the last token. -/
  mentions : List Name
  /-- The text between the name and the first terminator, if it is not blank. -/
  initializer : Option Text
  comment : Text
  deriving DecidableEq, Repr

namespace DeclarationLine

/-- The code and the comment of a line: `none` if a block comment is left open. -/
def splitComment (raw : Text) : Option (Text × Text) :=
  let (code, remark) :=
    match breakOn ['#'] raw with
    | some (c :: before, after) => (c :: before, after)
    | _ => (raw, [])
  match breakOn ['/', '*'] code with
  | some (c :: before, after) =>
    (breakOn ['*', '/'] after).map fun (inside, rest) ↦ (c :: before ++ rest, trim inside)
  | _ => some (code, trim remark)

/-- The type words at the front of the tokens, and the tokens after them. A word that takes a tag is
followed by the tag, whatever token it is. -/
def readType : List Token → List Text × List Token
  | [] => ([], [])
  | t :: ts =>
    if isTypeWord t.text then
      match takesTag t.text, ts with
      | true, tag :: ts =>
        let (words, rest) := readType ts
        (t.text :: tag.text :: words, rest)
      | _, ts =>
        let (words, rest) := readType ts
        (t.text :: words, rest)
    else ([], t :: ts)

/-- The parts of a line, or what is wrong with it. -/
def read (raw : Text) : Except Cause DeclarationLine :=
  match splitComment raw with
  | none => .error .unterminatedComment
  | some (code, comment) =>
    let code := trimEnd code
    match readType (significant code) with
    | (_, []) => .error .unparsableDeclaration
    | (words, name :: rest) =>
      if name.isTerminator then .error .unparsableDeclaration
      else
        .ok {
          type := List.intercalate [' '] words
          name := name.text
          isTerminated := rest.getLast?.any Token.isTerminator
          mentions := (rest.dropLast.filter Token.isWord).map Token.text
          initializer := nonempty? (trim ((dropBytes name.stop code).takeWhile (· ≠ ';')))
          comment := comment }

end DeclarationLine

end RankMetric
