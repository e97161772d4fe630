import RankMetric.Text.Token

/-!
# Markers

A marker is a comment in a template that names a place for generated code: an identifier between
`/*` and `*/`, with or without blanks around it. The comment signs have to be tokens of their own,
so an operator symbol that touches one from outside makes the comment an ordinary one.
-/

namespace RankMetric

open Text

/-- The places for generated code. -/
inductive Marker where
  /-- The name of the metric. -/
  | name
  /-- The number of statements of `post`. -/
  | dependsPost
  /-- The set-up texts. -/
  | pre
  /-- The quantities of `post` and its statements of level 1. -/
  | post
  /-- The statements of `post` of level 2. -/
  | postPerDoc
  /-- The quantities of `decode`. -/
  | decl
  /-- The statements of `decode` of level 1. -/
  | perCall
  /-- The statements of `decode` of levels 2 and 3. -/
  | perDoc
  /-- The same statements with contributions instead of macros. -/
  | contrib
  deriving DecidableEq, Repr

namespace Marker

/-- All markers. -/
def all : List Marker :=
  [name, dependsPost, pre, post, postPerDoc, decl, perCall, perDoc, contrib]

/-- The identifier of a marker. -/
def ident : Marker → Text
  | name => "METRIC_NAME".toList
  | dependsPost => "METRIC_DEPENDS_POST".toList
  | pre => "METRIC_PRE".toList
  | post => "METRIC_POST".toList
  | postPerDoc => "METRIC_POST_PER_DOC".toList
  | decl => "METRIC_DECL".toList
  | perCall => "METRIC_PER_CALL".toList
  | perDoc => "METRIC_PER_DOC".toList
  | contrib => "METRIC_CONTRIB".toList

/-- The marker with a given identifier. -/
def ofIdent? (s : Text) : Option Marker :=
  all.find? fun m ↦ m.ident == s

/-- The comment that stands for a marker in the generated text. -/
def text (m : Marker) : Text :=
  "/* ".toList ++ m.ident ++ " */".toList

/-- Whether the marker is filled in within its line. The others end the line and are followed by
whole lines. -/
def isInline : Marker → Bool
  | name | dependsPost => true
  | _ => false

/-- The sign that opens a comment. -/
def openSign : Text := ['/', '*']

/-- The sign that closes a comment. -/
def closeSign : Text := ['*', '/']

/-- The marker at the front of some tokens, with the number of its tokens. -/
def match? (ts : List Token) : Option (Marker × Nat) :=
  match ts with
  | [] => none
  | first :: ts =>
    if first.text = openSign then
      let gap := (ts.takeWhile Token.isSpace).length
      match ts.drop gap with
      | [] => none
      | ident :: ts =>
        match ofIdent? ident.text with
        | none => none
        | some m =>
          let gap' := (ts.takeWhile Token.isSpace).length
          match ts.drop gap' with
          | [] => none
          | last :: _ =>
            if last.text = closeSign then some (m, gap + gap' + 3) else none
    else none

end Marker

end RankMetric
