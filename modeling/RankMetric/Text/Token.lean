import RankMetric.Text.Blank

/-!
# Tokens

A line is cut into maximal runs of characters of one class: blanks, operator symbols, or word
characters, which are all the others. The terminator `;` is a token of its own wherever it stands.
Nothing is known of string literals or escapes.

`tokenize` is `List.splitBy` on the relation `joins`, so the texts of the tokens join to the line
(`tokenize_texts`), with the byte offsets put on by `place`. `significant` leaves the blanks out and
keeps the offsets.
-/

namespace RankMetric

/-- The classes of characters, and of the tokens made of them. -/
inductive TokenClass where
  | space
  | operator
  | terminator
  | word
  deriving DecidableEq, Repr

/-- A run of characters of one class, with the byte offset of its first character in the line. -/
structure Token where
  text : Text
  offset : Nat
  cls : TokenClass
  deriving DecidableEq, Repr

/-- The symbols that operators are made of. -/
def isOperatorChar : Char → Bool
  | '-' | '+' | ',' | '=' | '(' | ')' | '?' | ':' | '*' | '/' | '~' | '!' | '^' | '|' | '&' | '['
  | ']' | '{' | '}' | '%' | '<' | '>' => true
  | _ => false

namespace TokenClass

/-- The class of a character. -/
def ofChar (c : Char) : TokenClass :=
  if Text.isBlank c then .space
  else if isOperatorChar c then .operator
  else if c = ';' then .terminator
  else .word

/-- Whether two neighbouring characters belong to one token. -/
def joins (c d : Char) : Bool :=
  ofChar c == ofChar d && ofChar c != .terminator

/-- The class of a run of characters, read off its first one. -/
def ofRun : Text → TokenClass
  | [] => .space
  | c :: _ => ofChar c

end TokenClass

namespace Token

/-- Whether the token is the terminator `;`. -/
def isTerminator (t : Token) : Bool :=
  t.cls == .terminator

/-- Whether the token is a run of blanks. -/
def isSpace (t : Token) : Bool :=
  t.cls == .space

/-- Whether the token is a run of word characters. -/
def isWord (t : Token) : Bool :=
  t.cls == .word

/-- The byte offset just after the token. -/
def stop (t : Token) : Nat :=
  t.offset + Text.byteLength t.text

end Token

/-! ### Cutting a line -/

/-- The tokens of runs that stand one after the other from the byte offset `offset` on. -/
def place (offset : Nat) : List Text → List Token
  | [] => []
  | r :: rs => ⟨r, offset, .ofRun r⟩ :: place (offset + Text.byteLength r) rs

@[simp] theorem map_text_place (offset : Nat) (rs : List Text) :
    (place offset rs).map Token.text = rs := by
  induction rs generalizing offset with
  | nil => rfl
  | cons r rs ih => simp [place, ih]

/-- The maximal runs of one class. -/
def runs (line : Text) : List Text :=
  line.splitBy TokenClass.joins

/-- The tokens of a line. -/
def tokenize (line : Text) : List Token :=
  place 0 (runs line)

theorem tokenize_texts (line : Text) : (tokenize line).map Token.text = runs line :=
  map_text_place 0 (runs line)

/-- The tokens of a line that are not blank. -/
def significant (line : Text) : List Token :=
  (tokenize line).filter fun t ↦ !t.isSpace

/-! ### Words with a meaning -/

/-- The operators that make a statement an assignment to its first token. -/
def assignmentOperators : List Text :=
  ["=", "+=", "-=", "/=", "*=", "&=", "|=", "^="].map String.toList

/-- The words and stars that the type part of a declaration is made of. -/
def typeWords : List Text :=
  ["float", "double", "long", "unsigned", "signed", "const", "volatile", "int", "short", "char",
    "register", "void", "union", "struct", "*", "**", "***", "****"].map String.toList

/-- Whether a text is one of the type words. -/
def isTypeWord (s : Text) : Bool :=
  typeWords.contains s

/-- The type words that are followed by a tag, whatever token it is. -/
def takesTag (s : Text) : Bool :=
  s == "struct".toList || s == "union".toList

end RankMetric
