import RankMetric.Text.Basic

/-!
# JSON

JSON values with ordered fields, and their text: two spaces of indentation a level, one item or
field to a line, and nothing between the signs of an empty array or object. In strings a quote, a
backslash and the control characters are escaped, and all else stands as it is.
-/

namespace RankMetric

/-- A JSON value. The fields of an object keep their order. -/
inductive Json where
  | text (s : Text)
  | number (n : Int)
  | array (items : List Json)
  | object (fields : List (Text × Json))

namespace Json

/-! ### Strings -/

/-- The digit of a number below sixteen. -/
def hexDigit (n : Nat) : Char :=
  "0123456789abcdef".toList.getD n '0'

/-- A character as it stands in a string. -/
def escapeChar (c : Char) : Text :=
  match c with
  | '"' => ['\\', '"']
  | '\\' => ['\\', '\\']
  | '\n' => ['\\', 'n']
  | '\r' => ['\\', 'r']
  | '\t' => ['\\', 't']
  | '\x08' => ['\\', 'b']
  | '\x0c' => ['\\', 'f']
  | c =>
    if c.toNat < 0x20 then "\\u00".toList ++ [hexDigit (c.toNat / 16), hexDigit (c.toNat % 16)]
    else [c]

/-- A text as a string with its quotes. -/
def quote (s : Text) : Text :=
  '"' :: s.flatMap escapeChar ++ ['"']

/-! ### Values -/

/-- Items on lines of their own between two signs, indented by one level more than `dent`. -/
def enclose (opening closing : Char) (dent : Nat) : List Text → Text
  | [] => [opening, closing]
  | items =>
    opening :: '\n' ::
      List.intercalate [',', '\n'] (items.map (Text.spaces (dent + 2) ++ ·)) ++
        '\n' :: Text.spaces dent ++ [closing]

mutual

/-- The text of a value whose first line stands at the indentation `dent`. -/
def pretty (dent : Nat) : Json → Text
  | text s => quote s
  | number n => Text.ofInt n
  | array items => enclose '[' ']' dent (prettyItems (dent + 2) items)
  | object fields => enclose '{' '}' dent (prettyFields (dent + 2) fields)

/-- The texts of the items of an array. -/
def prettyItems (dent : Nat) : List Json → List Text
  | [] => []
  | v :: vs => pretty dent v :: prettyItems dent vs

/-- The texts of the fields of an object. -/
def prettyFields (dent : Nat) : List (Text × Json) → List Text
  | [] => []
  | (k, v) :: kvs => (quote k ++ ": ".toList ++ pretty dent v) :: prettyFields dent kvs

end

/-- The text of a value. -/
def render (v : Json) : Text :=
  v.pretty 0

/-! ### Building objects -/

/-- A field with a string. -/
def field (key : String) (value : Text) : Text × Json :=
  (key.toList, text value)

/-- The field for a text, left out if there is none. -/
def optional (key : String) (value : Option Text) : List (Text × Json) :=
  (value.map (field key)).toList

/-- An array of strings. -/
def texts (ss : List Text) : Json :=
  array (ss.map text)

end Json

end RankMetric
