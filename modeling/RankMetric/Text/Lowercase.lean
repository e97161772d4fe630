import RankMetric.Text.Basic
import RankMetric.Text.CaseTable

/-!
# Small letters

`lowercase` writes a text in small letters by the full mapping of Unicode. Two letters need more
than a look into the table: the dotted capital I becomes two characters, and a capital sigma becomes
the final form `ς` at the end of a word and `σ` elsewhere. A sigma ends a word if the nearest
character before it that is not looked through is a letter with case, and the nearest such character
after it is none (`endsWord`).
-/

namespace RankMetric.Text

/-- Whether a code point lies in one of the runs. -/
def inRanges (ranges : List (Nat × Nat)) (c : Char) : Bool :=
  ranges.any fun (first, last) ↦ first ≤ c.toNat && c.toNat ≤ last

/-- The small letter of a character, or the character itself if it has none of its own. -/
def smallLetter (c : Char) : Char :=
  let run := lowercaseRanges.find? fun (first, last, step, _) ↦
    first ≤ c.toNat && c.toNat ≤ last && (c.toNat - first) % step == 0
  match run with
  | some (first, _, _, target) => Char.ofNat (target + (c.toNat - first))
  | none => c

/-- Whether a text, read outwards from a sigma, has a letter with case as its first character that
is not looked through. -/
def meetsLetter (s : Text) : Bool :=
  match s.dropWhile (inRanges transparentRanges) with
  | [] => false
  | c :: _ => inRanges casedRanges c

/-- Whether a sigma ends a word, from the text before it (last character first) and after it. -/
def endsWord (before after : Text) : Bool :=
  meetsLetter before && !meetsLetter after

/-- The rest of a text in small letters, after the part `before` (last character first). -/
def lowercaseFrom (before : Text) : Text → Text
  | [] => []
  | c :: s =>
    let small :=
      if c = 'Σ' then [if endsWord before s then 'ς' else 'σ']
      else if c = 'İ' then ['i', '\u0307']
      else [smallLetter c]
    small ++ lowercaseFrom (c :: before) s

/-- A text in small letters. -/
def lowercase (s : Text) : Text :=
  lowercaseFrom [] s

end RankMetric.Text
