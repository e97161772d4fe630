import RankMetric.Tables
import RankMetric.Text.Token

/-!
# Substitutions

A substitution replaces tokens of a text that are its names, each by a text. Tokens are replaced one
by one, whatever stands around them, so a replacement is never looked into again.

A routine has two substitutions. `Body.macros` puts the macro of a quantity for its name;
`Body.contributions` does the same, but for a quantity that has a contribution takes that. Both put
parentheses around what they insert.
-/

namespace RankMetric

/-- Names with their replacements. -/
abbrev Substitution := NameIndex (Prod.fst : Name × Text → Name)

namespace Substitution

/-- What a token is replaced by: itself if it is no name of the substitution. -/
def replace (m : Substitution) (t : Text) : Text :=
  match m.get? t with
  | some (_, r) => r
  | none => t

/-- Replace the tokens of a text. -/
def apply (m : Substitution) (s : Text) : Text :=
  (runs s).flatMap m.replace

/-- The substitution that puts the picked text of each quantity, in parentheses, for its name. -/
def ofQuantities (pick : Quantity → Option Text) (qs : Quantities) : Substitution :=
  .ofList <| qs.toList.filterMap fun q ↦ (pick q).map fun s ↦ (q.name, '(' :: s ++ [')'])

end Substitution

namespace Body

/-- Macros for names. -/
def macros (b : Body) : Substitution :=
  .ofQuantities Quantity.macroText b.quantities

/-- Contributions for names, and macros where there is no contribution. -/
def contributions (b : Body) : Substitution :=
  .ofQuantities (fun q ↦ q.contribution.or q.macroText) b.quantities

end Body

end RankMetric
