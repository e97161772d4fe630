import RankMetric.Text.Basic

/-!
# Searching a text

`breakOn` cuts a text at the first place where a pattern stands. `breakOn_eq_some` says that the
parts and the pattern make up the text again.
-/

namespace RankMetric.Text

/-- The text before and after the first place where `p` stands, if there is one. -/
def breakOn (p : Text) : Text → Option (Text × Text)
  | [] => if p.isEmpty then some ([], []) else none
  | c :: s =>
    if p.isPrefixOf (c :: s) then some ([], (c :: s).drop p.length)
    else (breakOn p s).map fun (before, after) ↦ (c :: before, after)

/-- Whether `p` stands somewhere in a text. -/
def hasPart (p s : Text) : Bool :=
  (breakOn p s).isSome

/-- A text that was cut is the part before, the pattern and the part after. -/
theorem breakOn_eq_some {p s a b : Text} (h : breakOn p s = some (a, b)) : s = a ++ p ++ b := by
  induction s generalizing a with
  | nil =>
    rw [breakOn] at h
    split at h
    · next hp => simp_all
    · simp at h
  | cons c s ih =>
    rw [breakOn] at h
    split at h
    · next hp =>
      obtain ⟨t, ht⟩ := List.isPrefixOf_iff_prefix.1 hp
      simp only [Option.some.injEq, Prod.mk.injEq] at h
      obtain ⟨rfl, rfl⟩ := h
      simp [← ht]
    · obtain ⟨⟨a', b'⟩, hab, heq⟩ := Option.map_eq_some_iff.1 h
      simp only [Prod.mk.injEq] at heq
      obtain ⟨rfl, rfl⟩ := heq
      simp [ih hab]

end RankMetric.Text
