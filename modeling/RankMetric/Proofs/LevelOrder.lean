import Mathlib.Order.MinMax
import RankMetric.Level

/-!
# Levels as a linear order

The order of levels is the order of their numbers, so it is linear, and the `max` of the levels is
its maximum. With the instance every fact on two levels comes from the library; what is left to say
here is about `Level.join`, the greatest of a list.

* `join_le_iff` is the universal property: a join is the least level above all levels of the list.
  It rests on `constant_le`, since `constant` is the join of no levels.
* `le_join` and `join_append` follow from it. The second is what lets a join be taken in parts,
  first over what has been read and then over what is read next.
* `le_join_iff` and `join_lt_iff` compare with a join from the other side. The second needs that a
  join of at least one level is one of them (`join_mem`).
-/

namespace RankMetric.Level

instance : LinearOrder Level where
  le_refl a := Nat.le_refl a.toNat
  le_trans a b c := Nat.le_trans (n := a.toNat) (m := b.toNat) (k := c.toNat)
  lt_iff_le_not_ge a b := Nat.lt_iff_le_and_not_ge (m := a.toNat) (n := b.toNat)
  le_antisymm a b hab hba := toNat_inj.1 (Nat.le_antisymm hab hba)
  le_total a b := Nat.le_total a.toNat b.toNat
  toDecidableLE := inferInstance
  toDecidableEq := inferInstance
  max_def _ _ := rfl

/-! ### Joins -/

/-- **The universal property**: the join is the least level above all levels of a list. -/
theorem join_le_iff {ls : List Level} {a : Level} : join ls ≤ a ↔ ∀ l ∈ ls, l ≤ a := by
  induction ls with
  | nil => simp [constant_le]
  | cons l ls ih => rw [join_cons, max_le_iff, ih, List.forall_mem_cons]

theorem le_join {ls : List Level} {l : Level} (h : l ∈ ls) : l ≤ join ls :=
  join_le_iff.1 le_rfl l h

/-- A join can be taken in parts. -/
theorem join_append (ls ms : List Level) : join (ls ++ ms) = max (join ls) (join ms) := by
  induction ls with
  | nil => exact (max_eq_right (constant_le _)).symm
  | cons l ls ih => rw [List.cons_append, join_cons, ih, join_cons, max_assoc]

/-- What is below a join is below one of the levels, unless it is below all levels anyway. -/
theorem le_join_iff {ls : List Level} {a : Level} :
    a ≤ join ls ↔ a = constant ∨ ∃ l ∈ ls, a ≤ l := by
  induction ls with
  | nil => simpa using (constant_le a).ge_iff_eq'
  | cons l ls ih => simp [ih, or_left_comm]

/-- A join of at least one level is one of them. -/
theorem join_mem {ls : List Level} (hls : ls ≠ []) : join ls ∈ ls := by
  induction ls with
  | nil => exact absurd rfl hls
  | cons l ls ih =>
    rw [join_cons]
    by_cases hnil : ls = []
    · rw [hnil, join_nil, max_eq_left (constant_le l)]
      exact List.mem_cons_self
    · rcases max_choice l (join ls) with hmax | hmax
      · rw [hmax]
        exact List.mem_cons_self
      · rw [hmax]
        exact List.mem_cons_of_mem _ (ih hnil)

/-- A join of at least one level is below what is above all of them. -/
theorem join_lt_iff {ls : List Level} {a : Level} (hls : ls ≠ []) :
    join ls < a ↔ ∀ l ∈ ls, l < a :=
  ⟨fun h _ hl ↦ (le_join hl).trans_lt h, fun h ↦ h _ (join_mem hls)⟩

end RankMetric.Level
