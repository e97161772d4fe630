import Mathlib.Order.Bounds.Basic
import RankMetric.Proofs.Provision

/-!
# The closure of what is used

What the contribution of a used quantity reads counts as used, and what the contributions of these
quantities read counts as used in turn. A loop brings that about (`Body.Closes`): it records what is
pending and looks again, until nothing is pending. Nothing in the loop says that it ends.
Contributions may read each other in chains and in circles, and they may read what is not declared.

* `Body.exists_closes`: the loop ends. A round records one of the names that contributions read and
  that had not been recorded (`Body.length_missing_lt`), so there are no more rounds than those
  names. That is why `Body.closeUsed` may count its rounds.
* `Body.Closes.isLeast`: where the loop ends, the used names are the least set that has the names
  used before and is closed. This follows the loop round by round, and the number of rounds plays no
  part in it.
* `Tables.closeContributions_isLeast`: both for the two routines of any tables, neither of which
  looks at the other.
-/

namespace RankMetric

namespace Body

variable {r : Routine} {b b' : Body} {k : Nat} {n : Name} {q : Quantity}

/-! ### Closed sets of names -/

/-- The names that a body uses. -/
def usedNames (b : Body) : Set Name :=
  {n | b.used.contains n = true}

/-- Whether a set of names has all that is read by the contributions of its names. Those names count
that are declared and whose contribution has its home in the routine. -/
def ClosedUnder (r : Routine) (qs : Quantities) (u : Set Name) : Prop :=
  ∀ n ∈ u, ∀ q, qs.get? n = some q → q.contributionHome = some r → ∀ k ∈ q.contributionReads, k ∈ u

/-! ### The loop -/

/-- The names that contributions of used quantities bring in and that are not used yet. -/
def pending (r : Routine) (b : Body) : List Name :=
  (b.usedQuantities.flatMap (broughtIn r)).filter fun n ↦ !b.used.contains n

/-- **The loop** leads from a body to another in `k` rounds. A round records all that is pending,
and the loop stops as soon as nothing is. -/
inductive Closes (r : Routine) : Nat → Body → Body → Prop
  | stop {b : Body} (none : b.pending r = []) : Closes r 0 b b
  | round {b b' : Body} {k : Nat} (some : b.pending r ≠ [])
      (rest : Closes r k (b.useAll (b.pending r)) b') : Closes r (k + 1) b b'

theorem mem_broughtIn_iff :
    n ∈ broughtIn r q ↔ q.contributionHome = some r ∧ n ∈ q.contributionReads := by
  unfold broughtIn
  split <;> simp [*]

theorem mem_pending_iff : n ∈ b.pending r ↔ b.used.contains n = false ∧
    ∃ q, b.quantities.get? q.name = some q ∧ b.used.contains q.name = true ∧
      n ∈ broughtIn r q := by
  simp only [pending, List.mem_filter, List.mem_flatMap, mem_usedQuantities_iff, and_assoc,
    Bool.not_eq_true', and_comm (b := b.used.contains n = false)]

theorem mem_usedNames_useAll (ns : List Name) :
    n ∈ (b.useAll ns).usedNames ↔ n ∈ ns ∨ n ∈ b.usedNames := by
  show (b.used.insertAll ns).contains n = true ↔ _
  rw [NameSet.contains_insertAll, Bool.or_eq_true, List.contains_iff_mem]
  rfl

/-- A set is closed with the names that a body uses only if it has what is pending. -/
theorem ClosedUnder.pending_subset {u : Set Name} (h : ClosedUnder r b.quantities u)
    (hused : b.usedNames ⊆ u) : ∀ n ∈ b.pending r, n ∈ u := by
  intro n hn
  obtain ⟨-, q, hq, hqused, hread⟩ := mem_pending_iff.1 hn
  obtain ⟨hhome, hread⟩ := mem_broughtIn_iff.1 hread
  exact h q.name (hused hqused) q hq hhome n hread

/-- **The used names are closed if and only if nothing is pending.** -/
theorem closedUnder_iff : ClosedUnder r b.quantities b.usedNames ↔ b.pending r = [] := by
  refine ⟨fun h ↦ List.eq_nil_iff_forall_not_mem.2 fun n hn ↦ ?_, fun h n hn q hq hhome k hk ↦ ?_⟩
  · have hused : b.used.contains n = true := h.pending_subset subset_rfl n hn
    rw [(mem_pending_iff.1 hn).1] at hused
    cases hused
  · obtain rfl := NameIndex.name_of_get? hq
    by_contra hunused
    have hpending : k ∈ b.pending r := mem_pending_iff.2
      ⟨Bool.eq_false_iff.2 hunused, q, hq, hn, mem_broughtIn_iff.2 ⟨hhome, hk⟩⟩
    rw [h] at hpending
    cases hpending

/-- **Where the loop ends, the used names are the least closed set** that has those used before. -/
theorem Closes.isLeast (h : b.Closes r k b') :
    IsLeast {u | b.usedNames ⊆ u ∧ ClosedUnder r b.quantities u} b'.usedNames := by
  induction h with
  | stop none => exact ⟨⟨subset_rfl, closedUnder_iff.2 none⟩, fun u hu ↦ hu.1⟩
  | @round b b' k some rest ih =>
    -- a closed set has what is pending already, so a round does not change which sets count
    have hsame : {u | (b.useAll (b.pending r)).usedNames ⊆ u ∧ ClosedUnder r b.quantities u} =
        {u | b.usedNames ⊆ u ∧ ClosedUnder r b.quantities u} := by
      refine Set.ext fun u ↦ and_congr_left fun hclosed ↦ ⟨fun h n hn ↦ ?_, fun h n hn ↦ ?_⟩
      · exact h ((mem_usedNames_useAll _).2 (.inr hn))
      · rcases (mem_usedNames_useAll _).1 hn with hn | hn
        · exact hclosed.pending_subset h n hn
        · exact h hn
    rw [← hsame]
    exact ih

/-! ### The end of the loop -/

/-- The names that contributions read and that are not used yet. -/
def missing (r : Routine) (b : Body) : List Name :=
  (contributionNames r b.quantities).filter fun n ↦ !b.used.contains n

/-- **A round records a name that was missing.** -/
theorem length_missing_lt (h : b.pending r ≠ []) :
    ((b.useAll (b.pending r)).missing r).length < (b.missing r).length := by
  have hmissing : (b.useAll (b.pending r)).missing r =
      (b.missing r).filter fun n ↦ !(b.pending r).contains n := by
    rw [missing, missing, List.filter_filter]
    refine List.filter_congr fun n _ ↦ ?_
    show (!(b.used.insertAll (b.pending r)).contains n) = _
    rw [NameSet.contains_insertAll, Bool.not_or]
  obtain ⟨n, hn⟩ := List.exists_mem_of_ne_nil _ h
  obtain ⟨hunused, q, hq, -, hread⟩ := mem_pending_iff.1 hn
  rw [hmissing, List.length_filter_lt_length_iff_exists]
  refine ⟨n, List.mem_filter.2 ⟨?_, by simpa using hunused⟩, by simpa using hn⟩
  exact List.mem_flatMap.2 ⟨q, NameIndex.mem_of_get? hq, hread⟩

theorem mem_broughtInBy_iff : n ∈ broughtInBy r b.quantities b.used ↔
    ∃ q ∈ b.usedQuantities, n ∈ broughtIn r q := by
  rw [broughtInBy, List.mem_flatMap]
  exact exists_congr fun q ↦ and_congr_left fun _ ↦ Quantity.mem_sortByLine.symm

/-- It makes no difference whether a round records what it brings in or only what is pending. -/
theorem insertAll_broughtInBy :
    b.used.insertAll (broughtInBy r b.quantities b.used) = b.used.insertAll (b.pending r) := by
  refine NameSet.ext_contains fun n ↦ ?_
  rw [NameSet.contains_insertAll, NameSet.contains_insertAll]
  cases hused : b.used.contains n with
  | true => rw [Bool.or_true, Bool.or_true]
  | false =>
    rw [Bool.or_false, Bool.or_false, Bool.eq_iff_iff, List.contains_iff_mem, List.contains_iff_mem,
      mem_broughtInBy_iff, pending, List.mem_filter, List.mem_flatMap, hused]
    simp

theorem closeRounds_of_pending_eq_nil (h : b.pending r = []) (m : Nat) :
    closeRounds r b.quantities m b.used = b.used := by
  induction m with
  | zero => rfl
  | succ m ih =>
    rw [closeRounds, insertAll_broughtInBy, h]
    exact ih

/-- **The loop ends**, with as many rounds as names are missing at most. Going round more often than
that comes to the same. -/
theorem exists_closes {m : Nat} (hm : (b.missing r).length ≤ m) :
    ∃ k ≤ (b.missing r).length,
      b.Closes r k { b with used := closeRounds r b.quantities m b.used } := by
  induction m generalizing b with
  | zero =>
    have hnone : b.pending r = [] := by
      by_contra h
      have := length_missing_lt h
      omega
    exact ⟨0, Nat.zero_le _, .stop hnone⟩
  | succ m ih =>
    by_cases h : b.pending r = []
    · rw [closeRounds_of_pending_eq_nil h]
      exact ⟨0, Nat.zero_le _, .stop h⟩
    · have hless := length_missing_lt h
      obtain ⟨k, hk, hrest⟩ := ih (b := b.useAll (b.pending r)) (by omega)
      refine ⟨k + 1, by omega, .round h ?_⟩
      rw [closeRounds, insertAll_broughtInBy]
      exact hrest

/-- `Body.closeUsed` is the loop. -/
theorem exists_closes_closeUsed (r : Routine) (b : Body) :
    ∃ k ≤ (b.missing r).length, b.Closes r k (b.closeUsed r) :=
  exists_closes (List.length_filter_le _ _)

/-- Where the loop has ended it stops at once. -/
theorem closeUsed_closeUsed (r : Routine) (b : Body) :
    (b.closeUsed r).closeUsed r = b.closeUsed r := by
  obtain ⟨k, -, hcloses⟩ := exists_closes_closeUsed r b
  have hclosed : ClosedUnder r (b.closeUsed r).quantities (b.closeUsed r).usedNames :=
    hcloses.isLeast.1.2
  rw [closeUsed, closeRounds_of_pending_eq_nil (closedUnder_iff.1 hclosed)]

end Body

/-! ### Both routines -/

namespace Tables

variable (t : Tables)

theorem body_closeContributions (r : Routine) :
    t.closeContributions.body r = (t.body r).closeUsed r := by
  cases r <;> rfl

/-- **Closing ends, and the used sets are the least closed ones.** In each routine the loop stops
after no more rounds than there are names that contributions read and that are not used yet. Then
the used names are the least set that has those used before and what the contributions of its names
read. Nothing else changes, a routine comes to the same whatever the other tables are, and closing
once more changes nothing. -/
theorem closeContributions_isLeast :
    t.closeContributions.params = t.params ∧
    (∀ r,
      (∃ k ≤ ((t.body r).missing r).length,
        (t.body r).Closes r k (t.closeContributions.body r)) ∧
      IsLeast {u | (t.body r).usedNames ⊆ u ∧ Body.ClosedUnder r (t.body r).quantities u}
        (t.closeContributions.body r).usedNames ∧
      (t.closeContributions.body r).quantities = (t.body r).quantities ∧
      (t.closeContributions.body r).statements = (t.body r).statements ∧
      ∀ u : Tables,
        (u.setBody r (t.body r)).closeContributions.body r = t.closeContributions.body r) ∧
    t.closeContributions.closeContributions = t.closeContributions := by
  refine ⟨rfl, fun r ↦ ?_, ?_⟩
  · obtain ⟨k, hk, hcloses⟩ := Body.exists_closes_closeUsed r (t.body r)
    rw [body_closeContributions]
    refine ⟨⟨k, hk, hcloses⟩, hcloses.isLeast, rfl, rfl, fun u ↦ ?_⟩
    rw [body_closeContributions, body_setBody_self]
  · exact congrArg₂ (fun d p ↦ (⟨t.params, d, p⟩ : Tables)) (t.decode.closeUsed_closeUsed .decode)
      (t.post.closeUsed_closeUsed .post)

end Tables

end RankMetric
