import RankMetric.Proofs.Compilation

/-!
# The level of a target

A statement takes the levels of what stands after its operator. The target stands before it, and
counts for nothing, whatever the operator is. So `x += 1` is read at level 1, although it reads `x`
too, and an assignment to a built-in may leave the loop in which the built-in is set up. This module
says exactly when that happens.

What a statement takes is the level that a name had when the statement was read (`Reader.NamedAt`),
and that moment is told by the index of the statement. A statement reaches a level above 1 if and
only if one of its operand tokens named a quantity with that level (`Reader.ReadsAtLeast`), and
there is no other way up but propagation.

* `Tables.stored_level_le_iff`: an assignment keeps up with the level stored for its target exactly
  if it reads a quantity that has this level. The stored level covers all earlier assignments to the
  target, so otherwise the assignment is read below one of them or below the declaration.
* `Metric.builtin_level_iff`: in a compiled metric every statement that reads a built-in is in the
  built-in's loop. One that assigns to a built-in is there exactly if a line whose level it takes
  by propagation reads a quantity that has the level of the built-in.
-/

namespace RankMetric

open Relation

/-! ### What a name stood for -/

namespace Reader

variable {src : Source} {t : Tables} {lines : List Text} {r : Routine} {xs : List Statement}
  {s : Statement} {b : Body} {n : Name} {q : Quantity} {l : Level}

/-- When statement `i` of routine `r` was read, the name `n` stood for the quantity `q`. -/
def NamedAt (src : Source) (t : Tables) (lines : List Text) (r : Routine) (i : Nat) (n : Name)
    (q : Quantity) : Prop :=
  ∃ rd line, StandsBefore src t 1 lines r i rd line ∧ (rd.tables.body r).quantities.get? n = some q

/-- When statement `i` of routine `r` was read, and it was `s`, one of its operand tokens stood for
a quantity of level `l` at least. -/
def ReadsAtLeast (src : Source) (t : Tables) (lines : List Text) (r : Routine) (l : Level) (i : Nat)
    (s : Statement) : Prop :=
  ∃ n ∈ s.operandTokens, ∃ q, NamedAt src t lines r i n q ∧ l ≤ q.level

/-- There is one body that a statement was read off, and it tells what names stood for. -/
theorem ReadFrom.exists_body (h : ReadFrom src t 1 lines r xs s b) :
    ∃ b₁ : Body, ReflTransGen Body.Change (t.body r) b₁ ∧ b₁.statements = xs ∧ b₁.Reads s ∧
      ∀ n q, NamedAt src t lines r xs.length n q ↔ b₁.quantities.get? n = some q := by
  obtain ⟨rd, line, hstands, hxs, -, hreads, -⟩ := h
  have hhistory : ReflTransGen Body.Change (t.body r) (rd.tables.body r) := by
    obtain ⟨before, after, rd', -, hrun, -⟩ := hstands
    exact (history_of_run (coherent_top t) hrun).2 r
  refine ⟨rd.tables.body r, hhistory, hxs, hreads, fun n q ↦ ⟨?_, fun hq ↦ ⟨rd, line, hstands, hq⟩⟩⟩
  rintro ⟨rd', line', hstands', hq⟩
  obtain ⟨rfl, -⟩ := hstands.unique hstands'
  exact hq

/-- **A statement reaches a level exactly if it reads a quantity that has it**, as far as the level
is above 1. -/
theorem ReadFrom.le_level_iff (h : ReadFrom src t 1 lines r xs s b) :
    l ≤ s.level ↔ l = .constant ∨ ReadsAtLeast src t lines r l xs.length s := by
  obtain ⟨b₁, -, -, hreads, hnamed⟩ := h.exists_body
  simp only [hreads.le_level_iff, ReadsAtLeast, hnamed]

/-- What was declared before the first line has no lower level when it is read. -/
theorem ReadFrom.level_le_of_operand (h : ReadFrom src t 1 lines r xs s b)
    (hq : (t.body r).quantities.get? n = some q) (hn : n ∈ s.operandTokens) :
    q.level ≤ s.level := by
  obtain ⟨b₁, hhistory, -, hreads, -⟩ := h.exists_body
  obtain ⟨ss, -, hget⟩ := Body.get?_of_history hhistory
  have hraised : q.level ≤ (q.raise (assignedLevel n ss)).level := le_max_left _ _
  exact hraised.trans (hreads.level_le hn (hget n q hq))

/-- The target of a statement has been declared by then, and its level covers all earlier
assignments to it. -/
theorem ReadFrom.exists_stored (h : ReadFrom src t 1 lines r ((t.body r).statements ++ xs) s b)
    (hn : s.action.target? = some n) :
    ∃ q, NamedAt src t lines r ((t.body r).statements ++ xs).length n q ∧
      ∀ u ∈ xs, u.action.target? = some n → u.level ≤ q.level := by
  obtain ⟨b₁, hhistory, hxs, hreads, hnamed⟩ := h.exists_body
  obtain ⟨q, hq⟩ := Option.isSome_iff_exists.1 (hreads.contains_target hn)
  refine ⟨q, (hnamed n q).2 hq, fun u hu htarget ↦ ?_⟩
  obtain ⟨q', hq', hle⟩ := Body.le_level_of_assigned hhistory hxs hu htarget
  obtain rfl := Option.some.inj (hq.symm.trans hq')
  exact hle

end Reader

/-! ### Assignments and what is stored for their targets -/

namespace Tables

open Reader

variable {src : Source} {text : Text} {comments : List Text} {t t' : Tables} {r : Routine}
  {xs ys : List Statement} {s : Statement} {n : Name}

theorem readFrom_of_readDescription (h : t.readDescription src text = .ok (comments, t'))
    (hs : (t'.body r).statements = (t.body r).statements ++ xs ++ s :: ys) :
    ReadFrom src t 1 (Text.lines text) r ((t.body r).statements ++ xs) s (t'.body r) := by
  obtain ⟨rd, hrun, rfl⟩ := exists_run_of_readDescription h
  exact readFrom_of_run hrun hs

/-- **When an assignment keeps up with its target.** The level stored for the target covers the
earlier assignments to it. The assignment, whatever its operator, reaches this level if and only if
one of its operand tokens stood for a quantity that had it, unless it is level 1. -/
theorem stored_level_le_iff (h : t.readDescription src text = .ok (comments, t'))
    (hs : (t'.body r).statements = (t.body r).statements ++ xs ++ s :: ys)
    (hn : s.action.target? = some n) :
    ∃ q, NamedAt src t (Text.lines text) r ((t.body r).statements ++ xs).length n q ∧
      (∀ u ∈ xs, u.action.target? = some n → u.level ≤ q.level) ∧
      (q.level ≤ s.level ↔ q.level = .constant ∨
        ReadsAtLeast src t (Text.lines text) r q.level ((t.body r).statements ++ xs).length s) := by
  have hread := readFrom_of_readDescription h hs
  obtain ⟨q, hq, hcovers⟩ := hread.exists_stored hn
  exact ⟨q, hq, hcovers, hread.le_level_iff⟩

theorem reading_of_peakText : ∃ comments t,
    withBuiltins.readDescription peakSource peakText = .ok (comments, t) ∧
      (t.body .decode).statements = (withBuiltins.body .decode).statements ++
        [settingLast, settingPeak] ++ countingPeak :: [countingScore] := by
  obtain ⟨comments, t, hread, hstatements, -, -⟩ := exists_tables_of_peakText
  refine ⟨comments, t, hread, ?_⟩
  rw [withBuiltins_statements]
  exact hstatements

/-- The built-ins come without statements, so the count of `peak` is the third. -/
theorem length_before_countingPeak :
    ((withBuiltins.body .decode).statements ++ [settingLast, settingPeak]).length = 2 := by
  rw [withBuiltins_statements]
  rfl

theorem stored_level_le_iff_peakText : ∃ q,
    NamedAt peakSource withBuiltins (Text.lines peakText) .decode 2 "peak".toList q ∧
      settingPeak.level ≤ q.level ∧
      ¬ ReadsAtLeast peakSource withBuiltins (Text.lines peakText) .decode q.level 2
        countingPeak := by
  obtain ⟨comments, t, hread, hstatements⟩ := reading_of_peakText
  obtain ⟨q, hq, hcovers, hiff⟩ := stored_level_le_iff hread hstatements rfl
  rw [length_before_countingPeak] at hq hiff
  have hstored : settingPeak.level ≤ q.level := hcovers settingPeak (by decide) rfl
  refine ⟨q, hq, hstored, fun hreads ↦ ?_⟩
  have hlow : settingPeak.level ≤ countingPeak.level := hstored.trans (hiff.2 (.inr hreads))
  exact absurd hlow (by decide)

/-- **A count may be read below what it counts up**: the target of `+=` is read, but its level is
not taken. -/
theorem exists_count_below_stored : ∃ comments t q,
    withBuiltins.readDescription peakSource peakText = .ok (comments, t) ∧
      (t.body .decode).statements[2]? = some countingPeak ∧
      countingPeak.action = .assignment "peak".toList ['+', '='] [] ∧
      NamedAt peakSource withBuiltins (Text.lines peakText) .decode 2 "peak".toList q ∧
      ¬ q.level ≤ countingPeak.level := by
  obtain ⟨comments, t, hread, hstatements⟩ := reading_of_peakText
  have hfrom := readFrom_of_readDescription hread hstatements
  obtain ⟨q, hq, hcovers⟩ := hfrom.exists_stored (n := "peak".toList) rfl
  rw [length_before_countingPeak] at hq
  have hstored : settingPeak.level ≤ q.level := hcovers settingPeak (by decide) rfl
  have hthird : (t.body .decode).statements[2]? = some countingPeak := by
    rw [hstatements, withBuiltins_statements]
    rfl
  exact ⟨comments, t, q, hread, hthird, rfl, hq, fun hle ↦ absurd (hstored.trans hle) (by decide)⟩

end Tables

/-! ### Built-ins and their loops -/

namespace Metric

open Reader

variable {src : Source} {p : Propagation} {text : Text} {m : Metric}

/-- **Built-ins and their loops.** A statement that reads a built-in has at least its level, so it
is not emitted before the loops if the built-in changes in one. A statement that assigns to a
built-in has at least its level if and only if a line whose level it takes by propagation reads a
quantity that had this level, unless it is level 1. -/
theorem builtin_level_iff (h : compile src p text = .ok m) :
    ∃ comments t, Tables.withBuiltins.readDescription src text = .ok (comments, t) ∧
      ∀ r i s n q, (m.body r).statements[i]? = some s →
        (Tables.withBuiltins.body r).quantities.get? n = some q →
        (n ∈ s.operandTokens → q.level ≤ s.level ∧
          (q.level ≠ .constant → s ∉ (m.body r).statementsAt .constant)) ∧
        (s.action.target? = some n → (q.level ≤ s.level ↔ q.level = .constant ∨
          ∃ j x, (t.body r).statements[j]? = some x ∧ p.Takes (t.body r).statements i x ∧
            ReadsAtLeast src Tables.withBuiltins (Text.lines text) r q.level j x)) := by
  obtain ⟨comments, t, hread, rfl⟩ := readDescription_of_compile h
  obtain ⟨rd, hrun, rfl⟩ := Tables.exists_run_of_readDescription hread
  refine ⟨comments, rd.tables, hread, fun r i s n q hs hq ↦ ?_⟩
  have hfrom := fun {j x} ↦
    readFrom_of_getElem? (i := j) (s := x) hrun (Tables.withBuiltins_statements r)
  rw [body_ofTables_statements] at hs
  refine ⟨fun hn ↦ ?_, fun _ ↦ ?_⟩
  · obtain ⟨u, hu, hlifts⟩ := exists_getElem?_of_forall₂ (p.lifts_apply _) hs
    obtain ⟨xs, -, hu'⟩ := hfrom hu
    have hle : q.level ≤ s.level :=
      (hu'.level_le_of_operand hq (hlifts.operandTokens_eq ▸ hn)).trans hlifts.level_le
    refine ⟨hle, fun hloop hat ↦ hloop ?_⟩
    have hconstant : s.level = .constant := beq_iff_eq.1 (List.mem_filter.1 hat).2
    exact le_antisymm (hle.trans hconstant.le) (Level.constant_le _)
  · -- the target plays no part in this: what counts is what the lines read
    rw [Propagation.le_level_apply_iff hs]
    constructor
    · rintro ⟨x, hx, hle⟩
      obtain ⟨j, hj⟩ := List.mem_iff_getElem?.1 hx.mem
      obtain ⟨xs, rfl, hx'⟩ := hfrom hj
      exact (hx'.le_level_iff.1 hle).imp_right fun hreads ↦ ⟨_, x, hj, hx, hreads⟩
    · rintro (hconstant | ⟨j, x, hj, hx, hreads⟩)
      · obtain ⟨x, hx, -⟩ := (Propagation.le_level_apply_iff hs).1 (Level.constant_le _)
        exact ⟨x, hx, hconstant.le.trans (Level.constant_le _)⟩
      · obtain ⟨xs, rfl, hx'⟩ := hfrom hj
        exact ⟨x, hx, hx'.le_level_iff.2 (.inr hreads)⟩

theorem builtin_level_iff_peakText : ∃ comments t q,
    Tables.withBuiltins.readDescription peakSource peakText = .ok (comments, t) ∧
      (Tables.withBuiltins.body .decode).quantities.get? "accumulator".toList = some q ∧
      ¬ ∃ j x, (t.body .decode).statements[j]? = some x ∧
        Propagation.heuristic.Takes (t.body .decode).statements 3 x ∧
        ReadsAtLeast peakSource Tables.withBuiltins (Text.lines peakText) .decode q.level j x := by
  obtain ⟨m, hm, hstatements⟩ := exists_compile_of_peakText .heuristic
  obtain ⟨comments, t, hread, hlevels⟩ := builtin_level_iff hm
  obtain ⟨q, hq, hlevel⟩ := Body.levelOf_eq_some_iff.1 reading_of_descriptions.2.2
  refine ⟨comments, t, q, hread, hq, fun htakes ↦ ?_⟩
  have hs : (m.body .decode).statements[3]? = some countingScore := by
    rw [hstatements]
    decide +kernel
  have hle : q.level ≤ countingScore.level :=
    ((hlevels .decode 3 _ _ q hs hq).2 rfl).2 (.inr htakes)
  rw [hlevel] at hle
  exact absurd hle (by decide)

/-- **An assignment to a built-in may leave the loop of the built-in**: counting the accumulator up
is emitted before the loop over documents, in which it is set up. -/
theorem exists_score_before_loop : ∃ m q, compile peakSource .heuristic peakText = .ok m ∧
    (Tables.withBuiltins.body .decode).quantities.get? "accumulator".toList = some q ∧
    countingScore.action.target? = some "accumulator".toList ∧
    countingScore ∈ (m.body .decode).statementsAt .constant ∧
    q.level = .perDocument ∧ ¬ q.level ≤ countingScore.level := by
  obtain ⟨m, hm, hstatements⟩ := exists_compile_of_peakText .heuristic
  obtain ⟨q, hq, hlevel⟩ := Body.levelOf_eq_some_iff.1 reading_of_descriptions.2.2
  refine ⟨m, q, hm, hq, rfl, ?_, hlevel, ?_⟩
  · rw [Body.statementsAt, hstatements]
    decide +kernel
  · rw [hlevel]
    decide

end Metric

end RankMetric
