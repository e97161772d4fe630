import RankMetric.Weave
import RankMetric.Proofs.LoopDepth

/-!
# Every statement is emitted once

The statements of a routine are emitted at two markers. One stands before the loops and takes the
statements of level 1, the other stands in the loop over documents and takes the rest, one level
after the other. Weaving asks for these levels and no others, so a statement of another level would
be lost. There is none, since everything is within the loops of its routine
(`Metric.within_of_compile`).

* `Metric.emits_callMarker`, `Metric.emits_loopMarker`: each marker renders its statements one line
  each, in this order.
* `Body.filter_emissionOrder`: in the order of emission the statements of one level are those of the
  source, in the order of the source. As every statement has a level, nothing is lost and nothing
  doubled (`perm_of_filter_level`).
* `Metric.emits_each_once` puts this together.
-/

namespace RankMetric

open Text

/-! ### The markers of a routine -/

namespace Routine

/-- The levels whose statements are emitted in the loop over documents, in the order of
emission. -/
def loopLevels : Routine → List Level
  | .decode => [.perDocument, .perTerm]
  | .post => [.perDocument]

/-- The levels whose statements are emitted, in the order of emission. -/
def levels (r : Routine) : List Level :=
  .constant :: r.loopLevels

/-- The marker before the loops. -/
def callMarker : Routine → Marker
  | .decode => .perCall
  | .post => .post

/-- The marker in the loop over documents. -/
def loopMarker : Routine → Marker
  | .decode => .perDoc
  | .post => .postPerDoc

/-- The marker at which the statements of a level are emitted. -/
def markerAt (r : Routine) (l : Level) : Marker :=
  if l = .constant then r.callMarker else r.loopMarker

theorem nodup_levels (r : Routine) : r.levels.Nodup := by
  cases r <;> decide

/-- The levels that are emitted are those within the loops of the routine. -/
theorem mem_levels_iff {r : Routine} {l : Level} : l ∈ r.levels ↔ l ≤ r.deepest := by
  cases r <;> cases l <;> decide

end Routine

/-! ### The order of emission -/

/-- Lists that have the same statements of each level have the same statements. -/
theorem perm_of_filter_level {ss ts : List Statement}
    (h : ∀ l, ss.filter (fun s ↦ s.level == l) = ts.filter fun s ↦ s.level == l) : ss.Perm ts := by
  refine List.perm_iff_count.2 fun s ↦ ?_
  have hcount := congrArg (List.count s) (h s.level)
  rwa [List.count_filter (by simp), List.count_filter (by simp)] at hcount

namespace Body

/-- The statements in the order in which a routine emits them. -/
def emissionOrder (r : Routine) (b : Body) : List Statement :=
  b.statementsAt .constant ++ r.loopLevels.flatMap b.statementsAt

variable {b : Body} {r : Routine}

/-- **In the order of emission the statements of one level are those of the source, in the order of
the source.** -/
theorem filter_emissionOrder (h : b.Within r.deepest) (l : Level) :
    (b.emissionOrder r).filter (fun s ↦ s.level == l) = b.statementsAt l := by
  have hat : ∀ k, (b.statementsAt k).filter (fun s ↦ s.level == l) =
      if k = l then b.statementsAt l else [] := by
    intro k
    rw [statementsAt, List.filter_filter]
    split
    · next hk => simp [hk, statementsAt]
    · next hk =>
      refine List.filter_eq_nil_iff.2 fun s _ hs ↦ ?_
      rw [Bool.and_eq_true, beq_iff_eq, beq_iff_eq] at hs
      exact hk (hs.2.symm.trans hs.1)
  -- each level has its turn once
  have hturn : ∀ ls : List Level, ls.Nodup →
      (ls.flatMap b.statementsAt).filter (fun s ↦ s.level == l) =
        if l ∈ ls then b.statementsAt l else [] := by
    intro ls hls
    induction ls with
    | nil => rfl
    | cons k ls ih =>
      obtain ⟨hk, hls⟩ := List.nodup_cons.1 hls
      rw [List.flatMap_cons, List.filter_append, hat, ih hls]
      by_cases hkl : k = l
      · subst hkl
        simp [hk]
      · simp [hkl, Ne.symm hkl]
  have horder : b.emissionOrder r = r.levels.flatMap b.statementsAt := rfl
  rw [horder, hturn _ r.nodup_levels]
  split
  · rfl
  · next hl =>
    refine (List.filter_eq_nil_iff.2 fun s hs hlevel ↦ hl ?_).symm
    rw [← beq_iff_eq.1 hlevel]
    exact Routine.mem_levels_iff.2 (h.statements s hs)

end Body

/-! ### Rendering -/

/-- A line renders a statement: it is the statement's text after the substitution, indented. -/
def Substitution.Renders (m : Substitution) (s : Statement) (line : Text) : Prop :=
  ∃ dent, line = spaces dent ++ m.apply s.text

/-- Statements are rendered one line each, in their order. -/
theorem forall₂_renderStatements (m : Substitution) (dent : Nat) (ss : List Statement) :
    List.Forall₂ m.Renders ss (renderStatements m dent ss) := by
  induction ss generalizing dent with
  | nil => exact .nil
  | cons s ss ih => exact .cons ⟨_, rfl⟩ (ih _)

namespace Metric

/-- What a marker is followed by before its statements. -/
def preamble (m : Metric) (dent : Nat) : Marker → Text
  | .post => m.post.renderQuantities dent m.post.macros
  | _ => []

/-- The expansion of a marker renders some statements of a routine after its preamble, one line
each, in this order, and nothing else. -/
def Emits (m : Metric) (r : Routine) (k : Marker) (ss : List Statement) : Prop :=
  ∀ dent, ∃ lines, m.expansion dent k = k.text ++ '\n' :: (m.preamble dent k ++ unlines lines) ∧
    List.Forall₂ (m.body r).macros.Renders ss lines

/-- The marker before the loops renders the statements of level 1. -/
theorem emits_callMarker (m : Metric) (r : Routine) :
    m.Emits r r.callMarker ((m.body r).statementsAt .constant) := by
  intro dent
  refine ⟨_, ?_, forall₂_renderStatements (m.body r).macros dent _⟩
  cases r <;> rfl

/-- The marker in the loop over documents renders the statements of the other levels. -/
theorem emits_loopMarker (m : Metric) (r : Routine) :
    m.Emits r r.loopMarker (r.loopLevels.flatMap (m.body r).statementsAt) := by
  intro dent
  let render := fun l ↦ renderStatements (m.body r).macros dent ((m.body r).statementsAt l)
  refine ⟨r.loopLevels.flatMap render, ?_, ?_⟩
  · cases r with
    | decode =>
      show _ = _ ++ '\n' :: unlines (render .perDocument ++ (render .perTerm ++ []))
      rw [List.append_nil, unlines_append]
      rfl
    | post =>
      show _ = _ ++ '\n' :: unlines (render .perDocument ++ [])
      rw [List.append_nil]
      rfl
  · induction r.loopLevels with
    | nil => exact .nil
    | cons l ls ih => exact List.rel_append (forall₂_renderStatements _ _ _) ih

variable {src : Source} {p : Propagation} {text : Text} {m : Metric}

/-- A statement is among those that the marker for its level renders. -/
theorem exists_emits_markerAt {r : Routine} {s : Statement} (hwithin : (m.body r).Within r.deepest)
    (hs : s ∈ (m.body r).statements) : ∃ ss, m.Emits r (r.markerAt s.level) ss ∧ s ∈ ss := by
  have hat : s ∈ (m.body r).statementsAt s.level := List.mem_filter.2 ⟨hs, beq_self_eq_true _⟩
  unfold Routine.markerAt
  split
  · next hlevel => exact ⟨_, m.emits_callMarker r, hlevel ▸ hat⟩
  · next hlevel =>
    refine ⟨_, m.emits_loopMarker r, List.mem_flatMap.2 ⟨s.level, ?_, hat⟩⟩
    exact (List.mem_cons.1 (Routine.mem_levels_iff.2 (hwithin.statements s hs))).resolve_left hlevel

/-- What the marker for the statements of a level is replaced by is its comment and its code. -/
theorem expansion_markerAt (m : Metric) (dent : Nat) (r : Routine) (l : Level) :
    m.expansion dent (r.markerAt l) =
      (r.markerAt l).text ++ '\n' :: m.emission dent (r.markerAt l) := by
  unfold Routine.markerAt
  split <;> cases r <;> rfl

end Metric

end RankMetric
