import RankMetric.Emission
import RankMetric.Proofs.BalancedOutline
import RankMetric.Proofs.PropagationLevels

/-!
# Blocks in the generated text

The statements of a routine are emitted one level at a time. A level takes some lines of the source
and leaves others out, so nothing by itself keeps a closing line with its opening line. Raising by
blocks does: it brings all lines of an outermost block to one level (`uniform_mapBlocks`), so each
level takes outermost blocks as wholes, and what is nested in them with them.

The indentation of a line is never looked up in an outline. It is counted while lines are written,
and the count falls no lower than zero. `Outline.dented` says what the indentation of each line
should be: lines directly inside a block are indented by `blockDent` more than the line that opens
it, and the line that closes it is indented as the line that opens it. On the lines of a balanced
outline the count agrees with that and comes back to where it started
(`renderStatements_append_of_balanced`), so the bound at zero is never met.

`Body.nested_of_blockTree` puts this together.
-/

namespace RankMetric

open Text

/-! ### Indentation by nesting -/

/-- The lines of an outline in order, each with its indentation. -/
def Outline.dented {α : Type} (dent : Nat) : Outline α → List (Nat × α)
  | nil => []
  | line a rest => (dent, a) :: rest.dented dent
  | block a inner c rest =>
    (dent, a) :: inner.dented (dent + blockDent) ++ c.toList.map (dent, ·) ++ rest.dented dent

/-- A statement at an indentation, after a substitution. -/
def Statement.render (m : Substitution) (dent : Nat) (s : Statement) : Text :=
  spaces dent ++ m.apply s.text

section Rendering

variable {o : Outline Statement} {s : Statement} {m : Substitution} {dent : Nat}

theorem renderStatements_plain (h : s.shape = .plain) (ss : List Statement) :
    renderStatements m dent (s :: ss) = s.render m dent :: renderStatements m dent ss := by
  simp [renderStatements, Statement.render, h]

theorem renderStatements_opening (h : s.shape = .opening) (ss : List Statement) :
    renderStatements m dent (s :: ss) =
      s.render m dent :: renderStatements m (dent + blockDent) ss := by
  simp [renderStatements, Statement.render, h]

/-- A closing line takes back what its opening line has added. -/
theorem renderStatements_closing (h : s.shape = .closing) (ss : List Statement) :
    renderStatements m (dent + blockDent) (s :: ss) =
      s.render m dent :: renderStatements m dent ss := by
  simp [renderStatements, Statement.render, h]

/-- **Counting gives the indentation by nesting**, and comes back to where it started: what follows
is written as if nothing had been written before. -/
theorem renderStatements_append_of_balanced (h : o.Balanced Statement.shape) (m : Substitution)
    (dent : Nat) (more : List Statement) :
    renderStatements m dent (o.toList ++ more) =
      (o.dented dent).map (fun p ↦ p.2.render m p.1) ++ renderStatements m dent more := by
  induction h generalizing dent more with
  | nil => rfl
  | @line s rest plain _ ih =>
    have hlines : (Outline.line s rest).toList ++ more = s :: (rest.toList ++ more) := rfl
    rw [hlines, renderStatements_plain plain, ih]
    rfl
  | @block s c inner rest opening closing _ _ ih₁ ih₂ =>
    have hlines : (Outline.block s inner (some c) rest).toList ++ more =
        s :: (inner.toList ++ c :: (rest.toList ++ more)) := by simp [Outline.toList]
    rw [hlines, renderStatements_opening opening, ih₁, renderStatements_closing closing, ih₂]
    simp [Outline.dented]

/-- The same of the lines of a list whose outline is balanced. -/
theorem renderStatements_append {ss : List Statement}
    (h : (Outline.ofList Statement.shape ss).Balanced Statement.shape) (m : Substitution)
    (dent : Nat) (more : List Statement) :
    renderStatements m dent (ss ++ more) =
      ((Outline.ofList Statement.shape ss).dented dent).map (fun p ↦ p.2.render m p.1) ++
        renderStatements m dent more := by
  have hmore := renderStatements_append_of_balanced h m dent more
  rwa [Outline.toList_ofList] at hmore

theorem renderStatements_of_balanced {ss : List Statement}
    (h : (Outline.ofList Statement.shape ss).Balanced Statement.shape) (m : Substitution)
    (dent : Nat) :
    renderStatements m dent ss =
      ((Outline.ofList Statement.shape ss).dented dent).map fun p ↦ p.2.render m p.1 := by
  have hnone := renderStatements_append h m dent []
  rwa [List.append_nil, renderStatements, List.append_nil] at hnone

end Rendering

/-! ### One level of a list raised by blocks -/

namespace Propagation

variable {ss : List Statement}

/-- After raising, the lines of an outermost block have one level. -/
theorem uniform_mapBlocks (o : Outline Statement) :
    (o.mapBlocks raiseToJoin).Uniform Statement.level := by
  induction o with
  | nil => exact trivial
  | line s rest ih => exact ih
  | block s inner c rest _ ih =>
    refine ⟨fun x hx ↦ ?_, ih⟩
    have hlines : Outline.blockLines (raiseToJoin (Outline.blockLines s inner c) s)
        (inner.map (raiseToJoin (Outline.blockLines s inner c)))
        (c.map (raiseToJoin (Outline.blockLines s inner c))) =
        (Outline.blockLines s inner c).map (raiseToJoin (Outline.blockLines s inner c)) := by
      cases c <;> simp [Outline.blockLines, Outline.toList_map]
    rw [hlines] at hx
    obtain ⟨y, hy, rfl⟩ := List.mem_map.1 hx
    have hs : s ∈ Outline.blockLines s inner c := by simp [Outline.blockLines]
    rw [level_raiseToJoin hy, level_raiseToJoin hs]

theorem balanced_mapBlocks
    (h : (Outline.ofList Statement.shape ss).isBalanced Statement.shape = true) :
    ((Outline.ofList Statement.shape ss).mapBlocks raiseToJoin).Balanced Statement.shape :=
  (Outline.balanced_ofList h).mapBlocks (f := raiseToJoin) fun _ _ ↦ rfl

/-- Raising by blocks keeps the nesting of a balanced list. -/
theorem ofList_byBlocks
    (h : (Outline.ofList Statement.shape ss).isBalanced Statement.shape = true) :
    Outline.ofList Statement.shape (byBlocks ss) =
      (Outline.ofList Statement.shape ss).mapBlocks raiseToJoin :=
  Outline.ofList_toList (balanced_mapBlocks h)

end Propagation

namespace Body

variable {b : Body} {ss : List Statement}

/-- The statements of a level are the lines of the outermost nodes that have it. -/
theorem ofList_statementsAt
    (h : (Outline.ofList Statement.shape ss).isBalanced Statement.shape = true)
    (hb : b.statements = Propagation.blockTree.apply ss) (l : Level) :
    Outline.ofList Statement.shape (b.statementsAt l) =
      ((Outline.ofList Statement.shape ss).mapBlocks Propagation.raiseToJoin).filterNodes
        fun s ↦ s.level == l := by
  have hlines : b.statementsAt l = (((Outline.ofList Statement.shape ss).mapBlocks
      Propagation.raiseToJoin).filterNodes fun s ↦ s.level == l).toList := by
    rw [Outline.toList_filterNodes (Propagation.uniform_mapBlocks _), statementsAt, hb]
    rfl
  rw [hlines]
  exact Outline.ofList_toList ((Propagation.balanced_mapBlocks h).filterNodes _)

/-- **Raising by blocks keeps the code of each level well nested.** Let the statements of a body be
those of a balanced list after raising by blocks. Their nesting is that of the list, and the lines
of each block have one level. The statements of any level are balanced again. Their blocks are the
blocks of that level, at any depth and in their order, and the lines of each stand together. They
are written with the indentation that their nesting has, from whatever indentation the first line
starts, and what is written after them starts from the same. -/
theorem nested_of_blockTree
    (h : (Outline.ofList Statement.shape ss).isBalanced Statement.shape = true)
    (hb : b.statements = Propagation.blockTree.apply ss) (l : Level) :
    Outline.ofList Statement.shape b.statements =
        (Outline.ofList Statement.shape ss).mapBlocks Propagation.raiseToJoin ∧
      (∀ lines ∈ (Outline.ofList Statement.shape b.statements).blocks,
        ∃ k, ∀ s ∈ lines, s.level = k) ∧
      (Outline.ofList Statement.shape (b.statementsAt l)).isBalanced Statement.shape = true ∧
      (Outline.ofList Statement.shape (b.statementsAt l)).blocks =
        ((Outline.ofList Statement.shape b.statements).blocks.filter fun lines ↦
          lines.all fun s ↦ s.level == l) ∧
      (∀ lines ∈ (Outline.ofList Statement.shape (b.statementsAt l)).blocks,
        lines <:+: b.statementsAt l) ∧
      ∀ m dent,
        b.renderLevel l dent m = unlines
          (((Outline.ofList Statement.shape (b.statementsAt l)).dented dent).map fun p ↦
            p.2.render m p.1) ∧
        ∀ more, renderStatements m dent (b.statementsAt l ++ more) =
          renderStatements m dent (b.statementsAt l) ++ renderStatements m dent more := by
  have hnesting : Outline.ofList Statement.shape b.statements =
      (Outline.ofList Statement.shape ss).mapBlocks Propagation.raiseToJoin := by
    rw [hb]
    exact Propagation.ofList_byBlocks h
  have huniform := Propagation.uniform_mapBlocks (Outline.ofList Statement.shape ss)
  have hat := ofList_statementsAt h hb l
  have hbalanced : (Outline.ofList Statement.shape (b.statementsAt l)).Balanced
      Statement.shape := by
    rw [hat]
    exact (Propagation.balanced_mapBlocks h).filterNodes _
  refine ⟨hnesting, ?_, hbalanced.isBalanced, ?_, ?_, fun m dent ↦ ⟨?_, fun more ↦ ?_⟩⟩
  · rw [hnesting]
    exact fun lines hlines ↦ huniform.exists_key hlines
  · rw [hnesting, hat, Outline.blocks_filterNodes huniform]
  · intro lines hlines
    have hinfix := Outline.isInfix_of_mem_blocks hlines
    rwa [Outline.toList_ofList] at hinfix
  · rw [renderLevel, renderStatements_of_balanced hbalanced]
  · rw [renderStatements_append hbalanced, renderStatements_of_balanced hbalanced]

/-- Two blocks, one in the other, between two lines. The inner block reads a quantity of the term,
and a line of the outer block one of the document. -/
def nestedGates : List Statement := [
  ⟨1, .constant, "w = 1;".toList, .evaluation []⟩,
  ⟨2, .constant, "if (w) \x7b".toList, .evaluation []⟩,
  ⟨3, .constant, "if (w > 1) \x7b".toList, .evaluation []⟩,
  ⟨4, .perTerm, "x = f_dt;".toList, .evaluation ["f_dt".toList]⟩,
  ⟨5, .constant, ['\x7d'], .evaluation []⟩,
  ⟨6, .perDocument, "y = D_terms;".toList, .evaluation ["D_terms".toList]⟩,
  ⟨7, .constant, ['\x7d'], .evaluation []⟩,
  ⟨8, .constant, "v = w;".toList, .evaluation []⟩]

theorem nested_of_blockTree_nestedGates :
    (Outline.ofList Statement.shape nestedGates).isBalanced Statement.shape = true ∧
      ∃ b : Body, b.statements = Propagation.blockTree.apply nestedGates ∧
        b.renderLevel .perTerm 2 .empty = unlines (List.map String.toList [
          "  if (w) \x7b", "      if (w > 1) \x7b", "          x = f_dt;", "      \x7d",
          "      y = D_terms;", "  \x7d"]) := by
  have hbalanced : (Outline.ofList Statement.shape nestedGates).isBalanced Statement.shape = true :=
    by decide +kernel
  refine ⟨hbalanced, ⟨.empty, .empty, Propagation.blockTree.apply nestedGates⟩, rfl, ?_⟩
  obtain ⟨-, -, -, -, -, hrender⟩ := nested_of_blockTree hbalanced
    (b := ⟨.empty, .empty, Propagation.blockTree.apply nestedGates⟩) rfl .perTerm
  rw [(hrender .empty 2).1]
  decide +kernel

end Body

end RankMetric
