import Mathlib.Data.List.Infix
import RankMetric.Outline

/-!
# Balanced outlines

An outline is balanced if no closing line in it is stray and no block is left open
(`Outline.isBalanced`). The shapes of the other lines need no condition: in the outline of a list
only opening lines open blocks and only closing lines close them (`fits_ofList`). `Outline.Balanced`
has both facts, one constructor a node, and is what inductions go over.

* `ofList_toList`: a balanced outline is the outline of its own lines, so a list nests in one way
  only. To find the outline of a list, it is enough to find a balanced one with these lines.
* `Balanced.mapBlocks` and `Balanced.filterNodes`: changing lines and leaving out whole outermost
  nodes keep an outline balanced.
* `toList_filterNodes`, `blocks_filterNodes`: if the lines of each outermost block agree on a
  property, then leaving out nodes is leaving out lines, and the blocks that remain are those of the
  lines that remain, each of them whole.
-/

namespace RankMetric.Outline

variable {α β : Type} {shape : α → Shape} {l : List α} {o : Outline α}

/-! ### Shapes and places -/

/-- No closing line is stray and no block is left open. -/
def isBalanced (shape : α → Shape) : Outline α → Bool
  | nil => true
  | line a rest => shape a != .closing && rest.isBalanced shape
  | block _ inner c rest => c.isSome && inner.isBalanced shape && rest.isBalanced shape

/-- Opening lines open blocks, and only closing lines close them. -/
def Fits (shape : α → Shape) : Outline α → Prop
  | nil => True
  | line a rest => shape a ≠ .opening ∧ rest.Fits shape
  | block a inner c rest =>
    shape a = .opening ∧ (∀ d ∈ c, shape d = .closing) ∧ inner.Fits shape ∧ rest.Fits shape

/-- Plain lines are plain, and each block has an opening line and a closing line. -/
inductive Balanced (shape : α → Shape) : Outline α → Prop
  | nil : Balanced shape .nil
  | line {a : α} {rest : Outline α} (plain : shape a = .plain)
      (restBalanced : Balanced shape rest) :
      Balanced shape (.line a rest)
  | block {a c : α} {inner rest : Outline α} (opening : shape a = .opening)
      (closing : shape c = .closing) (innerBalanced : Balanced shape inner)
      (restBalanced : Balanced shape rest) : Balanced shape (.block a inner (some c) rest)

theorem Balanced.isBalanced (h : o.Balanced shape) : o.isBalanced shape = true := by
  induction h with
  | nil => rfl
  | line plain _ ih => simp [Outline.isBalanced, plain, ih]
  | block _ _ _ _ ih₁ ih₂ => simp [Outline.isBalanced, ih₁, ih₂]

theorem Fits.balanced (h : o.Fits shape) (hb : o.isBalanced shape = true) : o.Balanced shape := by
  induction o with
  | nil => exact .nil
  | line a rest ih =>
    simp only [Outline.isBalanced, Bool.and_eq_true, bne_iff_ne] at hb
    refine .line ?_ (ih h.2 hb.2)
    cases ha : shape a with
    | plain => rfl
    | opening => exact absurd ha h.1
    | closing => exact absurd ha hb.1
  | block a inner c rest ih₁ ih₂ =>
    simp only [Outline.isBalanced, Bool.and_eq_true] at hb
    obtain ⟨d, rfl⟩ := Option.isSome_iff_exists.1 hb.1.1
    exact .block h.1 (h.2.1 d rfl) (ih₁ h.2.2.1 hb.1.2) (ih₂ h.2.2.2 hb.2)

theorem Fits.append {r : Outline α} (h : o.Fits shape) (hr : r.Fits shape) :
    (o.append r).Fits shape := by
  induction o with
  | nil => exact hr
  | line a rest ih => exact ⟨h.1, ih h.2⟩
  | block a inner c rest _ ih => exact ⟨h.1, h.2.1, h.2.2.1, ih h.2.2.2⟩

/-- The parts of a draft fit, and the lines that wait are closing lines. -/
structure Draft.Fits (shape : α → Shape) (d : Draft α) : Prop where
  here : d.here.Fits shape
  waiting : ∀ w ∈ d.waiting, shape w.1 = .closing ∧ w.2.Fits shape

theorem Draft.Fits.add {d : Draft α} (h : d.Fits shape) (a : α) : (d.add shape a).Fits shape := by
  unfold Draft.add
  split
  · next ha => exact ⟨⟨by simp [ha], h.here⟩, h.waiting⟩
  · next ha => exact ⟨trivial, List.forall_mem_cons.2 ⟨⟨ha, h.here⟩, h.waiting⟩⟩
  · next ha =>
    split
    · exact ⟨⟨ha, by simp, h.here, trivial⟩, by simp⟩
    · next c after ws hw =>
      obtain ⟨⟨hc, hafter⟩, hws⟩ := List.forall_mem_cons.1 (hw ▸ h.waiting)
      exact ⟨⟨ha, by simpa using hc, h.here, hafter⟩, hws⟩

theorem Draft.Fits.close {d : Draft α} (h : d.Fits shape) : d.close.Fits shape := by
  obtain ⟨here, waiting⟩ := d
  refine h.here.append ?_
  have hwaiting := h.waiting
  clear h
  induction waiting with
  | nil => exact trivial
  | cons w ws ih =>
    obtain ⟨⟨hc, hafter⟩, hws⟩ := List.forall_mem_cons.1 hwaiting
    exact ⟨by simp [hc], hafter.append (ih hws)⟩

theorem Draft.fits_foldr_add (shape : α → Shape) (l : List α) :
    (l.foldr (Draft.add shape) {}).Fits shape := by
  induction l with
  | nil => exact ⟨trivial, by simp⟩
  | cons a l ih => exact ih.add a

/-- In the outline of a list every line has a place that fits its shape. -/
theorem fits_ofList (shape : α → Shape) (l : List α) : (ofList shape l).Fits shape :=
  (Draft.fits_foldr_add shape l).close

theorem balanced_ofList (h : (ofList shape l).isBalanced shape = true) :
    (ofList shape l).Balanced shape :=
  (fits_ofList shape l).balanced h

/-! ### A list nests in one way -/

theorem append_nil (o : Outline α) : o.append nil = o := by
  induction o with
  | nil => rfl
  | line a rest ih => rw [append, ih]
  | block a inner c rest _ ih => rw [append, ih]

/-- The lines of a balanced outline leave the lines that wait alone. -/
theorem Balanced.foldr_add (h : o.Balanced shape) (d : Draft α) :
    o.toList.foldr (Draft.add shape) d = { d with here := o.append d.here } := by
  induction h generalizing d with
  | nil => rfl
  | line plain _ ih => rw [toList, List.foldr_cons, ih, Draft.add, plain, append]
  | @block a c inner rest opening closing _ _ ih₁ ih₂ =>
    have hlines : (Outline.block a inner (some c) rest).toList =
        a :: (inner.toList ++ c :: rest.toList) := by simp [toList]
    rw [hlines, List.foldr_cons, List.foldr_append, List.foldr_cons, ih₂]
    have hclose : Draft.add shape c { d with here := rest.append d.here } =
        ⟨.nil, (c, rest.append d.here) :: d.waiting⟩ := by rw [Draft.add, closing]
    rw [hclose, ih₁, append_nil, Draft.add, opening, append]

/-- **A balanced outline is the outline of its lines.** -/
theorem ofList_toList (h : o.Balanced shape) : ofList shape o.toList = o := by
  rw [ofList, h.foldr_add, Draft.close]
  simp [append_nil]

/-! ### Changing lines -/

theorem Balanced.map {shape' : β → Shape} {f : α → β} (hf : ∀ a, shape' (f a) = shape a)
    (h : o.Balanced shape) : (o.map f).Balanced shape' := by
  induction h with
  | nil => exact .nil
  | line plain _ ih => exact .line ((hf _).trans plain) ih
  | block opening closing _ _ ih₁ ih₂ =>
    exact .block ((hf _).trans opening) ((hf _).trans closing) ih₁ ih₂

/-- Changing the lines of blocks keeps an outline balanced if it keeps shapes. -/
theorem Balanced.mapBlocks {f : List α → α → α} (hf : ∀ b a, shape (f b a) = shape a)
    (h : o.Balanced shape) : (o.mapBlocks f).Balanced shape := by
  induction h with
  | nil => exact .nil
  | line plain _ ih => exact .line plain ih
  | block opening closing hinner _ _ ih =>
    exact .block ((hf _ _).trans opening) ((hf _ _).trans closing) (hinner.map (hf _)) ih

/-! ### Leaving out nodes -/

/-- The outline without the outermost nodes whose first lines lack a property. -/
def filterNodes (p : α → Bool) : Outline α → Outline α
  | nil => nil
  | line a rest => if p a then line a (rest.filterNodes p) else rest.filterNodes p
  | block a inner c rest =>
    if p a then block a inner c (rest.filterNodes p) else rest.filterNodes p

theorem Balanced.filterNodes (p : α → Bool) (h : o.Balanced shape) :
    (o.filterNodes p).Balanced shape := by
  induction h with
  | nil => exact .nil
  | line plain _ ih =>
    rw [Outline.filterNodes]
    split
    · exact .line plain ih
    · exact ih
  | block opening closing hinner _ _ ih =>
    rw [Outline.filterNodes]
    split
    · exact .block opening closing hinner ih
    · exact ih

/-- All lines of an outermost block have the same key. -/
def Uniform (key : α → β) : Outline α → Prop
  | nil => True
  | line _ rest => rest.Uniform key
  | block a inner c rest => (∀ b ∈ blockLines a inner c, key b = key a) ∧ rest.Uniform key

/-- The lines of the blocks of an outline, at any depth, in the order of their opening lines. -/
def blocks : Outline α → List (List α)
  | nil => []
  | line _ rest => rest.blocks
  | block a inner c rest => blockLines a inner c :: inner.blocks ++ rest.blocks

/-- **The lines of a block stand together.** -/
theorem isInfix_of_mem_blocks {b : List α} (h : b ∈ o.blocks) : b <:+: o.toList := by
  induction o with
  | nil => cases h
  | line a rest ih => exact (ih h).trans (List.suffix_cons a rest.toList).isInfix
  | block a inner c rest ih₁ ih₂ =>
    rw [blocks, List.cons_append, List.mem_cons, List.mem_append] at h
    have hlines : (block a inner c rest).toList = blockLines a inner c ++ rest.toList := rfl
    rw [hlines]
    rcases h with rfl | h | h
    · exact (List.prefix_append _ _).isInfix
    · refine (ih₁ h).trans ⟨[a], c.toList ++ rest.toList, ?_⟩
      simp [blockLines]
    · exact (ih₂ h).trans (List.suffix_append _ _).isInfix

theorem ne_nil_of_mem_blocks {b : List α} (h : b ∈ o.blocks) : b ≠ [] := by
  induction o with
  | nil => cases h
  | line a rest ih => exact ih h
  | block a inner c rest ih₁ ih₂ =>
    rw [blocks, List.cons_append, List.mem_cons, List.mem_append] at h
    rcases h with rfl | h | h
    · simp [blockLines]
    · exact ih₁ h
    · exact ih₂ h

variable {key : α → β}

/-- The lines of one block have one key. -/
theorem Uniform.exists_key (h : o.Uniform key) {b : List α} (hb : b ∈ o.blocks) :
    ∃ k, ∀ a ∈ b, key a = k := by
  induction o with
  | nil => cases hb
  | line a rest ih => exact ih h hb
  | block a inner c rest _ ih =>
    rw [blocks, List.cons_append, List.mem_cons, List.mem_append] at hb
    rcases hb with rfl | hb | hb
    · exact ⟨key a, h.1⟩
    · refine ⟨key a, fun x hx ↦ h.1 x ?_⟩
      have hinner := (isInfix_of_mem_blocks hb).subset hx
      simp [blockLines, hinner]
    · exact ih h.2 hb

variable [DecidableEq β]

/-- Leaving out the nodes without a key is leaving out the lines without it. -/
theorem toList_filterNodes (h : o.Uniform key) (k : β) :
    (o.filterNodes fun a ↦ key a == k).toList = o.toList.filter fun a ↦ key a == k := by
  induction o with
  | nil => rfl
  | line a rest ih =>
    rw [filterNodes, toList, List.filter_cons]
    split
    · rw [toList, ih h]
    · exact ih h
  | block a inner c rest _ ih =>
    have hlines : (block a inner c rest).toList = blockLines a inner c ++ rest.toList := rfl
    rw [filterNodes, hlines, List.filter_append, ← ih h.2]
    split
    · next ha =>
      have hall : (blockLines a inner c).filter (fun a ↦ key a == k) = blockLines a inner c :=
        List.filter_eq_self.2 fun b hb ↦ by rw [h.1 b hb, ha]
      rw [hall]
      rfl
    · next ha =>
      have hnone : (blockLines a inner c).filter (fun a ↦ key a == k) = [] :=
        List.filter_eq_nil_iff.2 fun b hb ↦ by rwa [h.1 b hb]
      rw [hnone, List.nil_append]

/-- The blocks that remain are those whose lines all have the key. -/
theorem blocks_filterNodes (h : o.Uniform key) (k : β) :
    (o.filterNodes fun a ↦ key a == k).blocks =
      o.blocks.filter fun b ↦ b.all fun a ↦ key a == k := by
  induction o with
  | nil => rfl
  | line a rest ih =>
    rw [filterNodes, blocks]
    split
    · rw [blocks, ih h]
    · exact ih h
  | block a inner c rest _ ih =>
    -- a block within this one has the key if and only if this one has it
    have hkey : ∀ b ∈ blockLines a inner c :: inner.blocks,
        (b.all fun a ↦ key a == k) = (key a == k) := by
      intro b hb
      have hsub : b ⊆ blockLines a inner c ∧ b ≠ [] := by
        rcases List.mem_cons.1 hb with rfl | hb
        · exact ⟨List.Subset.refl _, by simp [blockLines]⟩
        · refine ⟨fun x hx ↦ ?_, ne_nil_of_mem_blocks hb⟩
          have hinner := (isInfix_of_mem_blocks hb).subset hx
          simp [blockLines, hinner]
      obtain ⟨x, xs, rfl⟩ := List.exists_cons_of_ne_nil hsub.2
      rw [Bool.eq_iff_iff, List.all_eq_true]
      refine ⟨fun hall ↦ ?_, fun ha y hy ↦ ?_⟩
      · rw [← h.1 x (hsub.1 List.mem_cons_self)]
        exact hall x List.mem_cons_self
      · rw [h.1 y (hsub.1 hy), ha]
    rw [filterNodes, blocks, List.filter_append, ← ih h.2]
    split
    · next ha =>
      have hall : (blockLines a inner c :: inner.blocks).filter
          (fun b ↦ b.all fun a ↦ key a == k) = blockLines a inner c :: inner.blocks :=
        List.filter_eq_self.2 fun b hb ↦ by rw [hkey b hb, ha]
      rw [hall]
      rfl
    · next ha =>
      have hnone : (blockLines a inner c :: inner.blocks).filter
          (fun b ↦ b.all fun a ↦ key a == k) = [] :=
        List.filter_eq_nil_iff.2 fun b hb ↦ by rwa [hkey b hb]
      rw [hnone, List.nil_append]

end RankMetric.Outline
