import RankMetric.Proofs.AlikeMetrics
import RankMetric.Proofs.BalancedOutline

/-!
# How a list nests

`Outline.ofList` reads a list from the right end. This module says what it makes of the list in
words that do not depend on how it goes about it.

* `Outline.Nested` has one constructor for each kind of node that the outline of a list may have. A
  block may be left open only if nothing follows it, so whatever has an open block in it is left
  open too, and a closing line may stand alone only outside all blocks. An outline is that of a list
  if and only if it has the lines of the list and is nested (`ofList_eq_iff`).
* `Outline.WellNested` says the same of single nodes at any depth (`nested_iff`).
* Which closing lines stand alone can be told from the shapes of the lines before them: those behind
  which no block is open (`Shape.openBlocks`, `mem_lineNodes_places_iff`).

`Outline.places` is the outline with the places of the lines instead of the lines, and
`places_wellNested` puts everything together.
-/

namespace RankMetric

/-! ### Open blocks -/

namespace Shape

/-- How many blocks are open behind a line if `n` blocks are open before it. -/
def openBehind (n : Nat) : Shape → Nat
  | opening => n + 1
  | closing => n - 1
  | plain => n

/-- How many blocks are open behind some lines. -/
def openBlocks (ks : List Shape) : Nat :=
  ks.foldl openBehind 0

end Shape

namespace Outline

open Shape

variable {α β : Type} {shape : α → Shape} {outermost : Bool} {o r : Outline α} {l : List α}
  {a : α} {n : Nat}

/-! ### Nested outlines -/

/-- How lines nest. Only at the outermost level may a closing line stand alone, and only at the end
may a block be left open. -/
inductive Nested (shape : α → Shape) : Bool → Outline α → Prop
  | nil {outermost : Bool} : Nested shape outermost .nil
  | line {outermost : Bool} {a : α} {rest : Outline α}
      (alone : shape a = .plain ∨ outermost = true ∧ shape a = .closing)
      (restNested : Nested shape outermost rest) : Nested shape outermost (.line a rest)
  | block {outermost : Bool} {a c : α} {inner rest : Outline α} (opening : shape a = .opening)
      (closing : shape c = .closing) (innerBalanced : Balanced shape inner)
      (restNested : Nested shape outermost rest) :
      Nested shape outermost (.block a inner (some c) rest)
  | openBlock {outermost : Bool} {a : α} {inner : Outline α} (opening : shape a = .opening)
      (innerNested : Nested shape false inner) : Nested shape outermost (.block a inner none .nil)

theorem Balanced.nested_append (h : o.Balanced shape) (hr : r.Nested shape outermost) :
    (o.append r).Nested shape outermost := by
  induction h with
  | nil => exact hr
  | line plain _ ih => exact .line (.inl plain) ih
  | block opening closing hinner _ _ ih => exact .block opening closing hinner ih

theorem Balanced.nested (h : o.Balanced shape) : o.Nested shape outermost := by
  have happend : (o.append .nil).Nested shape outermost := h.nested_append .nil
  rwa [append_nil] at happend

/-- What is nested anywhere is nested at the outermost level. -/
theorem Nested.at_outermost (h : o.Nested shape outermost) : o.Nested shape true := by
  induction h with
  | nil => exact .nil
  | line alone _ ih => exact .line (alone.imp_right fun h ↦ ⟨rfl, h.2⟩) ih
  | block opening closing hinner _ ih => exact .block opening closing hinner ih
  | openBlock opening hinner _ => exact .openBlock opening hinner

/-! ### The outline of a list is nested -/

/-- How lines nest while closing lines wait: a block that is left open can only be in what follows
the last of them. -/
inductive Waits (shape : α → Shape) : Outline α → List (α × Outline α) → Prop
  | last {here : Outline α} (hereNested : Nested shape false here) : Waits shape here []
  | cons {here after : Outline α} {c : α} {ws : List (α × Outline α)}
      (hereBalanced : Balanced shape here) (closing : shape c = .closing)
      (waits : Waits shape after ws) : Waits shape here ((c, after) :: ws)

theorem Waits.add {d : Draft α} (h : Waits shape d.here d.waiting) (a : α) :
    Waits shape (d.add shape a).here (d.add shape a).waiting := by
  obtain ⟨here, waiting⟩ := d
  unfold Draft.add
  cases ha : shape a with
  | plain =>
    cases h with
    | last hhere => exact .last (.line (.inl ha) hhere)
    | cons hhere hc hws => exact .cons (.line ha hhere) hc hws
  | closing => exact .cons .nil ha h
  | opening =>
    cases h with
    | last hhere => exact .last (.openBlock ha hhere)
    | cons hhere hc hws =>
      -- the block takes what follows its closing line with it
      cases hws with
      | last hafter => exact .last (.block ha hc hhere hafter)
      | cons hafter hd hws => exact .cons (.block ha hc hhere hafter) hd hws

theorem Waits.nested_close {d : Draft α} (h : Waits shape d.here d.waiting) :
    d.close.Nested shape true := by
  obtain ⟨here, waiting⟩ := d
  induction waiting generalizing here with
  | nil =>
    obtain ⟨hhere⟩ := h
    rw [Draft.close, List.foldr_nil, append_nil]
    exact hhere.at_outermost
  | cons w ws ih =>
    cases h with
    | cons hhere hc hws => exact hhere.nested_append (.line (.inr ⟨rfl, hc⟩) (ih _ hws))

theorem nested_ofList (shape : α → Shape) (l : List α) : (ofList shape l).Nested shape true := by
  refine Waits.nested_close ?_
  induction l with
  | nil => exact .last .nil
  | cons a l ih => exact ih.add a

/-! ### A list nests in one way -/

theorem toList_block_some (a : α) (inner : Outline α) (c : α) (rest : Outline α) :
    (block a inner (some c) rest).toList = a :: (inner.toList ++ c :: rest.toList) := by
  simp [toList]

theorem toList_block_none (a : α) (inner : Outline α) :
    (block a inner none .nil).toList = a :: inner.toList := by
  simp [toList]

/-- Reading a block from the right end puts it in front of what follows it. -/
theorem Draft.foldr_add_block {c : α} {inner : Outline α} (ha : shape a = .opening)
    (hc : shape c = .closing) (h : inner.Balanced shape) (rest : Outline α) (d : Draft α) :
    (Outline.block a inner (some c) rest).toList.foldr (Draft.add shape) d =
      { rest.toList.foldr (Draft.add shape) d with
        here := .block a inner (some c) (rest.toList.foldr (Draft.add shape) d).here } := by
  have hclosing : ∀ d, Draft.add shape c d = ⟨.nil, (c, d.here) :: d.waiting⟩ := fun d ↦ by
    rw [Draft.add, hc]
  rw [toList_block_some, List.foldr_cons, List.foldr_append, List.foldr_cons, h.foldr_add, hclosing,
    append_nil, Draft.add, ha]

/-- Reading the lines of a nested outline gives the outline, and within blocks no line waits. -/
theorem Nested.close_foldr_add (h : o.Nested shape outermost) :
    (o.toList.foldr (Draft.add shape) {}).close = o ∧
      (outermost = false → (o.toList.foldr (Draft.add shape) {}).waiting = []) := by
  induction h with
  | nil => exact ⟨rfl, fun _ ↦ rfl⟩
  | @line _ a rest alone _ ih =>
    rw [toList, List.foldr_cons]
    rcases alone with ha | ⟨rfl, ha⟩
    · rw [Draft.add, ha]
      exact ⟨congrArg (Outline.line a) ih.1, ih.2⟩
    · rw [Draft.add, ha]
      exact ⟨congrArg (Outline.line a) ih.1, by simp⟩
  | @block _ a c inner rest opening closing hinner _ ih =>
    rw [Draft.foldr_add_block opening closing hinner]
    exact ⟨congrArg (Outline.block a inner (some c)) ih.1, ih.2⟩
  | @openBlock _ a inner opening _ ih =>
    obtain ⟨hclose, hwaiting⟩ := ih
    rw [Draft.close, hwaiting rfl, List.foldr_nil, append_nil] at hclose
    rw [toList_block_none, List.foldr_cons, Draft.add, opening, hwaiting rfl, hclose]
    exact ⟨rfl, fun _ ↦ rfl⟩

/-- **A list nests in one way**: its outline is the nested one with its lines. -/
theorem ofList_eq_iff : ofList shape l = o ↔ o.toList = l ∧ o.Nested shape true := by
  constructor
  · rintro rfl
    exact ⟨toList_ofList shape l, nested_ofList shape l⟩
  · rintro ⟨rfl, h⟩
    exact h.close_foldr_add.1

/-! ### Single nodes -/

/-- The parts of an outline that begin with a node, for nodes at any depth: the node and its later
siblings. -/
def nodes : Outline α → List (Outline α)
  | nil => []
  | line a rest => line a rest :: rest.nodes
  | block a inner c rest => block a inner c rest :: (inner.nodes ++ rest.nodes)

/-- The lines that are nodes of the outline itself, and so are in none of its blocks. -/
def lineNodes : Outline α → List α
  | nil => []
  | line a rest => a :: rest.lineNodes
  | block _ _ _ rest => rest.lineNodes

theorem lineNodes_map (f : α → β) (o : Outline α) : (o.map f).lineNodes = o.lineNodes.map f := by
  induction o with
  | nil => rfl
  | line a rest ih => exact congrArg (f a :: ·) ih
  | block a inner c rest _ ih => exact ih

/-- How the lines of an outline nest, node by node. -/
structure WellNested (shape : α → Shape) (o : Outline α) : Prop where
  /-- Opening lines open blocks. -/
  opening : ∀ a inner c rest, .block a inner c rest ∈ o.nodes → shape a = .opening
  /-- Closing lines close them. -/
  closing : ∀ a inner c rest, .block a inner (some c) rest ∈ o.nodes → shape c = .closing
  /-- A line that stands alone in a block is plain. -/
  inside : ∀ a inner c rest, .block a inner c rest ∈ o.nodes →
    ∀ b ∈ inner.lineNodes, shape b = .plain
  /-- A line that stands alone outside all blocks does not open one. -/
  outside : ∀ a ∈ o.lineNodes, shape a ≠ .opening
  /-- A block that is left open is the last of its siblings. -/
  openLast : ∀ a inner rest, .block a inner none rest ∈ o.nodes → rest = .nil
  /-- A block that is closed has no block in it that is left open. -/
  closedInside : ∀ a inner c rest, .block a inner (some c) rest ∈ o.nodes →
    ∀ b inside d after, .block b inside d after ∈ inner.nodes → d.isSome = true

theorem Nested.shape_of_mem_lineNodes (h : o.Nested shape outermost) (ha : a ∈ o.lineNodes) :
    shape a = .plain ∨ outermost = true ∧ shape a = .closing := by
  induction h with
  | nil => cases ha
  | line alone _ ih =>
    rcases List.mem_cons.1 ha with rfl | ha
    · exact alone
    · exact ih ha
  | block _ _ _ _ ih => exact ih ha
  | openBlock _ _ _ => cases ha

theorem Balanced.of_mem_nodes (h : o.Balanced shape) (hr : r ∈ o.nodes) : r.Balanced shape := by
  induction h with
  | nil => cases hr
  | line plain hrest ih =>
    rcases List.mem_cons.1 hr with rfl | hr
    · exact .line plain hrest
    · exact ih hr
  | block opening closing hinner hrest ih₁ ih₂ =>
    rw [nodes, List.mem_cons, List.mem_append] at hr
    rcases hr with rfl | hr | hr
    · exact .block opening closing hinner hrest
    · exact ih₁ hr
    · exact ih₂ hr

/-- Every part of a nested outline is nested, inside a block or outside. -/
theorem Nested.exists_of_mem_nodes (h : o.Nested shape outermost) (hr : r ∈ o.nodes) :
    ∃ outermost, r.Nested shape outermost := by
  induction h with
  | nil => cases hr
  | @line outermost a rest alone hrest ih =>
    rcases List.mem_cons.1 hr with rfl | hr
    · exact ⟨outermost, .line alone hrest⟩
    · exact ih hr
  | @block outermost a c inner rest opening closing hinner hrest ih =>
    rw [nodes, List.mem_cons, List.mem_append] at hr
    rcases hr with rfl | hr | hr
    · exact ⟨outermost, .block opening closing hinner hrest⟩
    · exact ⟨outermost, (hinner.of_mem_nodes hr).nested⟩
    · exact ih hr
  | @openBlock outermost a inner opening hinner ih =>
    rw [nodes, List.mem_cons, List.mem_append] at hr
    rcases hr with rfl | hr | hr
    · exact ⟨outermost, .openBlock opening hinner⟩
    · exact ih hr
    · cases hr

/-- What a block of a nested outline is like. -/
theorem Nested.of_block {inner rest : Outline α} {c : Option α}
    (h : (Outline.block a inner c rest).Nested shape outermost) :
    shape a = .opening ∧ (∀ d ∈ c, shape d = .closing ∧ inner.Balanced shape) ∧
      inner.Nested shape false ∧ (c = none → rest = .nil) := by
  cases h with
  | block opening closing hinner _ =>
    exact ⟨opening, by simpa using ⟨closing, hinner⟩, hinner.nested, by simp⟩
  | openBlock opening hinner => exact ⟨opening, by simp, hinner, fun _ ↦ rfl⟩

theorem Nested.wellNested (h : o.Nested shape true) : o.WellNested shape := by
  have hblock : ∀ {a inner c rest}, Outline.block a inner c rest ∈ o.nodes →
      shape a = .opening ∧ (∀ d ∈ c, shape d = .closing ∧ inner.Balanced shape) ∧
        inner.Nested shape false ∧ (c = none → rest = .nil) := by
    intro a inner c rest hr
    obtain ⟨_, hr⟩ := h.exists_of_mem_nodes hr
    exact hr.of_block
  refine ⟨fun a inner c rest hr ↦ (hblock hr).1, fun a inner c rest hr ↦ ?_,
    fun a inner c rest hr b hb ↦ ?_, fun a ha ↦ ?_, fun a inner rest hr ↦ (hblock hr).2.2.2 rfl,
    fun a inner c rest hr b inside d after hb ↦ ?_⟩
  · exact ((hblock hr).2.1 c rfl).1
  · simpa using (hblock hr).2.2.1.shape_of_mem_lineNodes hb
  · rcases h.shape_of_mem_lineNodes ha with ha | ⟨-, ha⟩ <;> simp [ha]
  · obtain ⟨⟩ := ((hblock hr).2.1 c rfl).2.of_mem_nodes hb
    rfl

/-- What is nested, with all lines outside blocks plain and all blocks closed, is balanced. -/
theorem Nested.balanced (h : o.Nested shape outermost) (hline : ∀ a ∈ o.lineNodes, shape a = .plain)
    (hclosed : ∀ b inside d after, .block b inside d after ∈ o.nodes → d.isSome = true) :
    o.Balanced shape := by
  induction h with
  | nil => exact .nil
  | line _ _ ih =>
    obtain ⟨ha, hline⟩ := List.forall_mem_cons.1 hline
    exact .line ha (ih hline fun b inside d after hb ↦
      hclosed b inside d after (List.mem_cons_of_mem _ hb))
  | block opening closing hinner _ ih =>
    exact .block opening closing hinner (ih hline fun b inside d after hb ↦
      hclosed b inside d after (List.mem_cons_of_mem _ (List.mem_append_right _ hb)))
  | openBlock _ _ _ => exact absurd (hclosed _ _ _ _ List.mem_cons_self) (by simp)

namespace WellNested

theorem of_subset (h : o.WellNested shape) (hr : r.nodes ⊆ o.nodes)
    (houtside : ∀ a ∈ r.lineNodes, shape a ≠ .opening) : r.WellNested shape where
  opening a inner c rest hb := h.opening a inner c rest (hr hb)
  closing a inner c rest hb := h.closing a inner c rest (hr hb)
  inside a inner c rest hb := h.inside a inner c rest (hr hb)
  outside := houtside
  openLast a inner rest hb := h.openLast a inner rest (hr hb)
  closedInside a inner c rest hb := h.closedInside a inner c rest (hr hb)

theorem nested (h : o.WellNested shape)
    (hline : outermost = false → ∀ a ∈ o.lineNodes, shape a = .plain) :
    o.Nested shape outermost := by
  induction o generalizing outermost with
  | nil => exact .nil
  | line a rest ih =>
    have hrest : rest.WellNested shape :=
      h.of_subset (List.subset_cons_self _ _) fun b hb ↦ h.outside b (List.mem_cons_of_mem a hb)
    refine .line ?_ (ih hrest fun ho b hb ↦ hline ho b (List.mem_cons_of_mem a hb))
    cases outermost with
    | false => exact .inl (hline rfl a List.mem_cons_self)
    | true =>
      have ha := h.outside a List.mem_cons_self
      cases hshape : shape a with
      | opening => exact absurd hshape ha
      | closing => exact .inr ⟨rfl, rfl⟩
      | plain => exact .inl rfl
  | block a inner c rest ih₁ ih₂ =>
    have hself : block a inner c rest ∈ (block a inner c rest).nodes := List.mem_cons_self
    have hlines := h.inside a inner c rest hself
    have hinner : inner.WellNested shape :=
      h.of_subset (fun _ hb ↦ List.mem_cons_of_mem _ (List.mem_append_left _ hb))
        fun b hb ↦ by simp [hlines b hb]
    have hrest : rest.WellNested shape :=
      h.of_subset (fun _ hb ↦ List.mem_cons_of_mem _ (List.mem_append_right _ hb)) h.outside
    have hnested : inner.Nested shape false := ih₁ hinner fun _ ↦ hlines
    cases c with
    | none =>
      obtain rfl := h.openLast a inner rest hself
      exact .openBlock (h.opening a inner none .nil hself) hnested
    | some c =>
      exact .block (h.opening a inner (some c) rest hself) (h.closing a inner c rest hself)
        (hnested.balanced hlines (h.closedInside a inner c rest hself)) (ih₂ hrest hline)

end WellNested

theorem nested_iff : o.Nested shape true ↔ o.WellNested shape :=
  ⟨Nested.wellNested, fun h ↦ h.nested (by simp)⟩

/-! ### Lines that stand alone -/

/-- The lines, each with the number of blocks that are open before it. They are counted line by
line, from `n` on. -/
def counted (shape : α → Shape) (n : Nat) : List α → List (Nat × α)
  | [] => []
  | a :: l => (n, a) :: counted shape (openBehind n (shape a)) l

/-- The lines, each with the number of blocks that are open before it. They are read off an outline
that is itself in `n` blocks. -/
def depths (n : Nat) : Outline α → List (Nat × α)
  | nil => []
  | line a rest => (n, a) :: rest.depths n
  | block a inner c rest =>
    (n, a) :: inner.depths (n + 1) ++ c.toList.map (n + 1, ·) ++ rest.depths n

theorem getElem?_counted (n : Nat) (l : List α) (i : Nat) :
    (counted shape n l)[i]? = l[i]?.map fun a ↦ (((l.take i).map shape).foldl openBehind n, a) := by
  induction l generalizing n i with
  | nil => rfl
  | cons a l ih =>
    cases i with
    | zero => rfl
    | succ i => exact ih _ i

theorem Balanced.counted_append (h : o.Balanced shape) (n : Nat) (more : List α) :
    counted shape n (o.toList ++ more) = o.depths n ++ counted shape n more := by
  induction h generalizing n more with
  | nil => rfl
  | line plain _ ih =>
    rw [toList, List.cons_append, counted, plain, openBehind, ih]
    rfl
  | @block a c inner rest opening closing _ _ ih₁ ih₂ =>
    rw [toList_block_some, List.cons_append, List.append_assoc, List.cons_append, counted, opening,
      openBehind, ih₁, counted, closing, openBehind, Nat.add_sub_cancel, ih₂]
    simp [depths]

/-- **Counting agrees with nesting.** Outside all blocks the count is zero, so it makes no
difference that a closing line which stands alone does not lower it. -/
theorem Nested.counted_eq (h : o.Nested shape outermost) (n : Nat) (hn : outermost = true → n = 0) :
    counted shape n o.toList = o.depths n := by
  induction h generalizing n with
  | nil => rfl
  | @line outermost a rest alone _ ih =>
    have hcount : openBehind n (shape a) = n := by
      rcases alone with ha | ⟨ho, ha⟩
      · rw [ha, openBehind]
      · rw [ha, openBehind, hn ho]
    rw [toList, counted, hcount, ih n hn, depths]
  | @block outermost a c inner rest opening closing hinner _ ih =>
    rw [toList_block_some, counted, opening, openBehind, hinner.counted_append, counted, closing,
      openBehind, Nat.add_sub_cancel, ih n hn]
    simp [depths]
  | @openBlock outermost a inner opening _ ih =>
    rw [toList_block_none, counted, opening, openBehind, ih (n + 1) (by simp)]
    simp [depths]

theorem mem_depths_of_mem_lineNodes (ha : a ∈ o.lineNodes) (n : Nat) : (n, a) ∈ o.depths n := by
  induction o with
  | nil => cases ha
  | line b rest ih =>
    rcases List.mem_cons.1 ha with rfl | ha
    · exact List.mem_cons_self
    · exact List.mem_cons_of_mem _ (ih ha)
  | block b inner c rest _ ih => exact List.mem_append_right _ (ih ha)

theorem le_of_mem_depths {m : Nat} (ha : (m, a) ∈ o.depths n) : n ≤ m := by
  induction o generalizing n with
  | nil => cases ha
  | line b rest ih =>
    rcases List.mem_cons.1 ha with ha | ha
    · exact (Prod.ext_iff.1 ha).1.ge
    · exact ih ha
  | block b inner c rest ih₁ ih₂ =>
    rw [depths, List.mem_append, List.mem_append, List.mem_cons] at ha
    rcases ha with ((ha | ha) | ha) | ha
    · exact (Prod.ext_iff.1 ha).1.ge
    · exact (Nat.le_succ n).trans (ih₁ ha)
    · obtain ⟨d, -, hd⟩ := List.mem_map.1 ha
      exact (Nat.le_succ n).trans (Prod.ext_iff.1 hd).1.le
    · exact ih₂ ha

/-- A closing line in no block of the outline stands alone. -/
theorem Fits.mem_lineNodes (h : o.Fits shape) (hclosing : shape a = .closing)
    (ha : (n, a) ∈ o.depths n) : a ∈ o.lineNodes := by
  induction o with
  | nil => cases ha
  | line b rest ih =>
    rcases List.mem_cons.1 ha with ha | ha
    · obtain rfl : a = b := (Prod.ext_iff.1 ha).2
      exact List.mem_cons_self
    · exact List.mem_cons_of_mem b (ih h.2 ha)
  | block b inner c rest _ ih =>
    rw [depths, List.mem_append, List.mem_append, List.mem_cons] at ha
    rcases ha with ((ha | ha) | ha) | ha
    · obtain rfl : a = b := (Prod.ext_iff.1 ha).2
      rw [h.1] at hclosing
      cases hclosing
    · exact absurd (le_of_mem_depths ha) (Nat.not_succ_le_self n)
    · obtain ⟨d, -, hd⟩ := List.mem_map.1 ha
      exact absurd (Prod.ext_iff.1 hd).1 (Nat.succ_ne_self n)
    · exact ih h.2.2.2 ha

/-! ### Places -/

/-- The shape of a line, and `plain` where there is no line. -/
def shapeAt (ks : List Shape) (i : Nat) : Shape :=
  ks[i]?.getD .plain

/-- The outline of a list of which the shapes are given, with the places of the lines in the list
for the lines. -/
def places (ks : List Shape) : Outline Nat :=
  ofList (shapeAt ks) (List.range ks.length)

theorem toList_places (ks : List Shape) : (places ks).toList = List.range ks.length :=
  toList_ofList _ _

/-- The shape of a line that may be missing. -/
def optionalShape (shape : α → Shape) (a : Option α) : Shape :=
  (a.map shape).getD .plain

theorem optionalShape_getElem? (shape : α → Shape) (l : List α) (i : Nat) :
    optionalShape shape l[i]? = shapeAt (l.map shape) i := by
  rw [optionalShape, shapeAt, List.getElem?_map]

/-- With the lines put in their places it is the outline of the list. -/
theorem map_places (shape : α → Shape) (l : List α) :
    (places (l.map shape)).map (l[·]?) = (ofList shape l).map some := by
  have hlines : (List.range (l.map shape).length).map (l[·]?) = l.map some :=
    List.ext_getElem (by simp) fun i _ _ ↦ by simp
  have hsome : ofList (optionalShape shape) (l.map some) = (ofList shape l).map some :=
    ofList_map (fun _ ↦ rfl) l
  rw [places, ← ofList_map (optionalShape_getElem? shape l), hlines, hsome]

theorem map_shapeAt_range (ks : List Shape) : (List.range ks.length).map (shapeAt ks) = ks :=
  List.ext_getElem (by simp) fun i _ hi ↦ by simp [shapeAt, hi]

/-- What counting says of each place. -/
theorem depths_places (ks : List Shape) :
    (places ks).depths 0 = (List.range ks.length).map fun i ↦ (openBlocks (ks.take i), i) := by
  rw [places, ← (nested_ofList _ _).counted_eq 0 fun _ ↦ rfl]
  refine List.ext_getElem? fun i ↦ ?_
  rw [toList_ofList, getElem?_counted, List.map_take, map_shapeAt_range, List.getElem?_map]
  refine Option.map_congr fun j hj ↦ ?_
  obtain ⟨_, hj⟩ := List.getElem?_eq_some_iff.1 hj
  obtain rfl : i = j := by rwa [List.getElem_range] at hj
  rfl

/-- A closing line stands alone if and only if no block is open before it. -/
theorem mem_lineNodes_places_iff {ks : List Shape} {i : Nat} (hi : ks[i]? = some .closing) :
    i ∈ (places ks).lineNodes ↔ openBlocks (ks.take i) = 0 := by
  constructor
  · intro hmem
    have hdepth := mem_depths_of_mem_lineNodes hmem 0
    rw [depths_places] at hdepth
    obtain ⟨j, -, hj⟩ := List.mem_map.1 hdepth
    obtain ⟨hclosed, rfl⟩ := Prod.ext_iff.1 hj
    exact hclosed
  · intro hclosed
    have hdepth : (0, i) ∈ (places ks).depths 0 := by
      rw [depths_places, List.mem_map]
      exact ⟨i, List.mem_range.2 (List.getElem?_eq_some_iff.1 hi).1, by rw [hclosed]⟩
    exact (fits_ofList _ _).mem_lineNodes (by rw [shapeAt, hi, Option.getD_some]) hdepth

/-- **The outline of a list is an exact fold of it.** Let the lines be numbered by their places in
the list. Reading the outline in order gives every place once, from the first to the last. At any
depth opening lines open blocks, closing lines close them, and a block that is left open is the last
of its siblings. The other lines are plain, but for those closing lines before which no
block is open: these stand alone outside all blocks. There is no other such outline. -/
theorem places_wellNested (shape : α → Shape) (l : List α) :
    (places (l.map shape)).map (l[·]?) = (ofList shape l).map some ∧
      (places (l.map shape)).toList = List.range l.length ∧
      (places (l.map shape)).WellNested (shapeAt (l.map shape)) ∧
      (∀ i, (l.map shape)[i]? = some .closing →
        (i ∈ (places (l.map shape)).lineNodes ↔ openBlocks ((l.map shape).take i) = 0)) ∧
      ∀ o, o.toList = List.range l.length → o.WellNested (shapeAt (l.map shape)) →
        o = places (l.map shape) := by
  have hlength : (l.map shape).length = l.length := List.length_map shape
  refine ⟨map_places shape l, ?_, (nested_ofList _ _).wellNested,
    fun i ↦ mem_lineNodes_places_iff, fun o ho hnested ↦ ?_⟩
  · rw [toList_places, hlength]
  · exact (ofList_eq_iff.2 ⟨by rw [ho, hlength], nested_iff.2 hnested⟩).symm

example : places [.closing, .opening, .plain, .opening, .plain, .closing] =
    .line 0 (.block 1 (.line 2 (.block 3 (.line 4 .nil) (some 5) .nil)) none .nil) := by
  decide

end Outline

end RankMetric
