import RankMetric.Proofs.ListNesting
import RankMetric.Proofs.PropagationClosure

/-!
# The strategies compared

Both strategies bring the brace lines of a block to the level of what the block encloses. Raising
by neighbours looks one line back from a closing line and one line ahead of an opening line, and
raising by blocks looks at all lines of the outermost block.

* If no closing line is stray, a brace line and the neighbour it looks at are in one outermost block
  (`Outline.Nested.nodeAt_succ_of_opening`, `nodeAt_succ_of_closing`). Chains of braces stay in it
  as well, so raising by neighbours takes no level that raising by blocks does not take
  (`TakesByNeighbours.mem_blockAt`), and leaves no line above the level that it has there
  (`lifts_byNeighbours_byBlocks`). A stray closing line is in no block and may be raised by the line
  before it.
* A `Tower` is a block of one line, or blocks of one line in each other. In a list of towers the two
  strategies come to the same if and only if no brace line is above the line that its tower encloses
  (`byNeighbours_eq_byBlocks_iff`): what a condition needs beyond that is seen by blocks only.
-/

namespace RankMetric

open List (Forall₂)

/-- Lists made of equally long parts are related part by part. -/
theorem forall₂_of_forall₂_flatMap {α β : Type} {R : α → α → Prop} {f g : β → List α} {l : List β}
    (hlength : ∀ b, (g b).length = (f b).length) (h : Forall₂ R (l.flatMap f) (l.flatMap g)) :
    ∀ b ∈ l, Forall₂ R (f b) (g b) := by
  induction l with
  | nil => simp
  | cons b l ih =>
    rw [List.flatMap_cons, List.flatMap_cons] at h
    have hhead := List.forall₂_take_append _ _ _ h
    have htail := List.forall₂_drop_append _ _ _ h
    rw [hlength, List.take_left] at hhead
    rw [hlength, List.drop_left] at htail
    exact List.forall_mem_cons.2 ⟨hhead, ih htail⟩

namespace Shape

/-- Every closing line closes a block: there is one that is open before it. -/
def NoneStray (ks : List Shape) : Prop :=
  ∀ i < ks.length, ks[i]? = some .closing → 0 < openBlocks (ks.take i)

instance : DecidablePred NoneStray :=
  fun ks ↦ inferInstanceAs (Decidable (∀ i < ks.length, _ → _))

end Shape

/-! ### Neighbours in one block -/

namespace Outline

variable {α : Type} {shape : α → Shape} {outermost : Bool} {o : Outline α} {a : α} {i : Nat}

/-- Behind an opening line goes on the block that it opens. -/
theorem Nested.nodeAt_succ_of_opening (h : o.Nested shape outermost)
    (hi : o.toList[i]? = some a) (ha : shape a = .opening) (hnext : i + 1 < o.toList.length) :
    o.nodeAt (i + 1) = o.nodeAt i := by
  induction h generalizing i with
  | nil => cases hi
  | line alone _ ih =>
    cases i with
    | zero =>
      obtain rfl := Option.some.inj hi
      simp [ha] at alone
    | succ i => exact ih hi (Nat.lt_of_succ_lt_succ hnext)
  | @block _ b c inner rest opening closing hinner _ ih =>
    rcases Nat.lt_or_ge (i + 1) (blockLines b inner (some c)).length with hlt | hge
    · rw [nodeAt_of_lt hlt, nodeAt_of_lt (Nat.lt_of_succ_lt hlt)]
    · rcases Nat.lt_or_ge i (blockLines b inner (some c)).length with hlt | hge
      · -- the last line of the block closes it
        have hlength : (blockLines b inner (some c)).length = inner.toList.length + 2 := by
          simp [blockLines]
        have hlast : i = (b :: inner.toList).length := by
          rw [List.length_cons]
          omega
        rw [toList_block, List.getElem?_append_left hlt, hlast] at hi
        have hc : (blockLines b inner (some c))[(b :: inner.toList).length]? = some c :=
          List.getElem?_concat_length
        obtain rfl := Option.some.inj (hc.symm.trans hi)
        simp [ha] at closing
      · obtain ⟨j, rfl⟩ := Nat.exists_eq_add_of_le hge
        rw [getElem?_toList_length_add] at hi
        rw [toList_block, List.length_append] at hnext
        rw [Nat.add_assoc, nodeAt_length_add, nodeAt_length_add]
        exact ih hi (by omega)
  | @openBlock _ b inner opening _ _ =>
    rw [toList_block, toList, List.append_nil] at hnext
    rw [nodeAt_of_lt hnext, nodeAt_of_lt (Nat.lt_of_succ_lt hnext)]

/-- The first line closes no block. -/
theorem Nested.shape_head_ne (h : o.Nested shape outermost)
    (hstray : ∀ a ∈ o.lineNodes, shape a ≠ .closing) (ha : o.toList[0]? = some a) :
    shape a ≠ .closing := by
  cases h with
  | nil => cases ha
  | line _ _ =>
    obtain rfl := Option.some.inj ha
    exact hstray _ List.mem_cons_self
  | block opening _ _ _ =>
    obtain rfl := Option.some.inj ha
    simp [opening]
  | openBlock opening _ =>
    obtain rfl := Option.some.inj ha
    simp [opening]

/-- Before a closing line goes the block that it closes. -/
theorem Nested.nodeAt_succ_of_closing (h : o.Nested shape outermost)
    (hstray : ∀ a ∈ o.lineNodes, shape a ≠ .closing) (hi : o.toList[i + 1]? = some a)
    (ha : shape a = .closing) : o.nodeAt (i + 1) = o.nodeAt i := by
  induction h generalizing i with
  | nil => cases hi
  | line _ hrest ih =>
    obtain ⟨-, hstray⟩ := List.forall_mem_cons.1 hstray
    cases i with
    | zero => exact absurd ha (hrest.shape_head_ne hstray hi)
    | succ i => exact ih hstray hi
  | @block _ b c inner rest _ _ _ hrest ih =>
    rcases Nat.lt_trichotomy (i + 1) (blockLines b inner (some c)).length with hlt | heq | hgt
    · rw [nodeAt_of_lt hlt, nodeAt_of_lt (Nat.lt_of_succ_lt hlt)]
    · have hhead : rest.toList[0]? = some a := by
        rw [← getElem?_toList_length_add b inner (some c), Nat.add_zero, ← heq, hi]
      exact absurd ha (hrest.shape_head_ne hstray hhead)
    · obtain ⟨j, rfl⟩ := Nat.exists_eq_add_of_le (Nat.le_of_lt_succ hgt)
      rw [Nat.add_assoc, getElem?_toList_length_add] at hi
      rw [Nat.add_assoc, nodeAt_length_add, nodeAt_length_add]
      exact ih hstray hi
  | @openBlock _ b inner _ _ _ =>
    have hlt : i + 1 < (blockLines b inner none).length := by
      have hlength := (List.getElem?_eq_some_iff.1 hi).1
      rwa [toList_block, toList, List.append_nil] at hlength
    rw [nodeAt_of_lt hlt, nodeAt_of_lt (Nat.lt_of_succ_lt hlt)]

end Outline

/-! ### Raising by neighbours raises no further -/

namespace Propagation

variable {ss : List Statement} {s x : Statement} {i : Nat}

/-- Where no closing line is stray, none stands alone. -/
theorem shape_ne_of_mem_lineNodes (h : Shape.NoneStray (ss.map Statement.shape))
    (hs : s ∈ (Outline.ofList Statement.shape ss).lineNodes) : s.shape ≠ .closing := by
  intro hclosing
  have hplaces : some s ∈ (Outline.places (ss.map Statement.shape)).lineNodes.map (ss[·]?) := by
    rw [← Outline.lineNodes_map, Outline.map_places, Outline.lineNodes_map]
    exact List.mem_map_of_mem hs
  obtain ⟨i, hi, hget⟩ := List.mem_map.1 hplaces
  have hshape : (ss.map Statement.shape)[i]? = some .closing := by
    rw [List.getElem?_map, hget, Option.map_some, hclosing]
  exact (h i (List.getElem?_eq_some_iff.1 hshape).1 hshape).ne'
    ((Outline.mem_lineNodes_places_iff hshape).1 hi)

/-- **Chains of braces stay in their block**: where no closing line is stray, what is taken by
neighbours is taken by blocks. -/
theorem TakesByNeighbours.mem_blockAt (hstray : Shape.NoneStray (ss.map Statement.shape))
    (h : TakesByNeighbours ss i x) : x ∈ blockAt ss i := by
  have hnested := Outline.nested_ofList Statement.shape ss
  have hlines : ∀ {i : Nat}, (Outline.ofList Statement.shape ss).toList[i]? = ss[i]? := by
    simp [Outline.toList_ofList]
  induction h with
  | own hs => exact Propagation.mem_blockAt hs
  | before hs hclosing _ ih =>
    rw [blockAt, hnested.nodeAt_succ_of_closing (fun _ ↦ shape_ne_of_mem_lineNodes hstray)
      (hlines.trans hs) hclosing]
    exact ih
  | after hs hopening hx ih =>
    rw [blockAt, ← hnested.nodeAt_succ_of_opening (hlines.trans hs) hopening
      (by rw [Outline.toList_ofList]; exact hx.lt_length)]
    exact ih

/-- **Raising by neighbours raises no further than raising by blocks**, if every closing line has an
opening line. Blocks may be left open. -/
theorem lifts_byNeighbours_byBlocks (h : Shape.NoneStray (ss.map Statement.shape)) :
    Forall₂ Statement.Lifts (byNeighbours ss) (byBlocks ss) := by
  have hlength : (byNeighbours ss).length = (byBlocks ss).length :=
    (length_apply .heuristic ss).trans (length_apply .blockTree ss).symm
  refine forall₂_of_getElem? hlength fun i s s' hs hs' ↦ ?_
  obtain ⟨u, hu, hlifts, -⟩ := exists_getElem?_of_forall₂ (keeps_byNeighbours ss) hs
  obtain ⟨u', hu', hlifts'⟩ := exists_getElem?_of_forall₂ (lifts_byBlocks ss) hs'
  obtain rfl := Option.some.inj (hu.symm.trans hu')
  refine hlifts.lifts_of_level_le hlifts' ?_
  obtain ⟨x, hx, hlevel⟩ := exists_takes_byNeighbours hs
  have hblock : Propagation.blockTree.Takes ss i x := hx.mem_blockAt h
  exact hlevel.symm.le.trans ((le_level_apply_iff (p := .blockTree) hs').2 ⟨x, hblock, le_rfl⟩)

/-- A block in a block that is left open. The condition of the outer block reads a quantity of the
term, and the inner block encloses a line that reads one of the document. -/
def openGates : List Statement := [
  ⟨1, .perTerm, "if (f_dt > 1) \x7b".toList, .evaluation ["f_dt".toList]⟩,
  ⟨2, .constant, "w = 1;".toList, .evaluation []⟩,
  ⟨3, .constant, "if (w) \x7b".toList, .evaluation []⟩,
  ⟨4, .perDocument, "y = D_terms;".toList, .evaluation ["D_terms".toList]⟩,
  ⟨5, .constant, ['\x7d'], .evaluation []⟩]

theorem lifts_byNeighbours_byBlocks_openGates :
    Shape.NoneStray (openGates.map Statement.shape) ∧
      Forall₂ Statement.Lifts (byNeighbours openGates) (byBlocks openGates) ∧
      (byNeighbours openGates).map Statement.level =
        [.perTerm, .constant, .perDocument, .perDocument, .perDocument] ∧
      (byBlocks openGates).map Statement.level = List.replicate 5 .perTerm := by
  have hstray : Shape.NoneStray (openGates.map Statement.shape) := by decide +kernel
  exact ⟨hstray, lifts_byNeighbours_byBlocks hstray, by decide +kernel, by decide +kernel⟩

/-- The line before a stray closing line raises it, and no block does. -/
example : (byNeighbours (openGates.drop 3)).map Statement.level = [.perDocument, .perDocument] ∧
    (byBlocks (openGates.drop 3)).map Statement.level = [.perDocument, .constant] := by
  decide +kernel

end Propagation

/-! ### Towers -/

/-- Opening lines, one plain line, and as many closing lines. If there are none of either, it is a
plain line outside all blocks. -/
structure Tower where
  openers : List Statement
  inner : Statement
  closers : List Statement
  opening : ∀ s ∈ openers, s.shape = .opening
  plain : inner.shape = .plain
  closing : ∀ s ∈ closers, s.shape = .closing
  length_eq : openers.length = closers.length

namespace Outline

variable {α : Type} {shape : α → Shape} {o : Outline α}

theorem append_assoc (o r t : Outline α) : (o.append r).append t = o.append (r.append t) := by
  induction o with
  | nil => rfl
  | line a rest ih => rw [append, append, ih, append]
  | block a inner c rest _ ih => rw [append, append, ih, append]

theorem mapBlocks_append (f : List α → α → α) (o r : Outline α) :
    (o.append r).mapBlocks f = (o.mapBlocks f).append (r.mapBlocks f) := by
  induction o with
  | nil => rfl
  | line a rest ih => rw [append, mapBlocks, ih, mapBlocks, append]
  | block a inner c rest _ ih => rw [append, mapBlocks, ih, mapBlocks, append]

/-- Lines that are balanced nest by themselves, whatever follows. -/
theorem Balanced.ofList_append (h : o.Balanced shape) (l : List α) :
    ofList shape (o.toList ++ l) = o.append (ofList shape l) := by
  rw [ofList, List.foldr_append, h.foldr_add, Draft.close, append_assoc]
  rfl

/-- As many closing lines as opening lines around a plain line make one node. -/
theorem exists_node {openers closers : List α} {a : α}
    (hopening : ∀ b ∈ openers, shape b = .opening) (ha : shape a = .plain)
    (hclosing : ∀ b ∈ closers, shape b = .closing) (hlength : openers.length = closers.length) :
    ∃ o : Outline α, o.Balanced shape ∧ o.toList = openers ++ a :: closers ∧
      ∀ f : List α → α → α, (∀ b, f [b] b = b) →
        (o.mapBlocks f).toList = o.toList.map (f o.toList) := by
  induction openers generalizing closers with
  | nil =>
    obtain rfl := List.eq_nil_of_length_eq_zero hlength.symm
    exact ⟨.line a .nil, .line ha .nil, rfl, fun f hf ↦ congrArg ([·]) (hf a).symm⟩
  | cons b openers ih =>
    obtain ⟨hb, hopening⟩ := List.forall_mem_cons.1 hopening
    rcases List.eq_nil_or_concat' closers with rfl | ⟨closers, c, rfl⟩
    · cases hlength
    · have hinside : ∀ d ∈ closers, shape d = .closing := fun d hd ↦ hclosing d (by simp [hd])
      obtain ⟨inner, hinner, hlines, -⟩ := ih hopening hinside (by simpa using hlength)
      refine ⟨.block b inner (some c) .nil, .block hb (hclosing c (by simp)) hinner .nil, ?_,
        fun f _ ↦ ?_⟩
      · simp [toList, hlines]
      · simp [mapBlocks, toList, toList_map, blockLines]

end Outline

namespace Propagation

/-- Opening lines hand no level on to the lines behind them. -/
theorem liftClosing_openers {openers : List Statement} (h : ∀ s ∈ openers, s.shape = .opening)
    {x : Statement} (hx : x.shape = .plain) (l : Level) (ss : List Statement) :
    liftClosing l (openers ++ x :: ss) = openers ++ x :: liftClosing x.level ss := by
  induction openers generalizing l with
  | nil => simp [liftClosing, hx]
  | cons s openers ih =>
    obtain ⟨hs, h⟩ := List.forall_mem_cons.1 h
    simp [liftClosing, hs, ih h]

/-- Closing lines hand the level before them on if none of them is above it. -/
theorem liftClosing_closers {closers : List Statement} (h : ∀ s ∈ closers, s.shape = .closing)
    {l : Level} (hlow : ∀ s ∈ closers, s.level ≤ l) (ss : List Statement) :
    liftClosing l (closers ++ ss) = closers.map (Statement.raise l) ++ liftClosing l ss := by
  induction closers with
  | nil => rfl
  | cons s closers ih =>
    obtain ⟨hs, h⟩ := List.forall_mem_cons.1 h
    obtain ⟨hl, hlow⟩ := List.forall_mem_cons.1 hlow
    rw [List.cons_append, liftClosing, if_pos hs, Statement.raise_level, max_eq_right hl, ih h hlow,
      List.map_cons, List.cons_append]

/-- Lines that open no block hand no level on to the lines before them. -/
theorem liftOpening_append_of_ne {xs : List Statement} (h : ∀ s ∈ xs, s.shape ≠ .opening)
    (ss : List Statement) : liftOpening (xs ++ ss) = xs ++ liftOpening ss := by
  induction xs with
  | nil => rfl
  | cons s xs ih =>
    obtain ⟨hs, h⟩ := List.forall_mem_cons.1 h
    rw [List.cons_append, liftOpening, if_neg hs, ih h, List.cons_append]

/-- Opening lines hand the level behind them on if none of them is above it. -/
theorem liftOpening_openers {openers : List Statement} (h : ∀ s ∈ openers, s.shape = .opening)
    {x : Statement} (hx : x.shape = .plain) (hlow : ∀ s ∈ openers, s.level ≤ x.level)
    (ss : List Statement) : liftOpening (openers ++ x :: ss) =
      openers.map (Statement.raise x.level) ++ x :: liftOpening ss := by
  induction openers with
  | nil => simp [liftOpening, hx]
  | cons s openers ih =>
    obtain ⟨hs, h⟩ := List.forall_mem_cons.1 h
    obtain ⟨hl, hlow⟩ := List.forall_mem_cons.1 hlow
    have hhead : headLevel (openers.map (Statement.raise x.level) ++ x :: liftOpening ss) =
        x.level := by
      cases openers with
      | nil => rfl
      | cons u openers => exact max_eq_right (hlow u List.mem_cons_self)
    rw [List.cons_append, liftOpening, if_pos hs, ih h hlow, hhead, List.map_cons, List.cons_append]

/-- What comes behind balanced lines is raised by blocks as if it were alone, and so are they. -/
theorem byBlocks_append {o : Outline Statement} (h : o.Balanced Statement.shape)
    (ss : List Statement) :
    byBlocks (o.toList ++ ss) = (o.mapBlocks raiseToJoin).toList ++ byBlocks ss := by
  rw [byBlocks, h.ofList_append, Outline.mapBlocks_append, Outline.toList_append, byBlocks]

end Propagation

namespace Tower

open Propagation

variable {t : Tower} {ts : List Tower}

/-- The lines in order. -/
def lines (t : Tower) : List Statement :=
  t.openers ++ t.inner :: t.closers

theorem inner_mem_lines (t : Tower) : t.inner ∈ t.lines := by
  simp [lines]

/-- A tower is raised by blocks to the highest level in it. -/
theorem byBlocks_lines_append (t : Tower) (ss : List Statement) :
    byBlocks (t.lines ++ ss) = t.lines.map (raiseToJoin t.lines) ++ byBlocks ss := by
  obtain ⟨o, hbalanced, hlines, hmap⟩ :=
    Outline.exists_node t.opening t.plain t.closing t.length_eq
  have hblock := byBlocks_append hbalanced ss
  rwa [hmap raiseToJoin raiseToJoin_singleton, hlines] at hblock

theorem byBlocks_flatMap_lines (ts : List Tower) :
    byBlocks (ts.flatMap lines) = ts.flatMap fun t ↦ t.lines.map (raiseToJoin t.lines) := by
  induction ts with
  | nil => rfl
  | cons t ts ih => rw [List.flatMap_cons, byBlocks_lines_append, ih, List.flatMap_cons]

/-! ### Towers raised by neighbours -/

/-- No line is above the line that the tower encloses. -/
def IsLow (t : Tower) : Prop :=
  ∀ s ∈ t.lines, s.level ≤ t.inner.level

theorem IsLow.raiseToJoin_eq (h : t.IsLow) (s : Statement) :
    raiseToJoin t.lines s = s.raise t.inner.level := by
  have hjoin : Level.join (t.lines.map Statement.level) = t.inner.level := by
    refine le_antisymm (Level.join_le_iff.2 ?_)
      (Level.le_join (List.mem_map_of_mem t.inner_mem_lines))
    intro l hl
    obtain ⟨u, hu, rfl⟩ := List.mem_map.1 hl
    exact h u hu
  rw [raiseToJoin, hjoin]

/-- The lines after the forward pass, if no line is above the one that the tower encloses. -/
def closed (t : Tower) : List Statement :=
  t.openers ++ t.inner :: t.closers.map (Statement.raise t.inner.level)

theorem IsLow.liftClosing_lines_append (h : t.IsLow) (l : Level) (ss : List Statement) :
    liftClosing l (t.lines ++ ss) = t.closed ++ liftClosing t.inner.level ss := by
  have hlow : ∀ s ∈ t.closers, s.level ≤ t.inner.level := fun s hs ↦ h s (by simp [lines, hs])
  rw [lines, List.append_assoc, List.cons_append, liftClosing_openers t.opening t.plain,
    liftClosing_closers t.closing hlow, closed, List.append_assoc, List.cons_append]

theorem IsLow.liftOpening_closed_append (h : t.IsLow) (ss : List Statement) :
    liftOpening (t.closed ++ ss) =
      t.lines.map (Statement.raise t.inner.level) ++ liftOpening ss := by
  have hlow : ∀ s ∈ t.openers, s.level ≤ t.inner.level := fun s hs ↦ h s (by simp [lines, hs])
  have hclosers : ∀ s ∈ t.closers.map (Statement.raise t.inner.level), s.shape ≠ .opening := by
    intro s hs
    obtain ⟨u, hu, rfl⟩ := List.mem_map.1 hs
    simp [t.closing u hu]
  rw [closed, List.append_assoc, List.cons_append, liftOpening_openers t.opening t.plain hlow,
    liftOpening_append_of_ne hclosers, lines, List.map_append, List.map_cons,
    Statement.raise_eq_self le_rfl, List.append_assoc, List.cons_append]

theorem liftClosing_flatMap_lines (h : ∀ t ∈ ts, t.IsLow) (l : Level) :
    liftClosing l (ts.flatMap lines) = ts.flatMap closed := by
  induction ts generalizing l with
  | nil => rfl
  | cons t ts ih =>
    obtain ⟨ht, h⟩ := List.forall_mem_cons.1 h
    rw [List.flatMap_cons, ht.liftClosing_lines_append, ih h, List.flatMap_cons]

theorem liftOpening_flatMap_closed (h : ∀ t ∈ ts, t.IsLow) :
    liftOpening (ts.flatMap closed) =
      ts.flatMap fun t ↦ t.lines.map (Statement.raise t.inner.level) := by
  induction ts with
  | nil => rfl
  | cons t ts ih =>
    obtain ⟨ht, h⟩ := List.forall_mem_cons.1 h
    rw [List.flatMap_cons, ht.liftOpening_closed_append, ih h, List.flatMap_cons]

/-- Towers without higher brace lines are raised by neighbours to the lines that they enclose. -/
theorem byNeighbours_flatMap_lines (h : ∀ t ∈ ts, t.IsLow) :
    byNeighbours (ts.flatMap lines) =
      ts.flatMap fun t ↦ t.lines.map (Statement.raise t.inner.level) := by
  rw [byNeighbours, liftClosing_flatMap_lines h, liftOpening_flatMap_closed h]

/-! ### Where the strategies agree -/

/-- **The strategies agree on blocks of one line** if and only if no brace line is above the line
that is enclosed. The statements are plain lines and towers in any order. A plain line is a tower
without brace lines. -/
theorem byNeighbours_eq_byBlocks_iff (ts : List Tower) :
    byNeighbours (ts.flatMap lines) = byBlocks (ts.flatMap lines) ↔ ∀ t ∈ ts, t.IsLow := by
  constructor
  · intro heq t ht
    have hkeeps := keeps_byNeighbours (ts.flatMap lines)
    rw [heq, byBlocks_flatMap_lines] at hkeeps
    have hlines := forall₂_of_forall₂_flatMap (fun t ↦ List.length_map _) hkeeps t ht
    rw [List.forall₂_map_right_iff, List.forall₂_same] at hlines
    -- neighbours do not raise the enclosed line, so it is the highest in the block
    have hinner := (hlines t.inner t.inner_mem_lines).2 t.plain
    have hjoin : Level.join (t.lines.map Statement.level) ≤ t.inner.level := by
      rw [← level_raiseToJoin t.inner_mem_lines, hinner]
    exact fun s hs ↦ (Level.le_join (List.mem_map_of_mem hs)).trans hjoin
  · intro h
    rw [byNeighbours_flatMap_lines h, byBlocks_flatMap_lines]
    refine List.flatMap_congr fun t ht ↦ List.map_congr_left fun s _ ↦ ?_
    exact ((h t ht).raiseToJoin_eq s).symm

end Tower

end RankMetric
