import Mathlib.Data.List.InsertIdx
import RankMetric.Proofs.AlikeMetrics
import RankMetric.Proofs.BalancedOutline

/-!
# One more plain line

A line without a brace of its own takes no level from another line. This module says when it keeps
other lines from taking one, if it is put between them and has the lowest level.

* Under `blockTree` it never does. A block has one line more, and that line adds nothing to the
  highest level in it. The proof leaves lines out instead of putting them in: leaving out lines that
  are no brace lines, at any depth, commutes with building the outline
  (`Outline.ofList_filter`) and with changing blocks (`Outline.Fits.mapBlocks_filterLines`).
* Under `heuristic` it does whenever there is something to take. It cuts the list in two, and each
  part is levelled as if it were alone (`byNeighbours_cut`). Without the line the two parts are
  levelled alone too, unless a level is handed over from one to the other
  (`byNeighbours_append`, `HandsOver`).

`map_level_eraseIdx_apply_iff` puts both together.
-/

namespace RankMetric

/-! ### Outlines with lines left out -/

namespace Outline

variable {α : Type} {shape : α → Shape} {p : α → Bool} {o : Outline α}

/-- The outline without the lines that lack a property. The first and the last line of a block
stay. -/
def filterLines (p : α → Bool) : Outline α → Outline α
  | nil => nil
  | line a rest => if p a then line a (rest.filterLines p) else rest.filterLines p
  | block a inner c rest => block a (inner.filterLines p) c (rest.filterLines p)

theorem filterLines_append (p : α → Bool) (o r : Outline α) :
    (o.append r).filterLines p = (o.filterLines p).append (r.filterLines p) := by
  induction o with
  | nil => rfl
  | line a rest ih =>
    rw [append, filterLines, filterLines, ih]
    split <;> rfl
  | block a inner c rest _ ih => rw [append, filterLines, ih, filterLines, append]

/-- The draft without the lines that lack a property. The lines that wait stay. -/
def Draft.filterLines (p : α → Bool) (d : Draft α) : Draft α :=
  ⟨d.here.filterLines p, d.waiting.map fun (c, after) ↦ (c, after.filterLines p)⟩

theorem Draft.filterLines_add_of_pos {a : α} (ha : p a = true) (d : Draft α) :
    (d.add shape a).filterLines p = (d.filterLines p).add shape a := by
  unfold Draft.add
  cases shape a with
  | plain =>
    rw [Draft.filterLines, Outline.filterLines, if_pos ha]
    rfl
  | closing => rfl
  | opening => obtain ⟨here, - | ⟨⟨c, after⟩, ws⟩⟩ := d <;> rfl

theorem Draft.filterLines_add_of_neg {a : α} (hplain : shape a = .plain) (ha : p a = false)
    (d : Draft α) : (d.add shape a).filterLines p = d.filterLines p := by
  rw [Draft.add, hplain, Draft.filterLines, Outline.filterLines, ha]
  rfl

theorem Fits.map {f : α → α} (hf : ∀ a, shape (f a) = shape a) (h : o.Fits shape) :
    (o.map f).Fits shape := by
  induction o with
  | nil => exact trivial
  | line a rest ih => exact ⟨by rw [hf]; exact h.1, ih h.2⟩
  | block a inner c rest ih₁ ih₂ =>
    obtain ⟨ha, hc, hinner, hrest⟩ := h
    refine ⟨(hf a).trans ha, fun d hd ↦ ?_, ih₁ hinner, ih₂ hrest⟩
    obtain ⟨e, he, rfl⟩ := Option.map_eq_some_iff.1 hd
    exact (hf e).trans (hc e he)

/-- Changing the lines of blocks leaves every line in a place that fits it if shapes are kept. -/
theorem Fits.mapBlocks {f : List α → α → α} (hf : ∀ b a, shape (f b a) = shape a)
    (h : o.Fits shape) : (o.mapBlocks f).Fits shape := by
  induction o with
  | nil => exact trivial
  | line a rest ih => exact ⟨h.1, ih h.2⟩
  | block a inner c rest _ ih =>
    obtain ⟨ha, hc, hinner, hrest⟩ := h
    refine ⟨(hf _ a).trans ha, fun d hd ↦ ?_, hinner.map (hf _), ih hrest⟩
    obtain ⟨e, he, rfl⟩ := Option.map_eq_some_iff.1 hd
    exact (hf _ e).trans (hc e he)

variable (hp : ∀ a, shape a ≠ .plain → p a = true)

include hp

theorem Draft.Fits.filterLines_close {d : Draft α} (h : d.Fits shape) :
    d.close.filterLines p = (d.filterLines p).close := by
  obtain ⟨here, waiting⟩ := d
  rw [Draft.close, Draft.close, filterLines_append]
  refine congrArg ((here.filterLines p).append ·) ?_
  have hwaiting := h.waiting
  clear h
  induction waiting with
  | nil => rfl
  | cons w ws ih =>
    obtain ⟨⟨hc, -⟩, hws⟩ := List.forall_mem_cons.1 hwaiting
    -- a line that waits to the end is a closing line, so it stays
    rw [List.foldr_cons, Outline.filterLines, if_pos (hp _ (by simp [hc])), filterLines_append,
      ih hws]
    rfl

/-- **The outline of the lines with a property** is the outline with the other lines left out, if
every line with a brace has the property. -/
theorem ofList_filter (l : List α) :
    ofList shape (l.filter p) = (ofList shape l).filterLines p := by
  have hdraft : (l.filter p).foldr (Draft.add shape) {} =
      (l.foldr (Draft.add shape) {}).filterLines p := by
    induction l with
    | nil => rfl
    | cons a l ih =>
      rw [List.foldr_cons]
      cases ha : p a with
      | true =>
        rw [List.filter_cons_of_pos ha, List.foldr_cons, ih, Draft.filterLines_add_of_pos ha]
      | false =>
        have hplain : shape a = .plain := by
          by_contra hne
          rw [hp a hne] at ha
          cases ha
        rw [List.filter_cons_of_neg (by simp [ha]), ih, Draft.filterLines_add_of_neg hplain ha]
  rw [ofList, ofList, hdraft, (Draft.fits_foldr_add shape l).filterLines_close hp]

theorem Fits.toList_filterLines (h : o.Fits shape) :
    (o.filterLines p).toList = o.toList.filter p := by
  induction o with
  | nil => rfl
  | line a rest ih =>
    rw [filterLines, toList, List.filter_cons]
    split
    · rw [toList, ih h.2]
    · exact ih h.2
  | block a inner c rest ih₁ ih₂ =>
    obtain ⟨ha, hc, hinner, hrest⟩ := h
    have hclosing : c.toList.filter p = c.toList :=
      List.filter_eq_self.2 fun d hd ↦ hp d (by simp [hc d (Option.mem_toList.1 hd)])
    rw [filterLines, toList, toList, ih₁ hinner, ih₂ hrest, List.filter_append, List.filter_append,
      List.filter_cons_of_pos (hp a (by simp [ha])), hclosing]

/-- **Changing blocks and leaving lines out commute**, if what is left out does not count for the
change, and the change does not make a line one that is left out. -/
theorem Fits.mapBlocks_filterLines {f : List α → α → α} (hkeep : ∀ b a, p (f b a) = p a)
    (h : o.Fits shape) (hf : ∀ b ⊆ o.toList, f (b.filter p) = f b) :
    (o.filterLines p).mapBlocks f = (o.mapBlocks f).filterLines p := by
  have hmap : ∀ (b : List α) (o : Outline α),
      (o.map (f b)).filterLines p = (o.filterLines p).map (f b) := by
    intro b o
    induction o with
    | nil => rfl
    | line a rest ih =>
      rw [Outline.map, filterLines, filterLines, hkeep, ih]
      split <;> rfl
    | block a inner c rest ih₁ ih₂ =>
      rw [Outline.map, filterLines, ih₁, ih₂, filterLines, Outline.map]
  induction o with
  | nil => rfl
  | line a rest ih =>
    have hrest := ih h.2 fun b hb ↦ hf b (List.subset_cons_of_subset a hb)
    rw [Outline.mapBlocks, filterLines, filterLines]
    split
    · rw [Outline.mapBlocks, hrest]
    · exact hrest
  | block a inner c rest _ ih =>
    obtain ⟨ha, hc, hinner, hrest⟩ := h
    have hlines : blockLines a (inner.filterLines p) c = (blockLines a inner c).filter p := by
      have hclosing : c.toList.filter p = c.toList :=
        List.filter_eq_self.2 fun d hd ↦ hp d (by simp [hc d (Option.mem_toList.1 hd)])
      rw [blockLines, blockLines, hinner.toList_filterLines hp, List.filter_append,
        List.filter_cons_of_pos (hp a (by simp [ha])), hclosing]
    have hblock := hf _ (List.subset_append_left (blockLines a inner c) rest.toList)
    rw [filterLines, Outline.mapBlocks, Outline.mapBlocks, filterLines, hlines, hblock, hmap,
      ih hrest fun b hb ↦ hf b (List.Subset.trans hb (List.subset_append_right _ _))]

end Outline

/-! ### Numbered lines -/

namespace Statement

/-- The statement with another line number. -/
def atLine (s : Statement) (n : Nat) : Statement :=
  { s with line := n }

@[simp] theorem shape_atLine (s : Statement) (n : Nat) : (s.atLine n).shape = s.shape := rfl

/-- Whether a statement is a line with a brace or has number 0. -/
def isKept (s : Statement) : Bool :=
  s.shape != .plain || s.line == 0

theorem isKept_atLine_zero (s : Statement) : (s.atLine 0).isKept = true :=
  Bool.or_true _

end Statement

namespace Propagation

variable {s c : Statement} {xs ys : List Statement}

/-! ### Raising by blocks -/

/-- **Raising by blocks does not mind plain lines of the lowest level.** -/
theorem byBlocks_filter {p : Statement → Bool} (hp : ∀ s : Statement, s.shape ≠ .plain → p s = true)
    (hraise : ∀ s l, p (Statement.raise l s) = p s) (ss : List Statement)
    (hlevel : ∀ s ∈ ss, p s = false → s.level = .constant) :
    byBlocks (ss.filter p) = (byBlocks ss).filter p := by
  have hfits := Outline.fits_ofList Statement.shape ss
  have hjoin : ∀ b ⊆ (Outline.ofList Statement.shape ss).toList,
      raiseToJoin (b.filter p) = raiseToJoin b := by
    intro b hb
    rw [Outline.toList_ofList] at hb
    refine funext fun s ↦ congrArg (fun l ↦ s.raise l) (le_antisymm ?_ ?_)
    · exact Level.join_le_iff.2 fun l hl ↦
        Level.le_join (List.map_subset _ (List.filter_subset_self b) hl)
    · refine Level.join_le_iff.2 fun l hl ↦ ?_
      obtain ⟨x, hx, rfl⟩ := List.mem_map.1 hl
      cases hpx : p x with
      | true => exact Level.le_join (List.mem_map_of_mem (List.mem_filter.2 ⟨hx, hpx⟩))
      | false =>
        rw [hlevel x (hb hx) hpx]
        exact Level.constant_le _
  have hkeep : ∀ (b : List Statement) (s : Statement), p (raiseToJoin b s) = p s :=
    fun b s ↦ hraise s _
  have hmapped := hfits.mapBlocks (f := raiseToJoin) fun b s ↦ rfl
  rw [byBlocks, byBlocks, Outline.ofList_filter hp, hfits.mapBlocks_filterLines hp hkeep hjoin,
    hmapped.toList_filterLines hp]

/-- A list without the only one that lacks a property. -/
theorem filter_eq_eraseIdx {α : Type} {p : α → Bool} {l : List α} {k : Nat}
    (h : ∀ i a, l[i]? = some a → (p a = true ↔ i ≠ k)) : l.filter p = l.eraseIdx k := by
  induction l generalizing k with
  | nil => rfl
  | cons a l ih =>
    cases k with
    | zero =>
      have ha : ¬ p a = true := fun hpa ↦ (h 0 a rfl).1 hpa rfl
      rw [List.filter_cons_of_neg ha, List.eraseIdx_cons_zero]
      refine List.filter_eq_self.2 fun b hb ↦ ?_
      obtain ⟨i, hi⟩ := List.mem_iff_getElem?.1 hb
      exact (h (i + 1) b hi).2 (Nat.succ_ne_zero i)
    | succ k =>
      rw [List.filter_cons_of_pos ((h 0 a rfl).2 (Nat.succ_ne_zero k).symm),
        List.eraseIdx_cons_succ, ih (k := k) fun i b hb ↦ (h (i + 1) b hb).trans (by simp)]

/-- Statements with number 0, and one with number 1 among them. -/
def marked (xs : List Statement) (c : Statement) (ys : List Statement) : List Statement :=
  (xs.map fun s ↦ s.atLine 0) ++ c.atLine 1 :: ys.map fun s ↦ s.atLine 0

theorem isKept_marked_iff (hc : c.shape = .plain) {i : Nat} (h : (marked xs c ys)[i]? = some s) :
    s.isKept = true ↔ i ≠ xs.length := by
  rw [marked, List.getElem?_append, List.length_map] at h
  split at h
  · next hi =>
    obtain ⟨x, -, rfl⟩ := List.mem_map.1 (List.mem_of_getElem? h)
    simp [x.isKept_atLine_zero, hi.ne]
  · next hi =>
    obtain ⟨j, rfl⟩ := Nat.exists_eq_add_of_le (Nat.le_of_not_lt hi)
    rw [Nat.add_sub_cancel_left] at h
    cases j with
    | zero =>
      obtain rfl := Option.some.inj h
      rw [Statement.isKept, Statement.shape_atLine, hc]
      simp [Statement.atLine]
    | succ j =>
      obtain ⟨x, -, rfl⟩ := List.mem_map.1 (List.mem_of_getElem? h)
      simp [x.isKept_atLine_zero]

/-- A plain line of the lowest level does not change how others are raised by blocks. For the proof
it is told from the others by its number. -/
theorem map_level_eraseIdx_byBlocks (hc : c.shape = .plain) (hl : c.level = .constant) :
    ((byBlocks (xs ++ c :: ys)).eraseIdx xs.length).map Statement.level =
      (byBlocks (xs ++ ys)).map Statement.level := by
  have hlevels : ∀ ss : List Statement, (ss.map fun s ↦ s.atLine 0).map
      (fun s ↦ (s.level, s.shape)) = ss.map fun s ↦ (s.level, s.shape) := fun ss ↦ List.map_map
  have hmarked : (marked xs c ys).map (fun s ↦ (s.level, s.shape)) =
      (xs ++ c :: ys).map fun s ↦ (s.level, s.shape) := by
    rw [marked, List.map_append, List.map_cons, hlevels, hlevels, List.map_append]
    rfl
  have hlevel : ∀ s ∈ marked xs c ys, s.isKept = false → s.level = .constant := by
    intro s hs hdropped
    obtain ⟨i, hi⟩ := List.mem_iff_getElem?.1 hs
    have hiff := isKept_marked_iff hc hi
    rw [hdropped] at hiff
    obtain rfl : i = xs.length := by simpa using hiff
    have hget : (marked xs c ys)[xs.length]? = some (c.atLine 1) := by simp [marked]
    obtain rfl := Option.some.inj (hi.symm.trans hget)
    exact hl
  have hkept : (byBlocks (marked xs c ys)).filter Statement.isKept =
      (byBlocks (marked xs c ys)).eraseIdx xs.length := by
    refine filter_eq_eraseIdx fun i s hs ↦ ?_
    rw [getElem?_byBlocks, Option.map_eq_some_iff] at hs
    obtain ⟨s, hs, rfl⟩ := hs
    exact (isKept_marked_iff hc hs :)
  have hothers : (marked xs c ys).filter Statement.isKept = (xs ++ ys).map fun s ↦ s.atLine 0 := by
    rw [filter_eq_eraseIdx fun i s hs ↦ isKept_marked_iff hc hs, marked]
    simp [List.eraseIdx_append_of_length_le]
  calc
    _ = ((byBlocks (marked xs c ys)).map Statement.level).eraseIdx xs.length := by
      rw [← List.eraseIdx_map]
      exact congrArg (List.eraseIdx · xs.length) (map_level_apply .blockTree hmarked).symm
    _ = ((byBlocks (marked xs c ys)).filter Statement.isKept).map Statement.level := by
      rw [List.eraseIdx_map, hkept]
    _ = (byBlocks ((xs ++ ys).map fun s ↦ s.atLine 0)).map Statement.level := by
      rw [← byBlocks_filter (fun s hs ↦ by simp [Statement.isKept, hs]) (fun s l ↦ rfl) _ hlevel,
        hothers]
    _ = _ := map_level_apply .blockTree (hlevels _)

/-! ### Raising by neighbours -/

/-- A place in a list of statements at which raising by neighbours hands a level over: the line
before it is an opening line that is raised, or the line after it is a closing line that is. -/
def HandsOver (ss : List Statement) (k : Nat) : Prop :=
  ∃ i s s', ss[i]? = some s ∧ (byNeighbours ss)[i]? = some s' ∧ s.level < s'.level ∧
    (s.shape = .opening ∧ i + 1 = k ∨ s.shape = .closing ∧ i = k)

/-- The forward pass goes over the second part as if it were alone if it does not raise the first
line of it. -/
theorem liftClosing_append {l : Level}
    (h : ∀ s s', ys.head? = some s → (liftClosing l (xs ++ ys))[xs.length]? = some s' →
      s.shape = .closing → s'.level ≤ s.level) :
    liftClosing l (xs ++ ys) = liftClosing l xs ++ liftClosing .constant ys := by
  induction xs generalizing l with
  | nil =>
    cases ys with
    | nil => rfl
    | cons s ys =>
      rw [List.nil_append, liftClosing, liftClosing, liftClosing, List.nil_append]
      by_cases hs : s.shape = .closing
      · have hle := h s _ rfl rfl hs
        rw [if_pos hs, Statement.raise_level, max_le_iff] at hle
        rw [if_pos hs, if_pos hs, Statement.raise_eq_self hle.2,
          Statement.raise_eq_self (Level.constant_le _)]
      · rw [if_neg hs, if_neg hs]
  | cons x xs ih =>
    rw [List.cons_append, liftClosing, liftClosing, ih h]
    rfl

/-- The backward pass goes over the first part as if it were alone if the level that comes from the
second does not raise the last line of it. -/
theorem liftOpening_append
    (h : ∀ s, xs.getLast? = some s → s.shape = .opening → headLevel (liftOpening ys) ≤ s.level) :
    liftOpening (xs ++ ys) = liftOpening xs ++ liftOpening ys := by
  induction xs with
  | nil => rfl
  | cons x xs ih =>
    rw [List.cons_append, liftOpening, liftOpening]
    cases xs with
    | nil =>
      by_cases hx : x.shape = .opening
      · have hle := h x rfl hx
        rw [if_pos hx, if_pos hx, List.nil_append, Statement.raise_eq_self hle, liftOpening,
          headLevel, Statement.raise_eq_self (Level.constant_le _)]
        rfl
      · rw [if_neg hx, if_neg hx]
        rfl
    | cons y zs =>
      rw [ih h, List.cons_append]
      rfl

/-- The level that comes from the second part is that of its first line. -/
theorem levelAt_liftOpening_append (xs ys : List Statement) :
    levelAt (liftOpening (xs ++ ys)) xs.length = headLevel (liftOpening ys) := by
  induction xs with
  | nil => cases h : liftOpening ys <;> simp [levelAt, headLevel, h]
  | cons x xs ih => exact ih

/-- **Where no level is handed over, each part is levelled as if it were alone.** -/
theorem byNeighbours_append (h : ¬ HandsOver (xs ++ ys) xs.length) :
    byNeighbours (xs ++ ys) = byNeighbours xs ++ byNeighbours ys := by
  have hclosing : liftClosing .constant (xs ++ ys) =
      liftClosing .constant xs ++ liftClosing .constant ys := by
    refine liftClosing_append fun s s' hs hs' hshape ↦ le_of_not_gt fun hlt ↦ ?_
    obtain ⟨zs, rfl⟩ := List.head?_eq_some_iff.1 hs
    have hget : (xs ++ s :: zs)[xs.length]? = some s := by simp
    obtain ⟨s₀, hs₀, hkeeps⟩ := exists_getElem?_of_forall₂ (keeps_liftClosing .constant _) hs'
    obtain rfl := Option.some.inj (hget.symm.trans hs₀)
    have hfinal : (byNeighbours (xs ++ s :: zs))[xs.length]? = some s' := by
      rw [getElem?_byNeighbours, hs', Option.map_some, if_neg]
      simp [hkeeps.1.shape_eq, hshape]
    exact h ⟨_, s, s', hget, hfinal, hlt, .inr ⟨hshape, rfl⟩⟩
  have hlen := (keeps_liftClosing .constant xs).length_eq
  rw [byNeighbours, hclosing, liftOpening_append]
  · rfl
  · refine fun s hs hshape ↦ le_of_not_gt fun hlt ↦ ?_
    rw [List.getLast?_eq_getElem?] at hs
    obtain ⟨i, hi⟩ : ∃ i, xs.length = i + 1 := by
      cases xs with
      | nil => cases hs
      | cons x xs => exact ⟨_, rfl⟩
    rw [← hlen, hi, Nat.add_sub_cancel] at hs
    obtain ⟨s₀, hs₀, hkeeps⟩ := exists_getElem?_of_forall₂ (keeps_liftClosing .constant xs) hs
    have hget : (xs ++ ys)[i]? = some s₀ := by rw [List.getElem?_append_left (by omega), hs₀]
    have hnext : levelAt (byNeighbours (xs ++ ys)) (i + 1) =
        headLevel (liftOpening (liftClosing .constant ys)) := by
      rw [byNeighbours, hclosing, ← hi, hlen, levelAt_liftOpening_append]
    have hfinal : (byNeighbours (xs ++ ys))[i]? =
        some (s.raise (headLevel (liftOpening (liftClosing .constant ys)))) := by
      rw [getElem?_byNeighbours, hnext, hclosing, List.getElem?_append_left (by omega), hs,
        Option.map_some, if_pos hshape]
    refine h ⟨i, s₀, _, hget, hfinal, hkeeps.1.level_le.trans_lt (lt_max_of_lt_right hlt),
      .inl ⟨hkeeps.1.shape_eq.symm.trans hshape, hi.symm⟩⟩

/-- **A plain line of the lowest level cuts the list in two.** -/
theorem byNeighbours_cut (hc : c.shape = .plain) (hl : c.level = .constant) :
    byNeighbours (xs ++ c :: ys) = byNeighbours xs ++ c :: byNeighbours ys := by
  have hplain : ∀ {k : Shape}, k ≠ .plain → c.shape ≠ k := fun hk h ↦ hk (h.symm.trans hc)
  have hclosing : liftClosing .constant (c :: ys) = c :: liftClosing .constant ys := by
    rw [liftClosing, if_neg (hplain (by decide)), hl]
  have hopening : ∀ ss, liftOpening (c :: ss) = c :: liftOpening ss := fun ss ↦ by
    rw [liftOpening, if_neg (hplain (by decide))]
  rw [byNeighbours, liftClosing_append, hclosing, liftOpening_append, hopening]
  · rfl
  · intro s _ _
    rw [hopening, headLevel, hl]
    exact Level.constant_le _
  · intro s s' hs _ hshape
    obtain rfl := Option.some.inj hs
    exact absurd hshape (hplain (by decide))

/-- An opening line at the end keeps its level when it is raised by neighbours. -/
theorem level_byNeighbours_of_last {s' : Statement} {i : Nat} (hi : i + 1 = xs.length)
    (hs : xs[i]? = some s) (hs' : (byNeighbours xs)[i]? = some s') (hshape : s.shape = .opening) :
    s'.level = s.level := by
  obtain ⟨x, hx, hlevel⟩ := exists_takes_byNeighbours hs'
  rw [← hlevel]
  cases hx with
  | own h => rw [Option.some.inj (h.symm.trans hs)]
  | before h hclosing _ =>
    rw [Option.some.inj (h.symm.trans hs), hshape] at hclosing
    cases hclosing
  | after _ _ hx => exact absurd hx.lt_length (by omega)

/-- A closing line at the start keeps its level when it is raised by neighbours. -/
theorem level_byNeighbours_of_first {s' : Statement} (hs : ys[0]? = some s)
    (hs' : (byNeighbours ys)[0]? = some s') (hshape : s.shape = .closing) : s'.level = s.level := by
  obtain ⟨x, hx, hlevel⟩ := exists_takes_byNeighbours hs'
  rw [← hlevel]
  cases hx with
  | own h => rw [Option.some.inj (h.symm.trans hs)]
  | after h hopening _ =>
    rw [Option.some.inj (h.symm.trans hs), hshape] at hopening
    cases hopening

/-- **When a cut is seen**: the parts have the levels that they have together if and only if no
level is handed over at the place of the cut. -/
theorem map_level_byNeighbours_parts_iff :
    (byNeighbours xs ++ byNeighbours ys).map Statement.level =
        (byNeighbours (xs ++ ys)).map Statement.level ↔ ¬ HandsOver (xs ++ ys) xs.length := by
  refine ⟨?_, fun h ↦ by rw [byNeighbours_append h]⟩
  rintro heq ⟨i, s, s', hs, hs', hlt, hplace⟩
  have hlen := (keeps_byNeighbours xs).length_eq
  have hparts : ∀ {u}, (byNeighbours xs ++ byNeighbours ys)[i]? = some u → u.level = s'.level := by
    intro u hu
    have hlevel := congrArg (Option.map Statement.level) hu
    rw [← List.getElem?_map, heq, List.getElem?_map, hs'] at hlevel
    exact (Option.some.inj hlevel).symm
  rcases hplace with ⟨hshape, hi⟩ | ⟨hshape, rfl⟩
  · rw [List.getElem?_append_left (by omega)] at hs
    obtain ⟨u, hu⟩ := exists_getElem?_of_lt_length (keeps_byNeighbours xs) (i := i) (by omega)
    rw [List.getElem?_append_left (by omega)] at hparts
    rw [← hparts hu, level_byNeighbours_of_last hi hs hu hshape] at hlt
    exact hlt.false
  · rw [List.getElem?_append_right le_rfl, Nat.sub_self] at hs
    rw [List.getElem?_append_right hlen.ge, hlen, Nat.sub_self] at hparts
    obtain ⟨hpos, -⟩ := List.getElem?_eq_some_iff.1 hs
    obtain ⟨u, hu⟩ := exists_getElem?_of_lt_length (keeps_byNeighbours ys) hpos
    rw [← hparts hu, level_byNeighbours_of_first hs hu hshape] at hlt
    exact hlt.false

/-- **When a plain line of the lowest level does not matter for the levels of the others.** -/
theorem map_level_eraseIdx_apply_iff (p : Propagation) (xs ys : List Statement)
    (hc : c.shape = .plain) (hl : c.level = .constant) :
    ((p.apply (xs ++ c :: ys)).eraseIdx xs.length).map Statement.level =
        (p.apply (xs ++ ys)).map Statement.level ↔
      (p = .heuristic → ¬ HandsOver (xs ++ ys) xs.length) := by
  cases p with
  | heuristic =>
    have hcut : (byNeighbours (xs ++ c :: ys)).eraseIdx xs.length =
        byNeighbours xs ++ byNeighbours ys := by
      have hlen := (keeps_byNeighbours xs).length_eq
      rw [byNeighbours_cut hc hl, List.eraseIdx_append_of_length_le hlen.ge, hlen, Nat.sub_self,
        List.eraseIdx_cons_zero]
    simp only [apply, hcut, true_implies]
    exact map_level_byNeighbours_parts_iff
  | blockTree => exact iff_of_true (map_level_eraseIdx_byBlocks hc hl) (by simp)

end Propagation

end RankMetric
