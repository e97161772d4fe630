import RankMetric.Proofs.AlikeMetrics

/-!
# Propagation is a closure

Under either strategy propagation is a closure on lists of statements (`Propagation.IsClosure`): it
changes nothing but levels and lowers none, what it has raised it does not raise again, and no list
above the given one is closed at lower levels.

Idempotence is not evident. A second run sees raised levels, and under `heuristic` its forward pass
begins with levels that only the backward pass of the first run has made. What settles it is that
the lines whose levels a line takes (`Propagation.Takes`) are found by shapes alone, and shapes are
not changed. A line that is taken from takes from lines that are taken from as well
(`Takes.exists_line`), so going round again leads to no new line. Nothing of this asks that the
blocks are balanced: for `blockTree` it is a fact on outlines of any lists, which have stray closing
lines as plain lines and open blocks at the end (`Outline.exists_nodeAt_eq`).

The strategy is used after a description has been read and for nothing else, so two strategies fail
alike or lead to metrics that differ in the levels of statements (`Metric.unlevelled_ofTables`).
-/

namespace RankMetric

open List (Forall₂)

/-! ### Lifted statements -/

namespace Statement

variable {s s' u u' : Statement}

/-- A statement is lifted if only its level has changed and is no lower. -/
theorem lifts_iff : s.Lifts s' ↔ s.level ≤ s'.level ∧ s' = { s with level := s'.level } := by
  constructor
  · rintro ⟨l, rfl⟩
    exact ⟨le_max_left _ _, rfl⟩
  · rintro ⟨hle, heq⟩
    refine ⟨s'.level, ?_⟩
    rw [heq, raise, max_eq_right hle]

/-- A statement that is lifted to no higher level stays. -/
theorem Lifts.eq_of_level_le (h : s.Lifts s') (hle : s'.level ≤ s.level) : s' = s := by
  obtain ⟨l, rfl⟩ := h
  exact raise_eq_self ((le_max_right _ _).trans hle)

/-- Of two statements that one was lifted to, the higher is the other one lifted. -/
theorem Lifts.lifts_of_level_le (h : s.Lifts u) (h' : s.Lifts u') (hle : u.level ≤ u'.level) :
    u.Lifts u' := by
  refine lifts_iff.2 ⟨hle, ?_⟩
  rw [(lifts_iff.1 h').2, (lifts_iff.1 h).2]

end Statement

/-! ### Lists related member by member -/

section Forall₂

variable {α β : Type} {R : α → β → Prop} {l : List α} {l' : List β}

/-- Two lists that are related are the two sides of one list of related pairs. -/
theorem exists_pairs_of_forall₂ (h : Forall₂ R l l') :
    ∃ ps : List {p : α × β // R p.1 p.2},
      ps.map (fun p ↦ p.1.1) = l ∧ ps.map (fun p ↦ p.1.2) = l' := by
  induction h with
  | nil => exact ⟨[], rfl, rfl⟩
  | @cons a b l l' hab _ ih =>
    obtain ⟨ps, rfl, rfl⟩ := ih
    exact ⟨⟨(a, b), hab⟩ :: ps, rfl, rfl⟩

/-- A place of one list is a place of the other. -/
theorem getElem?_of_forall₂ (h : Forall₂ R l l') {i : Nat} {a : α} (ha : l[i]? = some a) :
    ∃ b, l'[i]? = some b ∧ R a b := by
  obtain ⟨ps, rfl, rfl⟩ := exists_pairs_of_forall₂ h
  rw [List.getElem?_map, Option.map_eq_some_iff] at ha
  obtain ⟨p, hp, rfl⟩ := ha
  exact ⟨p.1.2, by rw [List.getElem?_map, hp]; rfl, p.2⟩

/-- Lists of one length are related if they are at every place. -/
theorem forall₂_of_getElem? (hlength : l.length = l'.length)
    (h : ∀ (i : Nat) a b, l[i]? = some a → l'[i]? = some b → R a b) : Forall₂ R l l' :=
  List.forall₂_iff_get.2 ⟨hlength, fun i hi hi' ↦
    h i _ _ (List.getElem?_eq_getElem hi) (List.getElem?_eq_getElem hi')⟩

end Forall₂

/-! ### Blocks of outlines -/

namespace Outline

variable {α β : Type}

theorem nodeAt_map (f : α → β) (o : Outline α) (i : Nat) :
    (o.map f).nodeAt i = (o.nodeAt i).map f := by
  induction o generalizing i with
  | nil => rfl
  | line a rest ih =>
    cases i with
    | zero => rfl
    | succ i => exact ih i
  | block a inner c rest _ ih =>
    have hlines : blockLines (f a) (inner.map f) (c.map f) = (blockLines a inner c).map f := by
      cases c <;> simp [blockLines, toList_map]
    rw [map, nodeAt, nodeAt, hlines, List.length_map]
    split
    · rfl
    · exact ih _

/-- **The lines of a block share the block**: every line of the block that line `i` is in stands at
some place, and the block there is the same one. -/
theorem exists_nodeAt_eq (o : Outline α) {i : Nat} {a : α} (h : a ∈ o.nodeAt i) :
    ∃ j, o.toList[j]? = some a ∧ o.nodeAt j = o.nodeAt i := by
  induction o generalizing i with
  | nil => cases h
  | line b rest ih =>
    cases i with
    | zero =>
      obtain rfl := List.mem_singleton.1 h
      exact ⟨0, rfl, rfl⟩
    | succ i =>
      obtain ⟨j, hj, hnode⟩ := ih h
      exact ⟨j + 1, hj, hnode⟩
  | block b inner c rest _ ih =>
    rw [nodeAt] at h
    rw [nodeAt, toList_block]
    split at h
    · next hi =>
      obtain ⟨j, hj⟩ := List.mem_iff_getElem?.1 h
      have hlt : j < (blockLines b inner c).length := (List.getElem?_eq_some_iff.1 hj).1
      refine ⟨j, ?_, ?_⟩
      · rw [List.getElem?_append_left hlt, hj]
      · rw [nodeAt, if_pos hlt, if_pos hi]
    · next hi =>
      obtain ⟨j, hj, hnode⟩ := ih h
      refine ⟨(blockLines b inner c).length + j, ?_, ?_⟩
      · rw [List.getElem?_append_right (Nat.le_add_right _ _), Nat.add_sub_cancel_left, hj]
      · rw [nodeAt, if_neg (by omega), if_neg hi, Nat.add_sub_cancel_left, hnode]

end Outline

/-! ### Lines that are taken from -/

namespace Propagation

variable {p : Propagation} {ss ss' : List Statement} {s s' x x' : Statement} {i : Nat}

/-- Lifted statements nest as they did before. -/
theorem exists_outline_of_lifts (h : Forall₂ Statement.Lifts ss ss') :
    ∃ o : Outline {p : Statement × Statement // p.1.Lifts p.2},
      Outline.ofList Statement.shape ss = o.map (fun p ↦ p.1.1) ∧
      Outline.ofList Statement.shape ss' = o.map (fun p ↦ p.1.2) := by
  obtain ⟨ps, rfl, rfl⟩ := exists_pairs_of_forall₂ h
  exact ⟨Outline.ofList (fun p ↦ p.1.1.shape) ps, Outline.ofList_map (fun _ ↦ rfl) ps,
    Outline.ofList_map (fun p ↦ p.2.shape_eq) ps⟩

/-- **Lifting does not change from which lines a line takes its level**: it takes from the lifted
lines. -/
theorem Takes.of_lifts (h : Forall₂ Statement.Lifts ss ss') (hx : p.Takes ss i x) :
    ∃ x', p.Takes ss' i x' ∧ x.Lifts x' := by
  cases p with
  | heuristic =>
    show ∃ x', TakesByNeighbours ss' i x' ∧ x.Lifts x'
    induction hx with
    | own hs =>
      obtain ⟨s', hs', hlifts⟩ := getElem?_of_forall₂ h hs
      exact ⟨s', .own hs', hlifts⟩
    | before hs hshape _ ih =>
      obtain ⟨s', hs', hlifts⟩ := getElem?_of_forall₂ h hs
      obtain ⟨x', hx', hlevel⟩ := ih
      exact ⟨x', .before hs' (hlifts.shape_eq.trans hshape) hx', hlevel⟩
    | after hs hshape _ ih =>
      obtain ⟨s', hs', hlifts⟩ := getElem?_of_forall₂ h hs
      obtain ⟨x', hx', hlevel⟩ := ih
      exact ⟨x', .after hs' (hlifts.shape_eq.trans hshape) hx', hlevel⟩
  | blockTree =>
    obtain ⟨o, ho, ho'⟩ := exists_outline_of_lifts h
    change x ∈ (Outline.ofList Statement.shape ss).nodeAt i at hx
    rw [ho, Outline.nodeAt_map] at hx
    obtain ⟨q, hq, rfl⟩ := List.mem_map.1 hx
    refine ⟨q.1.2, ?_, q.2⟩
    show q.1.2 ∈ (Outline.ofList Statement.shape ss').nodeAt i
    rw [ho', Outline.nodeAt_map]
    exact List.mem_map_of_mem hq

/-- **A line that is taken from stands at some place, and takes from no others.** The lines may have
been lifted since. -/
theorem Takes.exists_line (h : Forall₂ Statement.Lifts ss ss') (hx : p.Takes ss' i x') :
    ∃ j, ss'[j]? = some x' ∧ ∀ x, p.Takes ss j x → p.Takes ss i x := by
  cases p with
  | heuristic =>
    show ∃ j, ss'[j]? = some x' ∧ ∀ x, TakesByNeighbours ss j x → TakesByNeighbours ss i x
    induction hx with
    | @own i _ hs => exact ⟨i, hs, fun _ ↦ id⟩
    | before hs hshape _ ih =>
      obtain ⟨j, hj, htakes⟩ := ih
      obtain ⟨s, hs₀, hlifts⟩ := exists_getElem?_of_forall₂ h hs
      exact ⟨j, hj, fun x hx ↦ .before hs₀ (hlifts.shape_eq.symm.trans hshape) (htakes x hx)⟩
    | after hs hshape _ ih =>
      obtain ⟨j, hj, htakes⟩ := ih
      obtain ⟨s, hs₀, hlifts⟩ := exists_getElem?_of_forall₂ h hs
      exact ⟨j, hj, fun x hx ↦ .after hs₀ (hlifts.shape_eq.symm.trans hshape) (htakes x hx)⟩
  | blockTree =>
    obtain ⟨o, ho, ho'⟩ := exists_outline_of_lifts h
    change x' ∈ (Outline.ofList Statement.shape ss').nodeAt i at hx
    rw [ho', Outline.nodeAt_map] at hx
    obtain ⟨q, hq, rfl⟩ := List.mem_map.1 hx
    obtain ⟨j, hj, hnode⟩ := o.exists_nodeAt_eq hq
    refine ⟨j, ?_, fun x hx ↦ ?_⟩
    · rw [← Outline.toList_ofList Statement.shape ss', ho', Outline.toList_map, List.getElem?_map,
        hj]
      rfl
    · change x ∈ (Outline.ofList Statement.shape ss).nodeAt j at hx
      show x ∈ (Outline.ofList Statement.shape ss).nodeAt i
      rw [ho, Outline.nodeAt_map, hnode, ← Outline.nodeAt_map, ← ho] at hx
      exact hx

/-! ### Closures -/

theorem length_apply (p : Propagation) (ss : List Statement) : (p.apply ss).length = ss.length :=
  (p.lifts_apply ss).length_eq.symm

/-- **Propagation is monotone**: lines that begin higher end no lower. -/
theorem apply_mono (p : Propagation) (h : Forall₂ Statement.Lifts ss ss') :
    Forall₂ Statement.Lifts (p.apply ss) (p.apply ss') := by
  refine forall₂_of_getElem? (by simp only [length_apply, h.length_eq]) fun i s s' hs hs' ↦ ?_
  -- both are the statement at this place, lifted
  obtain ⟨u, hu, hlifts⟩ := exists_getElem?_of_forall₂ (p.lifts_apply ss) hs
  obtain ⟨u', hu', hlifts'⟩ := exists_getElem?_of_forall₂ (p.lifts_apply ss') hs'
  obtain ⟨v, hv, hfirst⟩ := getElem?_of_forall₂ h hu
  obtain rfl := Option.some.inj (hu'.symm.trans hv)
  refine hlifts.lifts_of_level_le (hfirst.trans hlifts') ?_
  obtain ⟨x, hx, hle⟩ := (le_level_apply_iff hs).1 le_rfl
  obtain ⟨x', hx', hraised⟩ := hx.of_lifts h
  exact (le_level_apply_iff hs').2 ⟨x', hx', hle.trans hraised.level_le⟩

/-- **Propagation is idempotent**: what a line takes in a second run it had taken in the first. -/
theorem apply_apply (p : Propagation) (ss : List Statement) :
    p.apply (p.apply ss) = p.apply ss := by
  have hfirst := p.lifts_apply ss
  have hsecond := p.lifts_apply (p.apply ss)
  refine List.ext_getElem? fun i ↦ ?_
  cases hs : (p.apply ss)[i]? with
  | none =>
    rw [List.getElem?_eq_none_iff] at hs ⊢
    rwa [length_apply]
  | some s =>
    obtain ⟨s', hs', hlifts⟩ := getElem?_of_forall₂ hsecond hs
    obtain ⟨x', hx', hle⟩ := (le_level_apply_iff hs').1 le_rfl
    obtain ⟨j, hj, htakes⟩ := hx'.exists_line hfirst
    obtain ⟨x, hx, hlevel⟩ := (le_level_apply_iff hj).1 le_rfl
    have hback : s'.level ≤ s.level :=
      (le_level_apply_iff hs).2 ⟨x, htakes x hx, hle.trans hlevel⟩
    rw [hs', hlifts.eq_of_level_le hback]

/-- The second list is the closure of the first: the same statements in the same order, of which
only the levels have changed and none has fallen, at the lowest levels that propagation leaves
alone. -/
structure IsClosure (p : Propagation) (ss ss' : List Statement) : Prop where
  levelsOnly : Forall₂ (fun s s' ↦ s.level ≤ s'.level ∧ s' = { s with level := s'.level }) ss ss'
  closed : p.apply ss' = ss'
  least : ∀ ss'', Forall₂ Statement.Lifts ss ss'' → p.apply ss'' = ss'' →
    Forall₂ Statement.Lifts ss' ss''

/-- **The propagated list is the closure of a list.** -/
theorem isClosure_apply (p : Propagation) (ss : List Statement) : p.IsClosure ss (p.apply ss) where
  levelsOnly := (p.lifts_apply ss).imp fun _ _ h ↦ Statement.lifts_iff.1 h
  closed := p.apply_apply ss
  least ss'' h hclosed := by
    have hmono := p.apply_mono h
    rwa [hclosed] at hmono

end Propagation

/-! ### Metrics of either strategy -/

namespace Metric

/-- A metric without the levels of its statements. -/
def unlevelled (m : Metric) : Metric :=
  let clear (b : Body) : Body :=
    { b with statements := b.statements.map fun s ↦ { s with level := .constant } }
  { m with decode := clear m.decode, post := clear m.post }

/-- The strategy shows in the levels of the statements only. -/
theorem unlevelled_ofTables (src : Source) (p p' : Propagation) (comments : List Text)
    (t : Tables) :
    (ofTables src p comments t).unlevelled = (ofTables src p' comments t).unlevelled := by
  have hclear : ∀ (p : Propagation) (ss : List Statement),
      (p.apply ss).map (fun s ↦ { s with level := Level.constant }) =
        ss.map fun s ↦ { s with level := Level.constant } :=
    fun p ss ↦ p.map_apply (fun _ _ ↦ rfl) ss
  have hprerequisites : (ofTables src p comments t).prerequisites =
      (ofTables src p' comments t).prerequisites := rfl
  simp only [unlevelled, hprerequisites]
  simp only [ofTables, Tables.propagate, Tables.closeContributions, Body.closeUsed, hclear]

/-- **Propagation is a closure that touches levels only.** Under either strategy the propagated list
is the closure of the list of statements. And under the two strategies a text either has the same
error, or it has metrics that are the same but for the levels of statements. -/
theorem isClosure_apply_and_compile :
    (∀ (p : Propagation) (ss : List Statement), p.IsClosure ss (p.apply ss)) ∧
      ∀ (src : Source) (text : Text), (∃ e, ∀ p, compile src p text = .error e) ∨
        ∃ m : Propagation → Metric, (∀ p, compile src p text = .ok (m p)) ∧
          (m .heuristic).unlevelled = (m .blockTree).unlevelled := by
  refine ⟨Propagation.isClosure_apply, fun src text ↦ ?_⟩
  cases h : Tables.withBuiltins.readDescription src text with
  | error e => exact .inl ⟨e.error, fun p ↦ by rw [compile, h]⟩
  | ok result =>
    obtain ⟨comments, t⟩ := result
    refine .inr ⟨fun p ↦ ofTables src p comments t, fun p ↦ by rw [compile, h], ?_⟩
    exact unlevelled_ofTables src .heuristic .blockTree comments t

end Metric

end RankMetric
