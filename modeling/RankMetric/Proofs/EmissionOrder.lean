import RankMetric.Proofs.Compilation

/-!
# The order of definition and use

Statements are emitted one level at a time, so a statement stays behind an earlier one only if its
level is no lower. What matters is that a statement stays behind the assignments that it reads
(`Statement.Feeds`).

* `Tables.read_order`: as they are read, statements are in order. A target keeps the level of each
  assignment to it, and a statement takes the level of what it reads.
* `Metric.order_of_heuristic`: raising by neighbours keeps that order, since an assignment without a
  brace is not raised at all. Remarks read nothing, so they are not kept behind what they mention
  (`Metric.exists_remark_ahead`).
* `Metric.order_iff_of_blockTree`: raising by blocks raises assignments too, and nothing hands the
  new level on to later readers. So the order is kept exactly if no line in the block of the
  assignment was read at a level above all lines in the block of the reader
  (`Propagation.Outranks`).
-/

namespace RankMetric

/-! ### Feeding a later statement -/

/-- One statement assigns to a name, on a line without braces, and the other reads that name. -/
structure Statement.Feeds (s s' : Statement) : Prop where
  noOpening : '{' ∉ s.text
  noClosing : '}' ∉ s.text
  reads : ∃ t, s.action.target? = some t ∧ t ∈ s'.operandTokens

namespace Statement

variable {s u s' u' : Statement}

/-- Whether one statement feeds another does not depend on their levels. -/
theorem feeds_of_lifts (h : s.Lifts u) (h' : s'.Lifts u') (hfeeds : u.Feeds u') : s.Feeds s' where
  noOpening := h.text_eq ▸ hfeeds.noOpening
  noClosing := h.text_eq ▸ hfeeds.noClosing
  reads := by
    obtain ⟨t, ht, hmem⟩ := hfeeds.reads
    rw [h.action_eq] at ht
    rw [h'.operandTokens_eq] at hmem
    exact ⟨t, ht, hmem⟩

theorem Feeds.shape_eq (h : s.Feeds s') : s.shape = .plain :=
  shape_eq_plain h.noOpening h.noClosing

end Statement

/-- **Statements are read in order**: no statement has a lower level than an earlier one that feeds
it. -/
theorem Tables.read_order {src : Source} {text : Text} {comments : List Text} {t t' : Tables}
    {r : Routine} (h : t.readDescription src text = .ok (comments, t'))
    (ht : (t.body r).statements = []) :
    (t'.body r).statements.Pairwise fun s s' ↦ s.Feeds s' → s.level ≤ s'.level := by
  refine (Body.read_order_le_of_history (history_of_readDescription h r) ht).imp ?_
  intro s s' hle hfeeds
  obtain ⟨n, hn, hmem⟩ := hfeeds.reads
  exact hle n hn hmem

/-- Statements of one level are emitted in the order in which they were read. -/
theorem Body.sublist_statementsAt {b : Body} {s s' : Statement}
    (h : [s, s'].Sublist b.statements) (hlevel : s.level = s'.level) :
    [s, s'].Sublist (b.statementsAt s.level) := by
  have hfilter := h.filter fun u ↦ u.level == s.level
  rwa [List.filter_cons_of_pos (by simp), List.filter_cons_of_pos (by simp [hlevel]),
    List.filter_nil] at hfilter

/-! ### Raising by neighbours -/

namespace Metric

variable {src : Source} {text : Text} {m : Metric}

/-- **Raising by neighbours keeps the order of definition and use.** A statement has no lower level
than an earlier one that feeds it, and if they have one level it is emitted behind it. -/
theorem order_of_heuristic (h : compile src .heuristic text = .ok m) (r : Routine)
    {s s' : Statement} (hss : [s, s'].Sublist (m.body r).statements) (hfeeds : s.Feeds s') :
    s.level ≤ s'.level ∧
      (s.level = s'.level → [s, s'].Sublist ((m.body r).statementsAt s.level)) := by
  refine ⟨?_, fun hlevel ↦ Body.sublist_statementsAt hss hlevel⟩
  obtain ⟨comments, t, hread, rfl⟩ := readDescription_of_compile h
  rw [body_ofTables_statements] at hss
  have hordered := Tables.read_order hread (Tables.withBuiltins_statements r)
  have hkeeps := Propagation.keeps_byNeighbours (t.body r).statements
  -- an assignment keeps its level, and its reader is only raised
  have horder : (Propagation.byNeighbours (t.body r).statements).Pairwise
      fun u u' ↦ u.Feeds u' → u.level ≤ u'.level := by
    refine pairwise_of_forall₂ ?_ hkeeps hordered
    intro s u s' u' hsu hsu' hle hfeeds
    have hfed := Statement.feeds_of_lifts hsu.1 hsu'.1 hfeeds
    rw [hsu.2 hfed.shape_eq]
    exact (hle hfed).trans hsu'.1.level_le
  exact List.pairwise_iff_forall_sublist.1 horder hss hfeeds

theorem feeds_settingT_addingT : settingT.Feeds addingT where
  noOpening := by decide +kernel
  noClosing := by decide +kernel
  reads := ⟨['t'], rfl, by decide +kernel⟩

theorem order_of_heuristic_gatedText : ∃ m, compile gatedSource .heuristic gatedText = .ok m ∧
    settingT.level ≤ addingT.level ∧
      [settingT, addingT].Sublist ((m.body .decode).statementsAt settingT.level) := by
  obtain ⟨m, hm, hstatements⟩ := exists_compile_of_gatedText .heuristic
  have hss : [settingT, addingT].Sublist (m.body .decode).statements := by
    rw [hstatements]
    decide +kernel
  obtain ⟨hle, hsublist⟩ := order_of_heuristic hm .decode hss feeds_settingT_addingT
  exact ⟨m, hm, hle, hsublist rfl⟩

/-- **A remark may run ahead of the assignment to a name that it mentions**, since it reads nothing
and runs at the lowest level. -/
theorem exists_remark_ahead : ∃ m, compile gatedSource .heuristic gatedText = .ok m ∧
    [settingT, remarkOnT].Sublist (m.body .decode).statements ∧
    '{' ∉ settingT.text ∧ '}' ∉ settingT.text ∧
    settingT.action.target? = some ['t'] ∧ remarkOnT.action.target? = none ∧
    ['t'] ∈ remarkOnT.tokens ∧ ¬ settingT.level ≤ remarkOnT.level := by
  obtain ⟨m, hm, hstatements⟩ := exists_compile_of_gatedText .heuristic
  refine ⟨m, hm, ?_, by decide +kernel, by decide +kernel, rfl, rfl, by decide +kernel, by decide⟩
  rw [hstatements]
  decide +kernel

end Metric

/-! ### Raising by blocks -/

namespace Propagation

/-- Some line in the block of statement `i` has a level above all lines in the block of statement
`j`. -/
def Outranks (ss : List Statement) (i j : Nat) : Prop :=
  ∃ x ∈ blockAt ss i, ∀ y ∈ blockAt ss j, y.level < x.level

variable {ss : List Statement} {s s' u u' : Statement} {i j : Nat}

/-- Raising by blocks lets a statement fall behind another exactly if its block outranks the block
of the other. -/
theorem lt_level_raiseToJoin_iff (hs : ss[i]? = some s) (hs' : ss[j]? = some s') :
    (raiseToJoin (blockAt ss j) s').level < (raiseToJoin (blockAt ss i) s).level ↔
      Outranks ss i j := by
  -- statement `j` is in its own block, so the levels there are not joined from nothing
  have hne : (blockAt ss j).map Statement.level ≠ [] := by
    intro h
    rw [List.map_eq_nil_iff] at h
    exact List.not_mem_nil (h ▸ mem_blockAt hs')
  rw [level_raiseToJoin (mem_blockAt hs), level_raiseToJoin (mem_blockAt hs'), ← not_le,
    Level.join_le_iff]
  push Not
  constructor
  · rintro ⟨l, hl, hlt⟩
    obtain ⟨x, hx, rfl⟩ := List.mem_map.1 hl
    exact ⟨x, hx, fun y hy ↦ (Level.join_lt_iff hne).1 hlt _ (List.mem_map_of_mem hy)⟩
  · rintro ⟨x, hx, hlt⟩
    refine ⟨x.level, List.mem_map_of_mem hx, (Level.join_lt_iff hne).2 fun l hl ↦ ?_⟩
    obtain ⟨y, hy, rfl⟩ := List.mem_map.1 hl
    exact hlt y hy

end Propagation

namespace Metric

variable {src : Source} {text : Text} {m : Metric}

/-- **When raising by blocks keeps the order of definition and use.** The assignment was read at a
level that is no higher than that of its reader. It is still no higher in the end if and only if no
line in its block was read at a level above all lines in the block of the reader. -/
theorem order_iff_of_blockTree (h : compile src .blockTree text = .ok m) :
    ∃ comments t, Tables.withBuiltins.readDescription src text = .ok (comments, t) ∧
      ∀ r i j s s', i < j → (m.body r).statements[i]? = some s →
        (m.body r).statements[j]? = some s' → s.Feeds s' →
        (∃ u u', (t.body r).statements[i]? = some u ∧ (t.body r).statements[j]? = some u' ∧
          u.Lifts s ∧ u'.Lifts s' ∧ u.level ≤ u'.level) ∧
        (s.level ≤ s'.level ↔ ¬ Propagation.Outranks (t.body r).statements i j) := by
  obtain ⟨comments, t, hread, rfl⟩ := readDescription_of_compile h
  refine ⟨comments, t, hread, fun r i j s s' hij hs hs' hfeeds ↦ ?_⟩
  rw [body_ofTables_statements, Propagation.apply, Propagation.getElem?_byBlocks,
    Option.map_eq_some_iff] at hs hs'
  obtain ⟨u, hu, rfl⟩ := hs
  obtain ⟨u', hu', rfl⟩ := hs'
  refine ⟨⟨u, u', hu, hu', u.lifts_raise _, u'.lifts_raise _, ?_⟩, ?_⟩
  · obtain ⟨hi, rfl⟩ := List.getElem?_eq_some_iff.1 hu
    obtain ⟨hj, rfl⟩ := List.getElem?_eq_some_iff.1 hu'
    have hordered := Tables.read_order hread (Tables.withBuiltins_statements r)
    refine List.pairwise_iff_getElem.1 hordered i j hi hj hij ?_
    exact Statement.feeds_of_lifts (Statement.lifts_raise _ _) (Statement.lifts_raise _ _) hfeeds
  · rw [← Propagation.lt_level_raiseToJoin_iff hu hu', not_lt]

theorem order_iff_of_blockTree_gatedText : ∃ comments t,
    Tables.withBuiltins.readDescription gatedSource gatedText = .ok (comments, t) ∧
      Propagation.Outranks (t.body .decode).statements 1 4 := by
  obtain ⟨m, hm, hstatements⟩ := exists_compile_of_gatedText .blockTree
  obtain ⟨comments, t, hread, horder⟩ := order_iff_of_blockTree hm
  refine ⟨comments, t, hread, ?_⟩
  have hs : (m.body .decode).statements[1]? = some (settingT.raise .perTerm) := by
    rw [hstatements]
    decide +kernel
  have hs' : (m.body .decode).statements[4]? = some addingT := by
    rw [hstatements]
    decide +kernel
  have hfeeds : (settingT.raise .perTerm).Feeds addingT :=
    ⟨feeds_settingT_addingT.noOpening, feeds_settingT_addingT.noClosing,
      feeds_settingT_addingT.reads⟩
  obtain ⟨-, hiff⟩ := horder .decode 1 4 _ _ (by decide) hs hs' hfeeds
  exact not_not.1 fun hnot ↦ absurd (hiff.2 hnot) (by decide)

/-- **Raising by blocks may put a reader ahead of the assignment that feeds it.** The term that
gates the block raises the assignment to its own level, and the reader after the block stays. -/
theorem exists_reader_ahead : ∃ m, compile gatedSource .blockTree gatedText = .ok m ∧
    [settingT.raise .perTerm, addingT].Sublist (m.body .decode).statements ∧
    (settingT.raise .perTerm).Feeds addingT ∧
    ¬ (settingT.raise .perTerm).level ≤ addingT.level := by
  obtain ⟨m, hm, hstatements⟩ := exists_compile_of_gatedText .blockTree
  refine ⟨m, hm, ?_, ?_, by decide⟩
  · rw [hstatements]
    decide +kernel
  · exact ⟨feeds_settingT_addingT.noOpening, feeds_settingT_addingT.noClosing,
      feeds_settingT_addingT.reads⟩

end Metric

end RankMetric
