import RankMetric.Proofs.LoopDepth

/-!
# Reading the statements again

Levels are found in one pass, and the pass goes forward: a statement takes the levels that its
operands have when it is read. What a later assignment adds to an operand does not come back. So the
final levels need not satisfy the assignments they come from, and reading the statements once more,
from the final levels on, may raise something.

The statements of a body are read again by the same two functions that read them first
(`Body.reread`). A statement is *settled* (`Body.Settles`) if the assignment that it makes has no
operand above its target, at the levels that the body has now.

* `Body.exists_rereadAll`: the statements of a body can be read again, and that changes no level if
  and only if all of them are settled. Levels are only raised on the way (`Body.RaisesTo`), so a
  second pass that ends where it began has changed nothing in between.
* `Body.settles_iff_of_history`: an assignment is settled in the end if and only if no later
  assignment raises one of its operands above its target.
* `Tables.relevelling_iff` says this of a description.
-/

namespace RankMetric

open Relation

namespace Body

/-! ### Reading a statement again -/

/-- The assignment that a statement makes against the quantities that are declared now. -/
def reassignment? (b : Body) (s : Statement) : Option Assignment :=
  if s.action = .remark then none else Assignment.begin? b.quantities s.line s.text

/-- Read a statement once more, as it stands against the quantities that are declared now. A text
that has become an assignment since is taken as a whole one. -/
def reread (b : Body) (s : Statement) : Except StatementFault Body :=
  match b.reassignment? s with
  | some a => b.assign a
  | none => if s.action = .remark then .ok (b.push s) else b.evaluate s.line s.text

/-- Read statements once more, one after the other. -/
def rereadAll (b : Body) (ss : List Statement) : Except StatementFault Body :=
  ss.foldlM reread b

/-- **A statement is settled** if the assignment that it makes has no operand above its target. -/
def Settles (b : Body) (s : Statement) : Prop :=
  ∀ a l, b.reassignment? s = some a → b.levelOf a.target = some l →
    ∀ t ∈ a.tokens, ∀ k, b.levelOf t.text = some k → k ≤ l

variable {b b' b'' : Body} {s : Statement} {ss : List Statement} {a : Assignment} {l : Level}

theorem reassignment?_eq_some (h : b.reassignment? s = some a) :
    s.action ≠ .remark ∧ a.Begun b.quantities ∧
      s.tokens = a.target :: a.operator :: a.tokens.map Token.text := by
  unfold reassignment? at h
  split at h
  · cases h
  · next hcode =>
    obtain ⟨-, htext, hbegun⟩ := Assignment.begun_of_begin? h
    refine ⟨hcode, hbegun, ?_⟩
    rw [Statement.tokens, ← htext]
    exact hbegun.tokens_eq

/-- There is one assignment to look at. -/
theorem settles_iff_of_reassignment (ha : b.reassignment? s = some a)
    (hl : b.levelOf a.target = some l) :
    b.Settles s ↔ ∀ t ∈ a.tokens, ∀ k, b.levelOf t.text = some k → k ≤ l := by
  refine ⟨fun hsettled ↦ hsettled a l ha hl, fun hall a' l' ha' hl' ↦ ?_⟩
  obtain rfl := Option.some.inj (ha.symm.trans ha')
  obtain rfl := Option.some.inj (hl.symm.trans hl')
  exact hall

/-! ### Bodies that differ by levels -/

/-- One body is the other with some quantities raised. -/
def RaisesTo (b b' : Body) : Prop :=
  ∀ n, ∃ l, b'.quantities.get? n = (b.quantities.get? n).map (Quantity.raise l)

theorem RaisesTo.of_quantities_eq (h : b'.quantities = b.quantities) : b.RaisesTo b' := by
  intro n
  refine ⟨.constant, ?_⟩
  rw [h]
  cases b.quantities.get? n with
  | none => rfl
  | some q => rw [Option.map_some, q.raise_constant]

theorem RaisesTo.trans (h : b.RaisesTo b') (h' : b'.RaisesTo b'') : b.RaisesTo b'' := by
  intro n
  obtain ⟨l, hl⟩ := h n
  obtain ⟨l', hl'⟩ := h' n
  refine ⟨max l l', ?_⟩
  rw [hl', hl, Option.map_map]
  cases b.quantities.get? n with
  | none => rfl
  | some q => exact congrArg some (q.raise_raise l l')

theorem RaisesTo.isFixed (h : b.RaisesTo b') (n : Name) : b'.isFixed n = b.isFixed n := by
  obtain ⟨l, hl⟩ := h n
  rw [Body.isFixed, Body.isFixed, hl]
  cases b.quantities.get? n <;> rfl

/-- What assignment a statement makes does not depend on levels. -/
theorem RaisesTo.reassignment? (h : b.RaisesTo b') (s : Statement) :
    b'.reassignment? s = b.reassignment? s := by
  have hcontains : ∀ n, b'.quantities.contains n = b.quantities.contains n := by
    intro n
    obtain ⟨l, hl⟩ := h n
    rw [NameIndex.contains, hl, Option.isSome_map, ← NameIndex.contains]
  simp only [Body.reassignment?, Assignment.begin?, hcontains]

theorem RaisesTo.levelOf (h : b.RaisesTo b') (n : Name) :
    ∃ l, b'.levelOf n = (b.levelOf n).map (max · l) := by
  obtain ⟨l, hl⟩ := h n
  refine ⟨l, ?_⟩
  rw [Body.levelOf, Body.levelOf, hl, Option.map_map, Option.map_map]
  rfl

/-- Levels that are the same in the end have been the same in between. -/
theorem RaisesTo.levelOf_eq (h : b.RaisesTo b') (h' : b'.RaisesTo b'')
    (hend : ∀ n, b''.levelOf n = b.levelOf n) (n : Name) : b'.levelOf n = b.levelOf n := by
  obtain ⟨l, hl⟩ := h.levelOf n
  obtain ⟨l', hl'⟩ := h'.levelOf n
  have hn := hend n
  rw [hl', hl] at hn
  rw [hl]
  cases hk : b.levelOf n with
  | none => rfl
  | some k =>
    rw [hk] at hn
    have hmax : max (max k l) l' = k := Option.some.inj hn
    have hle : l ≤ k := (le_max_right k l).trans ((le_max_left _ l').trans hmax.le)
    exact congrArg some (max_eq_left hle)

/-- Whether a statement is settled depends on levels only. -/
theorem RaisesTo.settles_iff (h : b.RaisesTo b') (hlevel : ∀ n, b'.levelOf n = b.levelOf n) :
    b'.Settles s ↔ b.Settles s := by
  simp only [Settles, h.reassignment?, hlevel]

/-! ### One statement again -/

/-- An assignment raises its target to the highest level among its operands. -/
theorem get?_of_assign (h : b.assign a = .ok b') (n : Name) :
    b'.quantities.get? n =
      if n = a.target then
        (b.quantities.get? n).map
          (Quantity.raise (Quantity.joinLevels (b.quantities.named a.tokens)))
      else b.quantities.get? n := by
  unfold assign at h
  split at h
  · cases h
  obtain ⟨⟨qs, b₁⟩, hread, hpush⟩ := exists_of_bind_eq_ok h
  obtain ⟨rfl, rfl, -⟩ := readOperands_eq_ok hread
  obtain rfl := Except.ok.inj hpush
  rw [push_quantities, get?_raise]
  rfl

theorem quantities_of_evaluate {n : Nat} {text : Text} (h : b.evaluate n text = .ok b') :
    b'.quantities = b.quantities := by
  obtain ⟨⟨qs, b₁⟩, hread, hpush⟩ := exists_of_bind_eq_ok h
  obtain ⟨-, rfl, -⟩ := readOperands_eq_ok hread
  obtain rfl := Except.ok.inj hpush
  rfl

/-- Below the level of accumulators all operands can be read. -/
theorem exists_readOperands (hb : b.Within .perTerm) (ts : List Token) :
    ∃ p, b.readOperands ts = .ok p := by
  have hnone : (b.quantities.named ts).find? (fun q ↦ q.level.isWriteOnly) = none := by
    refine List.find?_eq_none.2 fun q hq hwrite ↦ ?_
    rw [Quantities.named_eq_namedBy] at hq
    have hle := hb.quantities _ q (Quantities.mem_namedBy.1 hq).2
    rw [beq_iff_eq.1 hwrite] at hle
    exact absurd hle (by decide)
  exact ⟨_, by rw [readOperands, hnone]⟩

/-- Reading a statement again succeeds if its target is not fixed, and stays within the same
level. -/
theorem exists_reread (hb : b.Within .perTerm) (hs : s.level ≤ .perTerm)
    (hfixed : ∀ a, b.reassignment? s = some a → b.isFixed a.target = false) :
    ∃ b', b.reread s = .ok b' ∧ b'.Within .perTerm := by
  unfold reread
  cases ha : b.reassignment? s with
  | some a =>
    obtain ⟨p, hp⟩ := exists_readOperands hb a.tokens
    obtain ⟨b', hb'⟩ : ∃ b', b.assign a = .ok b' := by
      rw [assign, hfixed a ha, hp]
      exact ⟨_, rfl⟩
    obtain ⟨u, -, hu, rfl⟩ := record_of_assign hb' (reassignment?_eq_some ha).2.1
    exact ⟨_, hb', hb.record hu⟩
  | none =>
    dsimp only
    split
    · refine ⟨_, rfl, hb.quantities, fun u hu ↦ ?_⟩
      rw [push_statements, List.mem_append, List.mem_singleton] at hu
      rcases hu with hu | rfl
      · exact hb.statements u hu
      · exact hs
    · next hcode =>
      obtain ⟨p, hp⟩ := exists_readOperands hb (significant s.text)
      obtain ⟨b', hb'⟩ : ∃ b', b.evaluate s.line s.text = .ok b' := by
        rw [evaluate, hp]
        exact ⟨_, rfl⟩
      rw [reassignment?, if_neg hcode] at ha
      obtain ⟨u, -, hu, rfl⟩ := record_of_evaluate hb' ha
      exact ⟨_, hb', hb.record hu⟩

theorem joinLevels_named_le_iff {ts : List Token} {l : Level} :
    Quantity.joinLevels (b.quantities.named ts) ≤ l ↔
      ∀ t ∈ ts, ∀ k, b.levelOf t.text = some k → k ≤ l := by
  rw [Quantity.joinLevels, Level.join_le_iff]
  constructor
  · intro hle t ht k hk
    obtain ⟨q, hq, rfl⟩ := levelOf_eq_some_iff.1 hk
    exact hle _ (List.mem_map_of_mem (List.mem_filterMap.2 ⟨t, ht, hq⟩))
  · intro hle k hk
    obtain ⟨q, hq, rfl⟩ := List.mem_map.1 hk
    obtain ⟨t, ht, hget⟩ := List.mem_filterMap.1 hq
    exact hle t ht q.level (levelOf_of_get? hget)

/-- An assignment keeps all levels if and only if its operands are not above its target, which is
the one quantity that it can raise. -/
theorem levelOf_of_assign_iff (h : b.assign a = .ok b') (hl : b.levelOf a.target = some l) :
    (∀ n, b'.levelOf n = b.levelOf n) ↔
      Quantity.joinLevels (b.quantities.named a.tokens) ≤ l := by
  obtain ⟨q, hq, rfl⟩ := levelOf_eq_some_iff.1 hl
  constructor
  · intro hsame
    have htarget := hsame a.target
    rw [hl, levelOf, get?_of_assign h, if_pos rfl, hq] at htarget
    exact max_eq_left_iff.1 (Option.some.inj htarget)
  · intro hle n
    rw [levelOf, get?_of_assign h]
    split
    · next hn =>
      rw [hn, hq, hl]
      exact congrArg some (max_eq_left hle)
    · rfl

theorem raisesTo_of_assign (h : b.assign a = .ok b') : b.RaisesTo b' := by
  intro n
  rw [get?_of_assign h]
  split
  · exact ⟨_, rfl⟩
  · exact RaisesTo.of_quantities_eq rfl n

/-- **Reading a statement again only raises levels, and none if and only if the statement is
settled.** -/
theorem raisesTo_of_reread (h : b.reread s = .ok b') :
    b.RaisesTo b' ∧ ((∀ n, b'.levelOf n = b.levelOf n) ↔ b.Settles s) := by
  unfold reread at h
  split at h
  · next a ha =>
    obtain ⟨-, hbegun, -⟩ := reassignment?_eq_some ha
    obtain ⟨q, hq⟩ := Option.isSome_iff_exists.1 hbegun.known
    have hl := levelOf_of_get? hq
    refine ⟨raisesTo_of_assign h, ?_⟩
    rw [levelOf_of_assign_iff h hl, joinLevels_named_le_iff, settles_iff_of_reassignment ha hl]
  · next hnone =>
    have hquantities : b'.quantities = b.quantities := by
      split at h
      · obtain rfl := Except.ok.inj h
        rfl
      · exact quantities_of_evaluate h
    refine ⟨.of_quantities_eq hquantities, fun _ a l ha ↦ ?_, fun _ n ↦ ?_⟩
    · cases hnone.symm.trans ha
    · rw [levelOf, hquantities, levelOf]

/-! ### All statements again -/

/-- **Statements that are all read again.** It succeeds if no target is fixed, it only raises
levels, and it changes none if and only if every statement is settled. -/
theorem exists_rereadAll (hb : b.Within .perTerm) (hss : ∀ s ∈ ss, s.level ≤ .perTerm)
    (hfixed : ∀ s ∈ ss, ∀ a, b.reassignment? s = some a → b.isFixed a.target = false) :
    ∃ b', b.rereadAll ss = .ok b' ∧ b.RaisesTo b' ∧
      ((∀ n, b'.levelOf n = b.levelOf n) ↔ ∀ s ∈ ss, b.Settles s) := by
  induction ss generalizing b with
  | nil => exact ⟨b, rfl, .of_quantities_eq rfl, by simp⟩
  | cons s ss ih =>
    obtain ⟨hs, hss⟩ := List.forall_mem_cons.1 hss
    obtain ⟨hfixed_s, hfixed⟩ := List.forall_mem_cons.1 hfixed
    obtain ⟨b₁, hfirst, hb₁⟩ := exists_reread hb hs hfixed_s
    obtain ⟨hraises₁, hkept₁⟩ := raisesTo_of_reread hfirst
    have hfixed₁ : ∀ s ∈ ss, ∀ a, b₁.reassignment? s = some a → b₁.isFixed a.target = false := by
      intro s hs a ha
      rw [hraises₁.isFixed]
      exact hfixed s hs a (hraises₁.reassignment? s ▸ ha)
    obtain ⟨b', hrest, hraises, hkept⟩ := ih hb₁ hss hfixed₁
    refine ⟨b', ?_, hraises₁.trans hraises, ?_⟩
    · rw [rereadAll, List.foldlM_cons, hfirst]
      exact hrest
    rw [List.forall_mem_cons]
    constructor
    · intro hsame
      -- levels that are the same in the end have not been raised by the first statement either
      have hsame₁ := hraises₁.levelOf_eq hraises hsame
      have hsame' : ∀ n, b'.levelOf n = b₁.levelOf n := fun n ↦ by rw [hsame, hsame₁]
      exact ⟨hkept₁.1 hsame₁, fun u hu ↦ (hraises₁.settles_iff hsame₁).1 (hkept.1 hsame' u hu)⟩
    · rintro ⟨hsettled, hall⟩ n
      have hsame₁ := hkept₁.2 hsettled
      have hsame' := hkept.2 fun u hu ↦ (hraises₁.settles_iff hsame₁).2 (hall u hu)
      rw [hsame', hsame₁]

/-! ### Settled in the end -/

variable {xs ys : List Statement} {n : Name}

/-- The tokens of a recorded statement still make the assignment that was recorded. -/
theorem exists_reassignment (hs : b.Reads s) (hn : s.action.target? = some n)
    (hb' : b'.quantities.contains n = true) :
    ∃ a, b'.reassignment? s = some a ∧ a.target = n ∧
      a.tokens.map Token.text = s.operandTokens := by
  obtain ⟨op, t, rest, htokens, hoperands, -, hop⟩ := hs.recognised.exists_tokens hn
  have hcode : s.action ≠ .remark := by
    intro hremark
    rw [hremark] at hn
    cases hn
  cases ha : b'.reassignment? s with
  | none =>
    rw [reassignment?, if_neg hcode] at ha
    exact absurd ⟨_, _, _, _, htokens, hb', hop⟩ (Assignment.not_assigns_of_begin? ha)
  | some a =>
    obtain ⟨-, -, hkept⟩ := reassignment?_eq_some ha
    obtain ⟨htarget, hrest⟩ := List.cons_eq_cons.1 (hkept.symm.trans htokens)
    exact ⟨a, rfl, htarget, (List.cons_eq_cons.1 hrest).2.trans hoperands.symm⟩

/-- No target is fixed when statements are read again. -/
theorem isFixed_of_reassignment (h : ReflTransGen Change b b')
    (hs : b'.statements = b.statements ++ xs ++ s :: ys) (ha : b'.reassignment? s = some a) :
    b'.isFixed a.target = false := by
  obtain ⟨hcode, hbegun, htokens⟩ := reassignment?_eq_some ha
  obtain ⟨b₁, -, -, hreads, hrest⟩ := exists_reading h hs
  have hhistory : ReflTransGen Change b₁ b' := .head (.read hreads) hrest
  cases hknown : b₁.quantities.contains a.target with
  | true =>
    -- the statement made this assignment when it was read, so its target was checked then
    rw [isFixed_of_history hhistory hknown]
    obtain ⟨t, ts, hts⟩ := List.exists_cons_of_ne_nil hbegun.tokens_ne
    rw [hts, List.map_cons] at htokens
    exact hreads.assignable _
      (hreads.recognised.target?_eq hcode htokens hknown hbegun.isOperator)
  | false =>
    -- the target was declared after the statement, so it is no built-in
    obtain ⟨c, q, ns, -, hname, hq, hlater⟩ := exists_gain hhistory hknown hbegun.known
    have hget : (c.gain q ns).quantities.get? a.target = some q := by rw [get?_gain, if_pos hname]
    have hcontains : (c.gain q ns).quantities.contains a.target = true := by
      rw [NameIndex.contains, hget]
      rfl
    rw [isFixed_of_history hlater hcontains, isFixed, hget, Option.any_some, Quantity.isBuiltin]
    simp [hq.line_ne]

/-- What becomes of the level of an operand: it was no higher than the statement, and later
assignments raise it. -/
theorem exists_levelOf_operand (hs : b.Reads s) (hn : n ∈ s.action.operands)
    (h : ReflTransGen Change (b.record s) b')
    (hys : b'.statements = (b.record s).statements ++ ys) :
    ∃ d ≤ s.level, b'.levelOf n = some (max d (assignedLevel n ys)) := by
  obtain ⟨hmem, q, hget⟩ := hs.mem_operands_iff.1 hn
  have hle : q.level ≤ s.level := hs.level_le hmem hget
  obtain ⟨ss, hss, hlater⟩ := get?_of_history h
  obtain rfl : ss = ys := List.append_cancel_left (hss.symm.trans hys)
  -- the statement may assign to its own operand
  obtain ⟨p, hp, hple⟩ :
      ∃ p, (b.record s).quantities.get? n = some p ∧ p.level ≤ s.level := by
    rw [get?_record, hget]
    split
    · exact ⟨q.raise s.level, rfl, max_le hle le_rfl⟩
    · exact ⟨q, rfl, hle⟩
  refine ⟨p.level, hple, ?_⟩
  rw [levelOf, hlater _ p hp]
  rfl

/-- What it means that an assignment is settled, in terms of what was recorded. -/
theorem settles_iff (hs : b.Reads s) (hn : s.action.target? = some n)
    (hl : b'.levelOf n = some l) :
    b'.Settles s ↔ ∀ m ∈ s.operandTokens, ∀ k, b'.levelOf m = some k → k ≤ l := by
  have hknown : b'.quantities.contains n = true := by
    obtain ⟨q, hq, -⟩ := levelOf_eq_some_iff.1 hl
    rw [NameIndex.contains, hq]
    rfl
  obtain ⟨a, ha, rfl, htokens⟩ := exists_reassignment hs hn hknown
  rw [settles_iff_of_reassignment ha hl, ← htokens, List.forall_mem_map]

/-- **When an assignment is settled in the end.** Its target ends at its level at least. It is
settled if and only if no later assignment raises one of its operands above the target. Names that
were declared after it count as well. -/
theorem settles_iff_of_history (h : ReflTransGen Change b b')
    (hs : b'.statements = b.statements ++ xs ++ s :: ys) (hn : s.action.target? = some n) :
    ∃ l, b'.levelOf n = some l ∧ s.level ≤ l ∧ (b'.Settles s ↔
      (∀ m ∈ s.action.operands, ∀ u ∈ ys, u.action.target? = some m → u.level ≤ l) ∧
      ∀ m ∈ s.operandTokens, m ∉ s.action.operands → ∀ k, b'.levelOf m = some k → k ≤ l) := by
  obtain ⟨b₁, -, hxs, hreads, hrest⟩ := exists_reading h hs
  obtain ⟨q, hq, hle⟩ := le_level_of_target hreads hn hrest
  have htarget := levelOf_of_get? hq
  refine ⟨q.level, htarget, hle, ?_⟩
  have hys : b'.statements = (b₁.record s).statements ++ ys := by
    rw [record_statements, hxs, hs, List.append_assoc _ [s] ys]
    rfl
  have hoperand : ∀ m ∈ s.action.operands, (∀ k, b'.levelOf m = some k → k ≤ q.level) ↔
      ∀ u ∈ ys, u.action.target? = some m → u.level ≤ q.level := by
    intro m hm
    obtain ⟨d, hd, hlevel⟩ := exists_levelOf_operand hreads hm hrest hys
    have hdq : d ≤ q.level := hd.trans hle
    rw [← assignedLevel_le_iff, hlevel]
    simp [hdq]
  rw [settles_iff hreads hn htarget]
  constructor
  · intro hall
    exact ⟨fun m hm ↦ (hoperand m hm).1 (hall m (hreads.mem_operands_iff.1 hm).1),
      fun m hm _ ↦ hall m hm⟩
  · rintro ⟨hlater, hnew⟩ m hm
    by_cases hmo : m ∈ s.action.operands
    · exact (hoperand m hmo).2 (hlater m hmo)
    · exact hnew m hm hmo

/-- **A body can be read again after its history**, and that changes no level if and only if all
statements are settled. -/
theorem exists_rereadAll_of_history (h : ReflTransGen Change b b') (hb : b.statements = [])
    (hwithin : b'.Within .perTerm) :
    ∃ c, b'.rereadAll b'.statements = .ok c ∧
      ((∀ n, c.levelOf n = b'.levelOf n) ↔ ∀ s ∈ b'.statements, b'.Settles s) := by
  have hfixed : ∀ s ∈ b'.statements, ∀ a, b'.reassignment? s = some a →
      b'.isFixed a.target = false := by
    intro s hs a ha
    obtain ⟨xs, ys, hsplit⟩ := List.append_of_mem hs
    have hsplit' : b'.statements = b.statements ++ xs ++ s :: ys := by
      rw [hb, List.nil_append, hsplit]
    exact isFixed_of_reassignment h hsplit' ha
  obtain ⟨c, hc, -, hkept⟩ := exists_rereadAll hwithin hwithin.statements hfixed
  exact ⟨c, hc, hkept⟩

end Body

/-! ### The tables of a description -/

namespace Tables

variable {src : Source} {text : Text} {comments : List Text} {t : Tables}

/-- **What one pass leaves open.** An assignment is settled in the end if and only if no later
assignment raises one of its operands above its target, and no name declared later is above it. The
statements can be read again from the final levels on. That changes no level if and only if all of
them are settled. -/
theorem relevelling_iff (h : withBuiltins.readDescription src text = .ok (comments, t))
    (r : Routine) :
    (∀ xs s ys n, (t.body r).statements = xs ++ s :: ys → s.action.target? = some n →
      ∃ l, (t.body r).levelOf n = some l ∧ s.level ≤ l ∧ ((t.body r).Settles s ↔
        (∀ m ∈ s.action.operands, ∀ u ∈ ys, u.action.target? = some m → u.level ≤ l) ∧
        ∀ m ∈ s.operandTokens, m ∉ s.action.operands →
          ∀ k, (t.body r).levelOf m = some k → k ≤ l)) ∧
    ∃ b, (t.body r).rereadAll (t.body r).statements = .ok b ∧
      ((∀ n, b.levelOf n = (t.body r).levelOf n) ↔
        ∀ s ∈ (t.body r).statements, (t.body r).Settles s) := by
  have hempty := withBuiltins_statements r
  have hwithin := within_of_readDescription h (withBuiltins_within r) r.perDocument_le_deepest
  have hhistory := history_of_readDescription h r
  refine ⟨fun xs s ys n hs hn ↦ ?_,
    Body.exists_rereadAll_of_history hhistory hempty (hwithin.mono r.deepest_le_perTerm)⟩
  have hs' : (t.body r).statements = (withBuiltins.body r).statements ++ xs ++ s :: ys := by
    rw [hempty]
    exact hs
  exact Body.settles_iff_of_history hhistory hs' hn

theorem relevelling_iff_peakText : ∃ comments t b,
    withBuiltins.readDescription peakSource peakText = .ok (comments, t) ∧
      (t.body .decode).rereadAll (t.body .decode).statements = .ok b ∧
      ¬ ∀ n, b.levelOf n = (t.body .decode).levelOf n := by
  obtain ⟨comments, t, hread, hstatements, hlast, -⟩ := exists_tables_of_peakText
  obtain ⟨hsettled, b, hb, hkept⟩ := relevelling_iff hread .decode
  refine ⟨comments, t, b, hread, hb, fun hsame ↦ ?_⟩
  have hall := hkept.1 hsame
  rw [hstatements] at hall
  obtain ⟨l, hl, -, hiff⟩ := hsettled [] settingLast _ "last".toList hstatements rfl
  obtain rfl := Option.some.inj (hlast.symm.trans hl)
  have hlater := (hiff.1 (hall settingLast List.mem_cons_self)).1 "peak".toList
    List.mem_cons_self settingPeak List.mem_cons_self rfl
  exact absurd hlater (by decide)

/-- **A quantity may end above one that is set from it**, if it is assigned to after that. -/
theorem exists_operand_above_target : ∃ comments t k l,
    withBuiltins.readDescription peakSource peakText = .ok (comments, t) ∧
      settingLast ∈ (t.body .decode).statements ∧
      settingLast.action = .assignment "last".toList ['='] ["peak".toList] ∧
      (t.body .decode).levelOf "last".toList = some l ∧
      (t.body .decode).levelOf "peak".toList = some k ∧ ¬ k ≤ l := by
  obtain ⟨comments, t, hread, hstatements, hlast, hpeak⟩ := exists_tables_of_peakText
  have hmem : settingLast ∈ (t.body .decode).statements := by
    rw [hstatements]
    exact List.mem_cons_self
  exact ⟨comments, t, _, _, hread, hmem, rfl, hlast, hpeak, by decide⟩

end Tables

end RankMetric
