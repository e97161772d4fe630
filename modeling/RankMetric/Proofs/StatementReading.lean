import RankMetric.Description
import RankMetric.Proofs.LevelOrder
import RankMetric.Proofs.TokenTexts

/-!
# Reading one statement

Three functions read statements: `Body.remark`, `Body.evaluate` and `Body.assign`. What they have in
common is said here once, so that nothing above this module unfolds them.

A statement `s` *reads off* a body `b` (`Body.Reads b s`) if it is what reading makes of its own
text when the body is `b`. The relation is between the body before, the statement, and nothing else:
the tokens of the text decide whether the statement is an assignment, which declared quantities it
reads, and at which level it runs. What becomes of the body is then a function of the statement,
`Body.record`.

* `remark_eq_record`, `record_of_evaluate` and `record_of_assign`: each of the three reads a
  statement off the body and records it.
* `get?_record`, `contains_used_record`: what a recorded statement changes. Its target is raised to
  its level, its operands and its target count as used, and that is all.
* `refuses_of_evaluate`, `refuses_of_assign`: what the reading fails with, and that the body is left
  as it was but for used names.

An assignment may take several lines. While it is open, `Assignment.Begun` holds: the tokens kept
are those of the text read so far (`Assignment.Begun.extend`). That is where a blank between the
lines matters, and it is the only fact on texts used here.
-/

namespace RankMetric

/-- A computation that succeeds in two steps succeeds in each. -/
theorem exists_of_bind_eq_ok {ε α β : Type} {x : Except ε α} {f : α → Except ε β} {b : β}
    (h : x >>= f = .ok b) : ∃ a, x = .ok a ∧ f a = .ok b := by
  cases x with
  | error e => cases h
  | ok a => exact ⟨a, rfl, h⟩

/-- A computation in two steps fails in one of them. -/
theorem eq_error_or_of_bind_eq_error {ε α β : Type} {x : Except ε α} {f : α → Except ε β} {e : ε}
    (h : x >>= f = .error e) : x = .error e ∨ ∃ a, x = .ok a ∧ f a = .error e := by
  cases x with
  | error e' => exact .inl (congrArg Except.error (Except.error.inj h))
  | ok a => exact .inr ⟨a, rfl, h⟩

/-! ### Tokens and the quantities they name -/

/-- The text of a remark in the generated program. -/
def remarkText (text : Text) : Text :=
  "/* ".toList ++ text ++ " */".toList

namespace Statement

/-- The significant tokens of the text. -/
def tokens (s : Statement) : List Text :=
  tokenTexts s.text

/-- The tokens that a statement reads: those after the operator of an assignment, and all tokens of
any other line of code. A remark is no code and reads none. -/
def operandTokens (s : Statement) : List Text :=
  match s.action with
  | .remark => []
  | .evaluation _ => s.tokens
  | .assignment _ _ _ => s.tokens.drop 2

/-- The target of a statement, if it has one, and the tokens it reads. -/
def mentions (s : Statement) : List Text :=
  s.action.target?.toList ++ s.operandTokens

end Statement

namespace Quantities

/-- The quantities that token texts name. -/
def namedBy (q : Quantities) (ts : List Text) : List Quantity :=
  ts.filterMap q.get?

theorem named_eq_namedBy (q : Quantities) (ts : List Token) :
    q.named ts = q.namedBy (ts.map Token.text) := by
  rw [named, namedBy, List.filterMap_map]
  rfl

theorem mem_namedBy {q : Quantities} {ts : List Text} {x : Quantity} :
    x ∈ q.namedBy ts ↔ x.name ∈ ts ∧ q.get? x.name = some x := by
  rw [namedBy, List.mem_filterMap]
  constructor
  · rintro ⟨n, hn, hx⟩
    obtain rfl := NameIndex.name_of_get? hx
    exact ⟨hn, hx⟩
  · rintro ⟨hn, hx⟩
    exact ⟨x.name, hn, hx⟩

/-- Whether tokens make an assignment: a declared name, an assignment operator, and more. -/
def Assigns (q : Quantities) (ts : List Text) : Prop :=
  ∃ target operator t rest, ts = target :: operator :: t :: rest ∧ q.contains target = true ∧
    assignmentOperators.contains operator = true

end Quantities

/-- The kind recorded for a statement is the right one: a remark was made of a line that begins with
`#`, and any other statement is of the kind that its tokens have against the declared quantities. -/
def Statement.Recognised (q : Quantities) (s : Statement) : Prop :=
  match s.action with
  | .remark => ∃ line text, InnerLine.ofText line = .remark text ∧ s.text = remarkText text
  | .evaluation _ => ¬ q.Assigns s.tokens
  | .assignment target operator _ =>
    ∃ t rest, s.tokens = target :: operator :: t :: rest ∧ q.contains target = true ∧
      assignmentOperators.contains operator = true

/-- The tokens of an assignment are its target, an operator, and at least one more. -/
theorem Statement.Recognised.exists_tokens {q : Quantities} {s : Statement} {n : Name}
    (h : s.Recognised q) (hn : s.action.target? = some n) :
    ∃ operator t rest, s.tokens = n :: operator :: t :: rest ∧ s.operandTokens = t :: rest ∧
      q.contains n = true ∧ assignmentOperators.contains operator = true := by
  unfold Recognised at h
  unfold operandTokens
  cases haction : s.action with
  | remark => simp [haction, Action.target?] at hn
  | evaluation ns => simp [haction, Action.target?] at hn
  | assignment target operator ns =>
    simp only [haction, Action.target?, Option.some.injEq] at h hn
    obtain ⟨t, rest, htokens, hknown, hop⟩ := h
    subst hn
    exact ⟨operator, t, rest, htokens, by rw [htokens]; rfl, hknown, hop⟩

/-- A line of code whose tokens make an assignment is recorded as one. -/
theorem Statement.Recognised.target?_eq {q : Quantities} {s : Statement} {n : Name}
    {operator t : Text} {rest : List Text} (h : s.Recognised q) (hcode : s.action ≠ .remark)
    (htokens : s.tokens = n :: operator :: t :: rest) (hn : q.contains n = true)
    (hop : assignmentOperators.contains operator = true) : s.action.target? = some n := by
  unfold Recognised at h
  cases haction : s.action with
  | remark => exact absurd haction hcode
  | evaluation ns =>
    rw [haction] at h
    exact absurd ⟨_, _, _, _, htokens, hn, hop⟩ h
  | assignment target operator' ns =>
    rw [haction] at h
    obtain ⟨t', rest', htokens', -, -⟩ := h
    exact congrArg some (List.cons_eq_cons.1 (htokens'.symm.trans htokens)).1

/-- **A statement reads off a body** if it is what reading makes of its text when the body is as
given. -/
structure Body.Reads (b : Body) (s : Statement) : Prop where
  /-- The kind is the right one. -/
  recognised : s.Recognised b.quantities
  /-- The operands are the declared quantities among the tokens that are read. -/
  operands_eq : s.action.operands =
    (b.quantities.namedBy s.operandTokens).map Quantity.name
  /-- The level is the highest of the operands. -/
  level_eq : s.level = Quantity.joinLevels (b.quantities.namedBy s.operandTokens)
  /-- No operand is an accumulator. -/
  readable : ∀ q ∈ b.quantities.namedBy s.operandTokens, q.level.isWriteOnly = false
  /-- The target is no constant built-in. -/
  assignable : ∀ t, s.action.target? = some t → b.isFixed t = false

/-- The operands of a statement are those of the tokens it reads that are declared. -/
theorem Body.Reads.mem_operands_iff {b : Body} {s : Statement} {n : Name} (h : b.Reads s) :
    n ∈ s.action.operands ↔ n ∈ s.operandTokens ∧ ∃ q, b.quantities.get? n = some q := by
  rw [h.operands_eq, List.mem_map]
  constructor
  · rintro ⟨q, hq, rfl⟩
    obtain ⟨hmem, hget⟩ := Quantities.mem_namedBy.1 hq
    exact ⟨hmem, q, hget⟩
  · rintro ⟨hmem, q, hget⟩
    obtain rfl := NameIndex.name_of_get? hget
    exact ⟨q, Quantities.mem_namedBy.2 ⟨hmem, hget⟩, rfl⟩

/-- The body after a statement was read off it. -/
def Body.record (b : Body) (s : Statement) : Body :=
  match s.action.target? with
  | none => (b.useAll s.action.operands).push s
  | some t => (((b.useAll s.action.operands).use t).raise t s.level).push s

/-! ### What recording a statement changes -/

namespace Body

variable {b : Body} {s : Statement}

@[simp] theorem record_statements (b : Body) (s : Statement) :
    (b.record s).statements = b.statements ++ [s] := by
  unfold record
  cases s.action.target? <;> simp

/-- The target is raised to the level of the statement, and every other name answers as before. -/
theorem get?_record (b : Body) (s : Statement) (n : Name) :
    (b.record s).quantities.get? n =
      if s.action.target? = some n then (b.quantities.get? n).map (Quantity.raise s.level)
      else b.quantities.get? n := by
  unfold record
  cases s.action.target? with
  | none => simp
  | some t => simp [get?_raise, eq_comm]

theorem contains_record (b : Body) (s : Statement) (n : Name) :
    (b.record s).quantities.contains n = b.quantities.contains n := by
  rw [NameIndex.contains, NameIndex.contains, get?_record]
  split
  · rw [Option.isSome_map]
  · rfl

/-- The names used are those used before, the operands and the target. -/
theorem contains_used_record (b : Body) (s : Statement) (n : Name) :
    (b.record s).used.contains n = true ↔
      s.action.target? = some n ∨ n ∈ s.action.operands ∨ b.used.contains n = true := by
  unfold record
  cases s.action.target? with
  | none => simp [useAll, NameSet.contains_insertAll]
  | some t => simp [use, useAll, NameIndex.contains_insert, NameSet.contains_insertAll]

/-! ### The three ways to read a statement -/

/-- Reading operands gives the quantities that the tokens name, none of which is an accumulator, and
records them as used. -/
theorem readOperands_eq_ok {ts : List Token} {qs : List Quantity} {b' : Body}
    (h : b.readOperands ts = .ok (qs, b')) :
    qs = b.quantities.named ts ∧ b' = b.useAll (qs.map Quantity.name) ∧
      ∀ q ∈ qs, q.level.isWriteOnly = false := by
  unfold readOperands at h
  dsimp only at h
  split at h
  · cases h
  · next hnone =>
    obtain ⟨rfl, rfl⟩ := Prod.mk.inj (Except.ok.inj h)
    refine ⟨rfl, rfl, fun q hq ↦ ?_⟩
    simpa using List.find?_eq_none.1 hnone q hq

/-- A remark is read off every body. -/
theorem remark_eq_record {line text : Text} (b : Body) (n : Nat)
    (hline : InnerLine.ofText line = .remark text) :
    ∃ s, s.action = .remark ∧ b.Reads s ∧ b.remark n text = b.record s := by
  let s : Statement := ⟨n, .constant, remarkText text, .remark⟩
  refine ⟨s, rfl, ⟨⟨line, text, hline, rfl⟩, rfl, rfl, fun q hq ↦ absurd hq List.not_mem_nil,
    fun t ht ↦ ?_⟩, rfl⟩
  cases ht

end Body

namespace Assignment

variable {q : Quantities} {n : Nat} {text : Text} {a : Assignment}

/-- An assignment is begun against the declared quantities: its text has the tokens kept for it, and
they make an assignment. -/
structure Begun (q : Quantities) (a : Assignment) : Prop where
  tokens_eq : tokenTexts a.text = a.target :: a.operator :: a.tokens.map Token.text
  known : q.contains a.target = true
  isOperator : assignmentOperators.contains a.operator = true
  tokens_ne : a.tokens ≠ []

theorem begun_of_begin? (h : begin? q n text = some a) :
    a.line = n ∧ a.text = text ∧ a.Begun q := by
  unfold begin? at h
  split at h
  · next target operator t ts hts =>
    split at h
    · next hcond =>
      obtain rfl := Option.some.inj h
      rw [Bool.and_eq_true] at hcond
      exact ⟨rfl, rfl, by simp [tokenTexts, hts], hcond.1, hcond.2, by simp⟩
    · cases h
  · cases h

theorem not_assigns_of_begin? (h : begin? q n text = none) : ¬ q.Assigns (tokenTexts text) := by
  rintro ⟨target, operator, t, rest, hts, hknown, hop⟩
  unfold begin? at h
  rw [tokenTexts] at hts
  obtain ⟨u, us, hu, rfl, hus⟩ := List.map_eq_cons_iff.1 hts
  obtain ⟨v, vs, rfl, rfl, hvs⟩ := List.map_eq_cons_iff.1 hus
  obtain ⟨w, ws, rfl, rfl, rfl⟩ := List.map_eq_cons_iff.1 hvs
  rw [hu] at h
  dsimp only at h
  rw [hknown, hop] at h
  cases h

/-- A further line keeps an assignment begun: a blank stands between the lines. -/
theorem Begun.extend (h : a.Begun q) (text : Text) : (a.extend text).Begun q where
  tokens_eq := by
    have hblank : Text.isBlank ' ' = true := rfl
    rw [Assignment.extend, tokenTexts_append_blank _ _ hblank, tokenTexts_trimEnd, h.tokens_eq,
      List.map_append]
    rfl
  known := h.known
  isOperator := h.isOperator
  tokens_ne := by simp [Assignment.extend, h.tokens_ne]

end Assignment

namespace Body

variable {b b' : Body} {n k : Nat} {text : Text} {a : Assignment}

/-- A line of code that begins no assignment is read as one statement. -/
theorem record_of_evaluate (h : b.evaluate n text = .ok b')
    (hbegin : Assignment.begin? b.quantities k text = none) :
    ∃ s, s.action ≠ .remark ∧ b.Reads s ∧ b' = b.record s := by
  obtain ⟨⟨qs, b₁⟩, hread, hpush⟩ := exists_of_bind_eq_ok h
  obtain ⟨hqs, rfl, hreadable⟩ := readOperands_eq_ok hread
  rw [Quantities.named_eq_namedBy] at hqs
  let s : Statement :=
    ⟨n, Quantity.joinLevels qs, Text.trim text, .evaluation (qs.map Quantity.name)⟩
  have htokens : s.operandTokens = (significant text).map Token.text := tokenTexts_trim text
  refine ⟨s, nofun, ⟨?_, ?_, ?_, ?_, fun t ht ↦ by cases ht⟩, (Except.ok.inj hpush).symm⟩
  · show ¬ b.quantities.Assigns (tokenTexts (Text.trim text))
    rw [tokenTexts_trim]
    exact Assignment.not_assigns_of_begin? hbegin
  · rw [htokens, ← hqs]
    rfl
  · rw [htokens, ← hqs]
  · rw [htokens, ← hqs]
    exact hreadable

/-- An assignment that has been begun is read as one statement. -/
theorem record_of_assign (h : b.assign a = .ok b') (ha : a.Begun b.quantities) :
    ∃ s, s.action ≠ .remark ∧ b.Reads s ∧ b' = b.record s := by
  unfold assign at h
  split at h
  · cases h
  next hfixed =>
  obtain ⟨⟨qs, b₁⟩, hread, hpush⟩ := exists_of_bind_eq_ok h
  obtain ⟨hqs, rfl, hreadable⟩ := readOperands_eq_ok hread
  rw [Quantities.named_eq_namedBy] at hqs
  let s : Statement := ⟨a.line, Quantity.joinLevels qs, Text.trim a.text,
    .assignment a.target a.operator (qs.map Quantity.name)⟩
  -- the tokens that were kept are those of the text that was kept
  have htexts : s.tokens = a.target :: a.operator :: a.tokens.map Token.text :=
    (tokenTexts_trim a.text).trans ha.tokens_eq
  have htokens : s.operandTokens = a.tokens.map Token.text := by
    show s.tokens.drop 2 = _
    rw [htexts]
    rfl
  refine ⟨s, nofun, ⟨?_, ?_, ?_, ?_, fun t ht ↦ ?_⟩, (Except.ok.inj hpush).symm⟩
  · obtain ⟨t, ts, hts⟩ := List.exists_cons_of_ne_nil ha.tokens_ne
    exact ⟨t.text, ts.map Token.text, by rw [htexts, hts]; rfl, ha.known, ha.isOperator⟩
  · rw [htokens, ← hqs]
    rfl
  · rw [htokens, ← hqs]
  · rw [htokens, ← hqs]
    exact hreadable
  · obtain rfl := Option.some.inj ht
    simpa using hfixed

/-! ### What a statement can fail with -/

/-- **What reading a statement fails with.** It reads an accumulator or assigns to a constant. The
body is left with more names used at most. -/
inductive Refuses (b : Body) : StatementFault → Prop
  | accumulator (n : Name) (ns : List Name) : b.Refuses (.accumulatorRead n, b.useAll ns)
  | constant (n : Name) : b.Refuses (.constAssignment n, b)

section

variable {f : StatementFault}

theorem refuses_of_readOperands {ts : List Token} (h : b.readOperands ts = .error f) :
    b.Refuses f := by
  unfold readOperands at h
  dsimp only at h
  split at h
  · obtain rfl := Except.error.inj h
    exact .accumulator _ _
  · cases h

theorem refuses_of_evaluate (h : b.evaluate n text = .error f) : b.Refuses f := by
  obtain hread | ⟨_, -, hpush⟩ := eq_error_or_of_bind_eq_error h
  · exact refuses_of_readOperands hread
  · cases hpush

theorem refuses_of_assign (h : b.assign a = .error f) : b.Refuses f := by
  unfold assign at h
  split at h
  · obtain rfl := Except.error.inj h
    exact .constant _
  · obtain hread | ⟨_, -, hpush⟩ := eq_error_or_of_bind_eq_error h
    · exact refuses_of_readOperands hread
    · cases hpush

end

end Body

end RankMetric
