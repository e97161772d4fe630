import RankMetric.Proofs.DeclarationVerdicts
import RankMetric.Proofs.GrowingTables
import RankMetric.Proofs.StatementSteps

/-!
# The declarations of a description

Two kinds of lines declare something: a `parameter` line outside the routines, and among the
declarations of a routine a line that begins with a type word. What such a line declares, and in
which scopes, is a `Declaring`, and `Reader.Declares` says which lines are of the two kinds.

* `Tables.mem_mentions_iff`: which words of its initializer a declaration line mentions.
* `Reader.lineEffect_of_step`: a line changes the tables by a declaration, or by one more statement,
  or not at all (`Reader.LineEffect`).
* `Reader.of_run`: what every such effect keeps holds after a run.
* `Reader.Accepted`: the moment of a run at which a declaration was accepted. What it declared is
  never lost (`Accepted.grows`).
-/

namespace RankMetric

open Text

/-! ### What an initializer mentions -/

namespace Tables

open DeclarationLine

variable {raw : Text} {n : Name} {d : DeclarationLine}

/-- A word between the name and the last token of a line. -/
def Mentions (raw : Text) (n : Name) : Prop :=
  ∃ front name after, HasName raw front name after ∧
    ∃ w ∈ after.dropLast, w.isWord = true ∧ w.text = n

/-- A line is taken apart in one way only. -/
theorem HasName.unique {front front' after after' : List Token} {name name' : Token}
    (h : HasName raw front name after) (h' : HasName raw front' name' after') :
    front = front' ∧ name = name' ∧ after = after' := by
  obtain ⟨code, comment, hsplit, htokens⟩ := h.tokens
  obtain ⟨code', comment', hsplit', htokens'⟩ := h'.tokens
  obtain ⟨rfl, -⟩ := Prod.mk.inj (Option.some.inj (hsplit.symm.trans hsplit'))
  obtain ⟨hfront, hrest⟩ := h.run.unique h'.run (htokens.symm.trans htokens')
  exact ⟨hfront, List.cons.inj hrest⟩

theorem mem_mentions_iff (h : read raw = .ok d) : n ∈ d.mentions ↔ Mentions raw n := by
  obtain ⟨code, comment, front, name, rest, hsplit, htokens, hrun, hname, rfl⟩ := read_eq_ok_iff.1 h
  have hline : HasName raw front name rest := ⟨⟨code, comment, hsplit, htokens⟩, hrun, hname⟩
  have hwords : n ∈ (ofTokens (trimEnd code) comment front name rest).mentions ↔
      ∃ w ∈ rest.dropLast, w.isWord = true ∧ w.text = n := by
    simp only [ofTokens, List.mem_map, List.mem_filter, and_assoc]
  rw [hwords]
  constructor
  · exact fun hw ↦ ⟨front, name, rest, hline, hw⟩
  · rintro ⟨front', name', after', hline', hw⟩
    obtain ⟨-, -, rfl⟩ := hline.unique hline'
    exact hw

end Tables

/-! ### Lines that declare -/

/-- What a line of a description declares: the text that is read as a declaration line, the scopes
it is declared in, and what is known of the quantity without that text. -/
structure Declaring where
  raw : Text
  targets : List Scope
  level : Level
  attributes : Name → Attributes

/-- What a `parameter` line declares, of which `raw` is the part behind that word. -/
def Declaring.ofParameter (src : Source) (raw : Text) : Declaring where
  raw := raw
  targets := Reader.parameterScopes
  level := .constant
  attributes := Reader.parameterAttributes src.metric

/-- What a line declares in a routine. -/
def Declaring.ofRoutine (r : Routine) (raw : Text) : Declaring where
  raw := raw
  targets := [.routine r]
  level := .perDocument
  attributes _ := Reader.localAttributes

namespace Reader

variable {src : Source} {rd rd' : Reader} {r : Routine} {n : Nat} {line : Text}
  {D : Declaring} {t t' : Tables} {lines : List Text} {name : Name}

theorem mem_parameterScopes (s : Scope) : s ∈ parameterScopes := by
  cases s with
  | params => exact List.mem_cons_self
  | routine r => cases r <;> simp [parameterScopes]

/-- **The lines that declare something.** -/
inductive Declares (src : Source) (rd : Reader) (line : Text) : Declaring → Prop
  | parameter {raw : Text} (place : rd.place = .outside)
      (kind : OuterLine.ofText line = .parameter raw) :
    Declares src rd line (.ofParameter src raw)
  | ofRoutine {r : Routine} (place : rd.place = .declarations r)
      (kind : InnerLine.ofText line = .code)
      (typed : ((significant line).head?.any fun t ↦ isTypeWord t.text) = true) :
    Declares src rd line (.ofRoutine r line)

/-- What is declared is known to change with the document at most. -/
theorem Declares.level_le (h : rd.Declares src line D) : D.level ≤ .perDocument := by
  cases h with
  | parameter => exact Level.constant_le _
  | ofRoutine => exact le_rfl

/-- A line that declares something is declared, and the reader goes on if it can be. -/
theorem Declares.step_eq (h : rd.Declares src line D) :
    ∃ place, rd.step src n line = rd.proceed place
      (rd.tables.declare src.file D.targets D.raw (lineNumber n) D.level D.attributes) := by
  cases h with
  | parameter place kind =>
    refine ⟨.outside, ?_⟩
    simp only [step, place, stepOuter, kind, Declaring.ofParameter]
  | ofRoutine place kind typed =>
    refine ⟨rd.place, ?_⟩
    simp only [step, place, stepDeclaration, kind, typed, if_true, Declaring.ofRoutine]

/-- Whether the line at position `n` declares something and can be declared under a name, which
leads to some tables. -/
structure Accepts (src : Source) (rd : Reader) (n : Nat) (line : Text) (D : Declaring) (name : Name)
    (t : Tables) : Prop where
  declares : rd.Declares src line D
  declare_eq : rd.tables.declare src.file D.targets D.raw (lineNumber n) D.level D.attributes =
    .ok (name, t)

/-- The tables that an accepted line leads to are those of the reader after the line. -/
theorem Accepts.tables_eq (h : rd.Accepts src n line D name t)
    (hstep : rd.step src n line = .ok rd') : rd'.tables = t := by
  obtain ⟨place, heq⟩ := h.declares.step_eq (n := n)
  rw [heq, h.declare_eq] at hstep
  rw [← Except.ok.inj hstep]

/-- If a line declares something and the reader goes on, it is accepted. -/
theorem Declares.exists_accepts (hD : rd.Declares src line D) (h : rd.step src n line = .ok rd') :
    ∃ name, rd.Accepts src n line D name rd'.tables := by
  obtain ⟨place, hstep⟩ := hD.step_eq (n := n)
  rw [hstep] at h
  cases hdeclare :
      rd.tables.declare src.file D.targets D.raw (lineNumber n) D.level D.attributes with
  | error e =>
    rw [hdeclare] at h
    cases h
  | ok p =>
    obtain ⟨name, t⟩ := p
    rw [hdeclare] at h
    obtain rfl := Except.ok.inj h
    exact ⟨name, hD, hdeclare⟩

/-- **What a line does to the tables**: it is accepted as a declaration, or it is the end of a
statement, or it does nothing. -/
inductive LineEffect (src : Source) (rd : Reader) (n : Nat) (line : Text) (rd' : Reader) : Prop
  | unchanged (tables : rd'.tables = rd.tables)
  | declared {D : Declaring} {name : Name} (accepts : rd.Accepts src n line D name rd'.tables)
  | read {r : Routine} {s : Statement} (reads : (rd.tables.body r).Reads s)
      (tables : rd'.tables = rd.tables.setBody r ((rd.tables.body r).record s))

theorem StatementStep.isWithin (h : rd.StatementStep n line r rd') : rd'.IsWithin r := by
  cases h with
  | blank | remark | evaluated | assigned => exact .inl rfl
  | opened => exact .inr ⟨_, rfl⟩

/-- A line that leads to no statements changes the tables only if it declares something. -/
theorem exists_declares_of_step (h : rd.step src n line = .ok rd')
    (hwithin : ∀ r, ¬ rd'.IsWithin r) (htables : rd'.tables ≠ rd.tables) :
    ∃ D, rd.Declares src line D := by
  have houter : rd.place = .outside → rd.stepOuter src (lineNumber n) line = .ok rd' →
      ∃ D, rd.Declares src line D := by
    intro hplace h
    unfold stepOuter at h
    split at h
    · obtain rfl := Except.ok.inj h
      exact absurd (by split <;> rfl) htables
    · next kind => exact ⟨_, .parameter hplace kind⟩
    · obtain rfl := Except.ok.inj h
      exact absurd rfl htables
    · cases h
  cases hplace : rd.place with
  | outside =>
    rw [step, hplace] at h
    exact houter hplace h
  | declarations r =>
    cases hkind : InnerLine.ofText line with
    | code =>
      cases htyped : (significant line).head?.any fun t ↦ isTypeWord t.text with
      | true => exact ⟨_, .ofRoutine hplace hkind htyped⟩
      | false =>
        have hcode : rd.IsCode r line := ⟨hkind, .inr ⟨hplace, htyped⟩⟩
        exact absurd (hcode.statementStep h).isWithin (hwithin r)
    | closing | blank | remark text =>
      rw [step, hplace] at h
      simp only [stepDeclaration, hkind] at h
      obtain rfl := Except.ok.inj h
      exact absurd rfl htables
  | statements r =>
    cases hkind : InnerLine.ofText line with
    | code =>
      have hcode : rd.IsCode r line := ⟨hkind, .inl hplace⟩
      exact absurd (hcode.statementStep h).isWithin (hwithin r)
    | closing | blank =>
      rw [step, hplace] at h
      simp only [stepStatement, hkind] at h
      obtain rfl := Except.ok.inj h
      exact absurd rfl htables
    | remark text =>
      rw [step, hplace] at h
      simp only [stepStatement, hkind] at h
      obtain rfl := Except.ok.inj h
      exact absurd (.inl rfl) (hwithin r)
  | assignment r a =>
    rw [step, hplace] at h
    exact absurd (statementStep_of_advance (n := n) (.extended hplace) h).isWithin (hwithin r)

/-- **Every line has one of the three effects.** -/
theorem lineEffect_of_step (hrd : rd.Coherent) (h : rd.step src n line = .ok rd') :
    rd.LineEffect src n line rd' := by
  cases effect_of_step hrd h with
  | unchanged tables _ _ => exact .unchanged tables
  | declared _ _ _ place =>
    by_cases htables : rd'.tables = rd.tables
    · exact .unchanged htables
    · obtain ⟨D, hD⟩ := exists_declares_of_step h place htables
      obtain ⟨name, haccepts⟩ := hD.exists_accepts h
      exact .declared haccepts
  | read _ _ _ reads tables => exact .read reads tables

/-! ### Runs -/

/-- **What every line keeps holds after a run.** -/
theorem of_run {P : List Text → Reader → Prop}
    (h : ({ tables := t } : Reader).run src 1 lines = .ok rd') (hnil : P [] { tables := t })
    (hconcat : ∀ lines line rd rd', ({ tables := t } : Reader).run src 1 lines = .ok rd →
      P lines rd → rd.LineEffect src (1 + lines.length) line rd' → P (lines ++ [line]) rd') :
    P lines rd' := by
  induction lines using List.reverseRecOn generalizing rd' with
  | nil =>
    obtain rfl := Except.ok.inj h
    exact hnil
  | append_singleton lines line ih =>
    obtain ⟨rd, hrun, hstep⟩ := exists_of_run_concat h
    exact hconcat lines line rd rd' hrun (ih hrun)
      (lineEffect_of_step (history_of_run (coherent_top t) hrun).1 hstep)

/-- The moment of a run at which the line behind `k` others was accepted as a declaration by the
reader `rd`, which led to the tables `t'`. -/
structure Accepted (src : Source) (t : Tables) (lines : List Text) (k : Nat) (rd : Reader)
    (D : Declaring) (name : Name) (t' : Tables) : Prop where
  run : ({ tables := t } : Reader).run src 1 (lines.take k) = .ok rd
  line : ∃ line, lines[k]? = some line ∧ rd.Accepts src (1 + k) line D name t'

variable {k : Nat}

/-- A line that is accepted last is accepted. -/
theorem accepted_last (hrun : ({ tables := t } : Reader).run src 1 lines = .ok rd)
    (h : rd.Accepts src (1 + lines.length) line D name t') :
    Accepted src t (lines ++ [line]) lines.length rd D name t' where
  run := by rwa [List.take_left]
  line := ⟨line, by simp, h⟩

/-- What was accepted stays accepted when more lines follow. -/
theorem Accepted.concat (h : Accepted src t lines k rd D name t') (line : Text) :
    Accepted src t (lines ++ [line]) k rd D name t' := by
  obtain ⟨l, hl, haccepts⟩ := h.line
  have hk : k < lines.length := (List.getElem?_eq_some_iff.1 hl).1
  refine ⟨?_, l, ?_, haccepts⟩
  · rw [List.take_append_of_le_length hk.le]
    exact h.run
  · rw [List.getElem?_append_left hk]
    exact hl

/-- **What was accepted is never lost**: the tables have grown since. -/
theorem Accepted.grows (h : Accepted src t lines k rd D name t')
    (hrun : ({ tables := t } : Reader).run src 1 lines = .ok rd') : t'.Grows rd'.tables := by
  obtain ⟨line, hline, haccepts⟩ := h.line
  obtain ⟨hk, hget⟩ := List.getElem?_eq_some_iff.1 hline
  have hsplit : lines = lines.take k ++ line :: lines.drop (k + 1) := by
    rw [← hget, List.getElem_cons_drop, List.take_append_drop]
  rw [hsplit, run_append, h.run, List.length_take_of_le hk.le] at hrun
  have hfrom : rd.run src (1 + k) (line :: lines.drop (k + 1)) = .ok rd' := hrun
  obtain ⟨rd₁, hstep, hrest⟩ := exists_of_bind_eq_ok hfrom
  have hgrows := grows_run src rd₁ (1 + k + 1) (lines.drop (k + 1))
  rw [hrest, haccepts.tables_eq hstep] at hgrows
  exact hgrows

end Reader

end RankMetric
