import RankMetric.Proofs.Compilation

/-!
# What a step does with statements

Three things are added to a body while it is read: remarks, assignments and other statements. This
module says what the last two are, for every body and every text, and when reading them succeeds
(`Body.assign_eq_ok_iff`, `Body.evaluate_eq_ok_iff`). Both ways of the equivalences count: one takes
a reading apart, the other builds one.

`Reader.advances_of_step` sorts the steps of the reader by what they have to do with assignments. A
line begins an assignment or goes on with one (`Reader.Advances`), and what becomes of it then is
said by `Reader.advance_eq_ok`; or no assignment is open after the line and none was added
(`Reader.Plain`).

`Reader.comments_of_step` says what a step does with the comments, wherever the reader is. Only a
line outside the routines can add to them.
-/

namespace RankMetric

open Text

/-! ### Assignments and other statements -/

namespace Body

variable {b b' : Body} {n : Nat} {text : Text} {a : Assignment}

/-- The statement that a complete assignment is read as. -/
def assigned (b : Body) (a : Assignment) : Statement :=
  ⟨a.line, Quantity.joinLevels (b.quantities.named a.tokens), trim a.text,
    .assignment a.target a.operator ((b.quantities.named a.tokens).map Quantity.name)⟩

/-- The statement that a line is read as if it is no assignment. -/
def evaluated (b : Body) (n : Nat) (text : Text) : Statement :=
  ⟨n, Quantity.joinLevels (b.quantities.named (significant text)), trim text,
    .evaluation ((b.quantities.named (significant text)).map Quantity.name)⟩

/-- Whether no quantity among tokens is an accumulator. -/
def Readable (b : Body) (ts : List Token) : Prop :=
  ∀ q ∈ b.quantities.named ts, q.level.isWriteOnly = false

/-- Readable operands are read, and used. -/
theorem readOperands_of_readable {ts : List Token} (h : b.Readable ts) :
    b.readOperands ts =
      .ok (b.quantities.named ts, b.useAll ((b.quantities.named ts).map Quantity.name)) := by
  have hnone : (b.quantities.named ts).find? (fun q ↦ q.level.isWriteOnly) = none :=
    List.find?_eq_none.2 fun q hq ↦ by simp [h q hq]
  rw [readOperands, hnone]

/-- **When a complete assignment can be read, and what is read then.** -/
theorem assign_eq_ok_iff : b.assign a = .ok b' ↔
    b.isFixed a.target = false ∧ b.Readable a.tokens ∧ b' = b.record (b.assigned a) := by
  constructor
  · intro h
    unfold assign at h
    split at h
    · cases h
    next hfixed =>
    obtain ⟨⟨qs, b₁⟩, hread, hpush⟩ := exists_of_bind_eq_ok h
    obtain ⟨rfl, rfl, hreadable⟩ := readOperands_eq_ok hread
    exact ⟨by simpa using hfixed, hreadable, (Except.ok.inj hpush).symm⟩
  · rintro ⟨hfixed, hreadable, rfl⟩
    rw [assign, if_neg (by simp [hfixed]), readOperands_of_readable hreadable]
    rfl

/-- **When a line that is no assignment can be read, and what is read then.** -/
theorem evaluate_eq_ok_iff : b.evaluate n text = .ok b' ↔
    b.Readable (significant text) ∧ b' = b.record (b.evaluated n text) := by
  constructor
  · intro h
    obtain ⟨⟨qs, b₁⟩, hread, hpush⟩ := exists_of_bind_eq_ok h
    obtain ⟨rfl, rfl, hreadable⟩ := readOperands_eq_ok hread
    exact ⟨hreadable, (Except.ok.inj hpush).symm⟩
  · rintro ⟨hreadable, rfl⟩
    rw [evaluate, readOperands_of_readable hreadable]
    rfl

end Body

/-! ### Steps -/

namespace Reader

variable {src : Source} {rd rd' : Reader} {r : Routine} {n : Nat} {line : Text}
  {a : Assignment}

/-- What a reader is after settling a body. -/
def settled (rd : Reader) (r : Routine) (b : Body) : Reader :=
  { rd with tables := rd.tables.setBody r b, place := .statements r }

/-- A body that is settled without an error is the only thing to change. -/
theorem eq_settled_of_settle {text : Text} {res : Except StatementFault Body}
    (h : rd.settle src r n text res = .ok rd') : ∃ b, res = .ok b ∧ rd' = rd.settled r b := by
  cases res with
  | error f => cases h
  | ok b => exact ⟨b, rfl, (Except.ok.inj h).symm⟩

/-- Whether a line is one of code among the statements of a routine, or the first of them. -/
structure IsCode (rd : Reader) (r : Routine) (line : Text) : Prop where
  kind : InnerLine.ofText line = .code
  place : rd.place = .statements r ∨ rd.place = .declarations r ∧
    ((significant line).head?.any fun t ↦ isTypeWord t.text) = false

theorem IsCode.place_ne (h : rd.IsCode r line) : ∀ r' a', rd.place ≠ .assignment r' a' := by
  rcases h.place with hp | ⟨hp, -⟩ <;> simp [hp]

/-- **A line of code** begins an assignment or is a statement by itself. -/
theorem IsCode.step_eq (h : rd.IsCode r line) :
    rd.step src n line =
      match Assignment.begin? (rd.tables.body r).quantities (lineNumber n) line with
      | some a => rd.advance src r a
      | none =>
        rd.settle src r (lineNumber n) line ((rd.tables.body r).evaluate (lineNumber n) line) := by
  have hstatement : ∀ n, rd.stepStatement src r n line =
      match Assignment.begin? (rd.tables.body r).quantities n line with
      | some a => rd.advance src r a
      | none => rd.settle src r n line ((rd.tables.body r).evaluate n line) := by
    intro n
    cases hbegin : Assignment.begin? (rd.tables.body r).quantities n line with
    | none => simp only [stepStatement, h.kind, hbegin]
    | some a => simp only [stepStatement, h.kind, hbegin]
  rw [← hstatement, step]
  rcases h.place with hp | ⟨hp, hword⟩
  · rw [hp]
  · rw [hp]
    dsimp only
    rw [stepDeclaration, h.kind]
    exact if_neg (by simp [hword])

/-- The assignment that the line of a routine at position `n` begins or goes on with. -/
inductive Advances (rd : Reader) (n : Nat) (line : Text) (r : Routine) : Assignment → Prop
  | begun {a : Assignment} (code : rd.IsCode r line)
      (begins : Assignment.begin? (rd.tables.body r).quantities (lineNumber n) line = some a) :
      Advances rd n line r a
  | extended {a : Assignment} (place : rd.place = .assignment r a) :
      Advances rd n line r (a.extend line)

/-- An assignment is read at its end, and before that it is open and nothing else changes. -/
theorem advance_eq_ok (h : rd.advance src r a = .ok rd') :
    (a.isComplete = true ∧ rd'.place = .statements r ∧
      ∃ b, (rd.tables.body r).assign a = .ok b ∧ rd'.tables = rd.tables.setBody r b) ∨
    (a.isComplete = false ∧ rd'.place = .assignment r a ∧ rd'.tables = rd.tables) := by
  unfold advance at h
  split at h
  · next hcomplete =>
    obtain ⟨b, hb, htables, hplace⟩ := settle_eq_ok h
    exact .inl ⟨hcomplete, hplace, b, hb, htables⟩
  · next hcomplete =>
    obtain rfl := Except.ok.inj h
    exact .inr ⟨by simpa using hcomplete, rfl, rfl⟩

/-- A step with which no assignment has to do: none is open after it, and what it adds are no
assignments. -/
def Plain (rd rd' : Reader) : Prop :=
  (∀ r a, rd'.place ≠ .assignment r a) ∧
    ∀ r, ∃ ss, (rd'.tables.body r).statements = (rd.tables.body r).statements ++ ss ∧
      ∀ s ∈ ss, s.action.target? = none

/-- A step that leaves the tables alone and opens no assignment is plain. -/
theorem plain_of_tables_eq (htables : rd'.tables = rd.tables)
    (hplace : ∀ r a, rd'.place ≠ .assignment r a) : Plain rd rd' :=
  ⟨hplace, fun r ↦ ⟨[], by rw [htables, List.append_nil], by simp⟩⟩

theorem plain_of_proceed {place : Place} {targets : List Scope} {text : Text} {k : Int}
    {level : Level} {attributes : Name → Attributes} (hplace : ∀ r a, place ≠ .assignment r a)
    (h : rd.proceed place (rd.tables.declare src.file targets text k level attributes) = .ok rd') :
    Plain rd rd' := by
  cases hd : rd.tables.declare src.file targets text k level attributes with
  | error e =>
    rw [hd] at h
    cases h
  | ok p =>
    rw [hd] at h
    obtain rfl := Except.ok.inj h
    refine ⟨hplace, fun r ↦ ⟨[], ?_, by simp⟩⟩
    rw [List.append_nil]
    exact Tables.statements_declare hd

theorem plain_of_settle {res : Except StatementFault Body}
    (hres : ∀ b, res = .ok b → ∃ s, s.action.target? = none ∧
      b.statements = (rd.tables.body r).statements ++ [s])
    (h : rd.settle src r n line res = .ok rd') : Plain rd rd' := by
  obtain ⟨b, hb, htables, hplace⟩ := settle_eq_ok h
  obtain ⟨s, hs, hstatements⟩ := hres b hb
  refine ⟨fun r' a' ha ↦ ?_, fun r' ↦ ?_⟩
  · cases hplace.symm.trans ha
  · rw [htables]
    by_cases hr : r' = r
    · subst hr
      rw [Tables.body_setBody_self]
      exact ⟨[s], hstatements, by simpa using hs⟩
    · rw [Tables.body_setBody_ne _ hr]
      exact ⟨[], by rw [List.append_nil], by simp⟩

/-- A line among statements begins an assignment or is plain. -/
theorem advances_of_stepStatement
    (hcode : InnerLine.ofText line = .code → rd.IsCode r line)
    (h : rd.stepStatement src r (lineNumber n) line = .ok rd') :
    (∃ a, rd.Advances n line r a ∧ rd.advance src r a = .ok rd') ∨ Plain rd rd' := by
  unfold stepStatement at h
  dsimp only at h
  split at h
  · obtain rfl := Except.ok.inj h
    exact .inr (plain_of_tables_eq rfl (by simp))
  · obtain rfl := Except.ok.inj h
    exact .inr (plain_of_tables_eq rfl (by simp))
  · refine .inr (plain_of_settle (fun b hb ↦ ?_) h)
    obtain rfl := Except.ok.inj hb
    exact ⟨_, rfl, rfl⟩
  · next hkind =>
    split at h
    · next a ha => exact .inl ⟨a, .begun (hcode hkind) ha, h⟩
    · refine .inr (plain_of_settle (fun b hb ↦ ?_) h)
      obtain ⟨-, rfl⟩ := Body.evaluate_eq_ok_iff.1 hb
      exact ⟨_, rfl, Body.record_statements _ _⟩

/-- **A line begins an assignment or goes on with one, or no assignment has to do with it.** -/
theorem advances_of_step (h : rd.step src n line = .ok rd') :
    (∃ r a, rd.Advances n line r a ∧ rd.advance src r a = .ok rd') ∨ Plain rd rd' := by
  have houter : (∀ r a, rd.place ≠ .assignment r a) →
      rd.stepOuter src (lineNumber n) line = .ok rd' → Plain rd rd' := by
    intro hplace h
    unfold stepOuter at h
    split at h
    · obtain rfl := Except.ok.inj h
      refine plain_of_tables_eq (by split <;> rfl) fun r a ↦ ?_
      split <;> exact hplace r a
    · exact plain_of_proceed (by simp) h
    · obtain rfl := Except.ok.inj h
      exact plain_of_tables_eq rfl (by simp)
    · cases h
  unfold step at h
  split at h
  · next hp => exact .inr (houter (by simp [hp]) h)
  · next r hp =>
    unfold stepDeclaration at h
    split at h
    · obtain rfl := Except.ok.inj h
      exact .inr (plain_of_tables_eq rfl (by simp))
    · obtain rfl := Except.ok.inj h
      exact .inr (plain_of_tables_eq rfl (by simp [hp]))
    · obtain rfl := Except.ok.inj h
      exact .inr (plain_of_tables_eq rfl (by simp [hp]))
    · split at h
      · exact .inr (plain_of_proceed (by simp) h)
      · next hword =>
        have hcode := fun hkind ↦ IsCode.mk hkind (.inr ⟨hp, Bool.eq_false_iff.2 hword⟩)
        exact (advances_of_stepStatement hcode h).imp_left fun h ↦ ⟨r, h⟩
  · next r hp =>
    exact (advances_of_stepStatement (fun hkind ↦ ⟨hkind, .inl hp⟩) h).imp_left fun h ↦ ⟨r, h⟩
  · next r a hp => exact .inl ⟨r, _, .extended hp, h⟩

/-! ### Comments -/

/-- The comments after the line at position `n`. -/
def commentsAfter (rd : Reader) (n : Nat) (line : Text) : List Text :=
  match rd.place, OuterLine.ofText line with
  | .outside, .comment text =>
    if lineNumber n ≤ rd.comments.length + 1 then rd.comments ++ [text] else rd.comments
  | _, _ => rd.comments

/-- Within a routine no comment is kept. -/
theorem commentsAfter_of_isOpen (hopen : rd.IsOpen r) : rd.commentsAfter n line = rd.comments := by
  unfold commentsAfter
  rcases hopen with hp | hp | ⟨a, hp⟩ <;> rw [hp]

theorem comments_of_proceed {place : Place} {x : Except DescriptionError (Name × Tables)}
    (h : rd.proceed place x = .ok rd') : rd'.comments = rd.comments := by
  obtain e | p := x
  · cases h
  · obtain rfl := Except.ok.inj h
    rfl

theorem comments_of_settle {text : Text} {res : Except StatementFault Body}
    (h : rd.settle src r n text res = .ok rd') : rd'.comments = rd.comments := by
  obtain ⟨b, -, rfl⟩ := eq_settled_of_settle h
  rfl

theorem comments_of_advance (h : rd.advance src r a = .ok rd') : rd'.comments = rd.comments := by
  unfold advance at h
  split at h
  · exact comments_of_settle h
  · obtain rfl := Except.ok.inj h
    rfl

theorem comments_of_stepStatement (h : rd.stepStatement src r n line = .ok rd') :
    rd'.comments = rd.comments := by
  unfold stepStatement at h
  dsimp only at h
  split at h
  · obtain rfl := Except.ok.inj h
    rfl
  · obtain rfl := Except.ok.inj h
    rfl
  · exact comments_of_settle h
  · split at h
    · exact comments_of_advance h
    · exact comments_of_settle h

theorem comments_of_stepDeclaration (h : rd.stepDeclaration src r n line = .ok rd') :
    rd'.comments = rd.comments := by
  unfold stepDeclaration at h
  split at h
  · obtain rfl := Except.ok.inj h
    rfl
  · obtain rfl := Except.ok.inj h
    rfl
  · obtain rfl := Except.ok.inj h
    rfl
  · split at h
    · exact comments_of_proceed h
    · exact comments_of_stepStatement h

/-- **What a line does with the comments.** -/
theorem comments_of_step (h : rd.step src n line = .ok rd') :
    rd'.comments = rd.commentsAfter n line := by
  cases hplace : rd.place with
  | outside =>
    rw [step, hplace] at h
    rw [commentsAfter, hplace]
    dsimp only at h
    rw [stepOuter] at h
    cases hline : OuterLine.ofText line with
    | comment text =>
      rw [hline] at h
      obtain rfl := Except.ok.inj h
      dsimp only
      split <;> rfl
    | parameter text =>
      rw [hline] at h
      exact comments_of_proceed h
    | header r =>
      rw [hline] at h
      obtain rfl := Except.ok.inj h
      rfl
    | unexpected =>
      rw [hline] at h
      cases h
  | declarations r =>
    rw [commentsAfter_of_isOpen (.inl hplace)]
    rw [step, hplace] at h
    exact comments_of_stepDeclaration h
  | statements r =>
    rw [commentsAfter_of_isOpen (.inr (.inl hplace))]
    rw [step, hplace] at h
    exact comments_of_stepStatement h
  | assignment r a =>
    rw [commentsAfter_of_isOpen (.inr (.inr ⟨a, hplace⟩))]
    rw [step, hplace] at h
    exact comments_of_advance h

end Reader

end RankMetric
