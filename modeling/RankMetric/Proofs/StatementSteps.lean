import RankMetric.Proofs.AlikeReadings

/-!
# Lines among the statements of a routine

`Reader.StatementStep` has one constructor for each thing that a line can be among the statements of
a routine, and says in full what the reader is afterwards. Any other line leads out of the
statements, or does not lead into them, and adds none (`Reader.Aside`). That there is nothing else
is `Reader.statementStep_of_step`, and what is said below of the statements that a line adds rests
on it.

* `Place.textOf`: the text of a statement is made of the line at which it was read and of the lines
  of an open assignment before it. It does not depend on what has been declared.
* `Reader.exists_textOf_of_step`: every statement that a line adds has this text.
-/

namespace RankMetric

open Text

/-- The text of the statement that a line is by itself, if it is one. -/
def lineText (line : Text) : Text :=
  match InnerLine.ofText line with
  | .remark text => remarkText text
  | _ => trim line

/-- The text of the statement that is read at a line, if one is. -/
def Place.textOf (place : Place) (line : Text) : Text :=
  match place with
  | .assignment _ a => trim (a.extend line).text
  | _ => lineText line

/-- The line on which an open assignment began does not matter for its text. -/
theorem Place.textOf_startingAt (place : Place) (n : Nat) (line : Text) :
    (place.startingAt n).textOf line = place.textOf line := by
  cases place <;> rfl

namespace Reader

variable {src : Source} {rd rd' : Reader} {r : Routine} {n : Nat} {line : Text} {a : Assignment}

/-- **What a line among the statements of a routine does**, at position `n`. -/
inductive StatementStep (rd : Reader) (n : Nat) (line : Text) (r : Routine) : Reader → Prop
  /-- A blank line does nothing. -/
  | blank (place : rd.place = .statements r) (kind : InnerLine.ofText line = .blank) :
    StatementStep rd n line r { rd with place := .statements r }
  /-- A remark is a statement of its own. -/
  | remark {text : Text} (place : rd.place = .statements r)
      (kind : InnerLine.ofText line = .remark text) :
    StatementStep rd n line r (rd.settled r ((rd.tables.body r).remark (lineNumber n) text))
  /-- A line that begins no assignment is a statement of its own. -/
  | evaluated (code : rd.IsCode r line) :
    StatementStep rd n line r
      (rd.settled r ((rd.tables.body r).record ((rd.tables.body r).evaluated (lineNumber n) line)))
  /-- An assignment is a statement when it is complete. -/
  | assigned {a : Assignment} (advances : rd.Advances n line r a) (complete : a.isComplete = true) :
    StatementStep rd n line r
      (rd.settled r ((rd.tables.body r).record ((rd.tables.body r).assigned a)))
  /-- An assignment that is not complete stays open. -/
  | opened {a : Assignment} (advances : rd.Advances n line r a)
      (incomplete : a.isComplete = false) :
    StatementStep rd n line r { rd with place := .assignment r a }

/-- A step that does not lead to the statements of a routine and adds none. -/
def Aside (rd rd' : Reader) : Prop :=
  (∀ r, ¬ rd'.IsWithin r) ∧ ∀ r, (rd'.tables.body r).statements = (rd.tables.body r).statements

theorem aside_of_tables_eq (htables : rd'.tables = rd.tables)
    (hstatements : ∀ r, rd'.place ≠ .statements r)
    (hassignment : ∀ r a, rd'.place ≠ .assignment r a) : Aside rd rd' :=
  ⟨fun r h ↦ h.elim (hstatements r) fun ⟨a, ha⟩ ↦ hassignment r a ha, fun r ↦ by rw [htables]⟩

theorem aside_of_proceed {place : Place} {targets : List Scope} {text : Text} {k : Int}
    {level : Level} {attributes : Name → Attributes} (hstatements : ∀ r, place ≠ .statements r)
    (hassignment : ∀ r a, place ≠ .assignment r a)
    (h : rd.proceed place (rd.tables.declare src.file targets text k level attributes) = .ok rd') :
    Aside rd rd' := by
  cases hd : rd.tables.declare src.file targets text k level attributes with
  | error e =>
    rw [hd] at h
    cases h
  | ok p =>
    rw [hd] at h
    obtain rfl := Except.ok.inj h
    exact ⟨fun r h ↦ h.elim (hstatements r) fun ⟨a, ha⟩ ↦ hassignment r a ha,
      fun r ↦ Tables.statements_declare hd⟩

theorem aside_of_stepOuter (hplace : rd.place = .outside)
    (h : rd.stepOuter src n line = .ok rd') : Aside rd rd' := by
  unfold stepOuter at h
  split at h
  · obtain rfl := Except.ok.inj h
    refine aside_of_tables_eq (by split <;> rfl) (fun r ↦ ?_) fun r a ↦ ?_ <;>
      split <;> simp [hplace]
  · exact aside_of_proceed (by simp) (by simp) h
  · obtain rfl := Except.ok.inj h
    exact aside_of_tables_eq rfl (by simp) (by simp)
  · cases h

/-- Going on with an assignment completes it or leaves it open. -/
theorem statementStep_of_advance (hadvances : rd.Advances n line r a)
    (h : rd.advance src r a = .ok rd') : rd.StatementStep n line r rd' := by
  cases hcomplete : a.isComplete with
  | true =>
    rw [advance, if_pos hcomplete] at h
    obtain ⟨b, hb, rfl⟩ := eq_settled_of_settle h
    obtain ⟨-, -, rfl⟩ := Body.assign_eq_ok_iff.1 hb
    exact .assigned hadvances hcomplete
  | false =>
    rw [advance_of_not_isComplete hcomplete] at h
    obtain rfl := Except.ok.inj h
    exact .opened hadvances hcomplete

theorem IsCode.statementStep (hcode : rd.IsCode r line) (h : rd.step src n line = .ok rd') :
    rd.StatementStep n line r rd' := by
  rw [hcode.step_eq] at h
  split at h
  · next a ha => exact statementStep_of_advance (.begun hcode ha) h
  · obtain ⟨b, hb, rfl⟩ := eq_settled_of_settle h
    obtain ⟨-, rfl⟩ := Body.evaluate_eq_ok_iff.1 hb
    exact .evaluated hcode

/-- **A line adds to the statements of a routine in one of these ways, or it adds none.** -/
theorem statementStep_of_step (h : rd.step src n line = .ok rd') :
    (∃ r, rd.StatementStep n line r rd') ∨ Aside rd rd' := by
  cases hplace : rd.place with
  | outside =>
    rw [step, hplace] at h
    exact .inr (aside_of_stepOuter hplace h)
  | declarations r =>
    cases hkind : InnerLine.ofText line with
    | code =>
      cases hword : (significant line).head?.any fun t ↦ isTypeWord t.text with
      | true =>
        rw [step, hplace] at h
        simp only [stepDeclaration, hkind, hword, if_true] at h
        exact .inr (aside_of_proceed (by simp) (by simp) h)
      | false => exact .inl ⟨r, IsCode.statementStep ⟨hkind, .inr ⟨hplace, hword⟩⟩ h⟩
    | closing =>
      rw [step, hplace] at h
      simp only [stepDeclaration, hkind] at h
      obtain rfl := Except.ok.inj h
      exact .inr (aside_of_tables_eq rfl (by simp) (by simp))
    | blank =>
      rw [step, hplace] at h
      simp only [stepDeclaration, hkind] at h
      obtain rfl := Except.ok.inj h
      exact .inr (aside_of_tables_eq rfl (by simp [hplace]) (by simp [hplace]))
    | remark text =>
      rw [step, hplace] at h
      simp only [stepDeclaration, hkind] at h
      obtain rfl := Except.ok.inj h
      exact .inr (aside_of_tables_eq rfl (by simp [hplace]) (by simp [hplace]))
  | statements r =>
    cases hkind : InnerLine.ofText line with
    | code => exact .inl ⟨r, IsCode.statementStep ⟨hkind, .inl hplace⟩ h⟩
    | closing =>
      rw [step, hplace] at h
      simp only [stepStatement, hkind] at h
      obtain rfl := Except.ok.inj h
      exact .inr (aside_of_tables_eq rfl (by simp) (by simp))
    | blank =>
      rw [step, hplace] at h
      simp only [stepStatement, hkind] at h
      obtain rfl := Except.ok.inj h
      exact .inl ⟨r, .blank hplace hkind⟩
    | remark text =>
      rw [step, hplace] at h
      simp only [stepStatement, hkind] at h
      obtain rfl := Except.ok.inj h
      exact .inl ⟨r, .remark hplace hkind⟩
  | assignment r a =>
    rw [step, hplace] at h
    exact .inl ⟨r, statementStep_of_advance (.extended hplace) h⟩

/-- A line of code has its own text. -/
theorem IsCode.textOf_eq (h : rd.IsCode r line) : rd.place.textOf line = trim line := by
  have htext : lineText line = trim line := by rw [lineText, h.kind]
  rcases h.place with hp | ⟨hp, -⟩ <;> rw [hp] <;> exact htext

/-- If an assignment is complete, its text is that of the place and the line. -/
theorem Advances.trim_text_eq (h : rd.Advances n line r a) :
    trim a.text = rd.place.textOf line := by
  cases h with
  | begun code begins =>
    obtain ⟨-, htext, -⟩ := Assignment.begun_of_begin? begins
    rw [htext, code.textOf_eq]
  | extended place =>
    rw [place]
    rfl

/-- **What is added at a line has the text of the line.** -/
theorem exists_textOf_of_step (h : rd.step src n line = .ok rd') (r : Routine) :
    ∃ ss, (rd'.tables.body r).statements = (rd.tables.body r).statements ++ ss ∧
      ∀ s ∈ ss, s.text = rd.place.textOf line := by
  have hnone : (rd'.tables.body r).statements = (rd.tables.body r).statements →
      ∃ ss, (rd'.tables.body r).statements = (rd.tables.body r).statements ++ ss ∧
        ∀ s ∈ ss, s.text = rd.place.textOf line :=
    fun h ↦ ⟨[], by rw [h, List.append_nil], by simp⟩
  -- a statement of another routine does not concern this one
  have hone : ∀ {r' : Routine} {b : Body} (s : Statement), rd' = rd.settled r' b →
      b.statements = (rd.tables.body r').statements ++ [s] → s.text = rd.place.textOf line →
      ∃ ss, (rd'.tables.body r).statements = (rd.tables.body r).statements ++ ss ∧
        ∀ s ∈ ss, s.text = rd.place.textOf line := by
    rintro r' b s rfl hb hs
    by_cases hr : r = r'
    · subst hr
      refine ⟨[s], ?_, by simpa using hs⟩
      rw [settled, Tables.body_setBody_self, hb]
    · refine hnone ?_
      rw [settled, Tables.body_setBody_ne _ hr]
  rcases statementStep_of_step h with ⟨r', hstep⟩ | ⟨-, hstatements⟩
  · cases hstep with
    | blank place kind => exact hnone rfl
    | remark place kind =>
      refine hone _ rfl rfl ?_
      rw [place]
      show remarkText _ = lineText line
      rw [lineText, kind]
    | evaluated code => exact hone _ rfl (Body.record_statements _ _) code.textOf_eq.symm
    | assigned advances complete =>
      exact hone _ rfl (Body.record_statements _ _) advances.trim_text_eq
    | opened advances incomplete => exact hnone rfl
  · exact hnone (hstatements r)

end Reader

end RankMetric
