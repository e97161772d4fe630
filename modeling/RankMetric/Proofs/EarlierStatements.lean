import RankMetric.Proofs.PlainLines
import RankMetric.Proofs.StatementSteps

/-!
# Statements that have been read

A reader adds statements to a body and never looks at those that are there. So statements may be
put in front of a body before lines are read or after it (`Reader.run_prepend`): whether the lines
are accepted, and what is read of them, is the same.

Two readers that differ in nothing but the statements they have read go on alike, therefore. They
may also count the lines from different numbers, and then the numbers are all that differs
(`Reader.exists_run_of_cleared_eq`). That rests on `Reader.Alike.run_texts`, which adds to the
comparison of two readings that statements have not only the same tokens but the same texts.
-/

namespace RankMetric

open Text

/-! ### Statements put in front of those of a body -/

namespace Body

/-- The body with statements put in front of its own. -/
def prepend (pre : List Statement) (b : Body) : Body :=
  { b with statements := pre ++ b.statements }

variable (pre : List Statement) (b : Body)

theorem push_prepend (s : Statement) : (b.prepend pre).push s = (b.push s).prepend pre := by
  simp [prepend, push]

theorem raise_prepend (n : Name) (l : Level) :
    (b.prepend pre).raise n l = (b.raise n l).prepend pre := by
  unfold raise prepend
  dsimp only
  split <;> rfl

/-- A statement is recorded behind those that are there. -/
theorem record_prepend (s : Statement) : (b.prepend pre).record s = (b.record s).prepend pre := by
  unfold record
  split
  · exact push_prepend pre (b.useAll _) s
  · exact (congrArg (Body.push · s) (raise_prepend pre ((b.useAll _).use _) _ _)).trans
      (push_prepend pre _ s)

/-- What can be read off a body, and what is read then, does not depend on its statements. -/
theorem toOption_prepend {f : Body → Except StatementFault Body} {g : Body → Body} {P : Body → Prop}
    (hf : ∀ b b', f b = .ok b' ↔ P b ∧ b' = g b) (hP : P (b.prepend pre) ↔ P b)
    (hg : g (b.prepend pre) = (g b).prepend pre) :
    (f (b.prepend pre)).toOption = (f b).toOption.map (prepend pre) := by
  refine Option.ext fun b' ↦ ?_
  rw [toOption_eq_some_iff, hf, hP, hg, Option.map_eq_some_iff]
  simp only [toOption_eq_some_iff, hf, and_assoc, exists_and_left, exists_eq_left, eq_comm]

/-- A statement without a target is read behind any others. -/
theorem evaluate_prepend (n : Nat) (text : Text) :
    ((b.prepend pre).evaluate n text).toOption =
      (b.evaluate n text).toOption.map (prepend pre) :=
  toOption_prepend pre b (f := fun b ↦ b.evaluate n text) (fun _ _ ↦ evaluate_eq_ok_iff) Iff.rfl
    (record_prepend pre b _)

/-- And so is an assignment. -/
theorem assign_prepend (a : Assignment) :
    ((b.prepend pre).assign a).toOption = (b.assign a).toOption.map (prepend pre) :=
  toOption_prepend pre b (f := fun b ↦ b.assign a)
    (fun _ _ ↦ assign_eq_ok_iff.trans and_assoc.symm) Iff.rfl (record_prepend pre b _)

end Body

/-! ### Statements put in front of those of both routines -/

namespace Tables

/-- The tables with statements put in front of those of each routine. -/
def prepend (pre : Routine → List Statement) (t : Tables) : Tables :=
  { t with decode := t.decode.prepend (pre .decode), post := t.post.prepend (pre .post) }

variable (pre : Routine → List Statement) (t : Tables)

theorem body_prepend (r : Routine) : (t.prepend pre).body r = (t.body r).prepend (pre r) := by
  cases r <;> rfl

theorem setBody_prepend (r : Routine) (b : Body) :
    (t.prepend pre).setBody r (b.prepend (pre r)) = (t.setBody r b).prepend pre := by
  cases r <;> rfl

theorem quantities_prepend (s : Scope) : (t.prepend pre).quantities s = t.quantities s := by
  rcases s with - | ⟨- | -⟩ <;> rfl

theorem knows_prepend (targets : List Scope) (n : Name) :
    (t.prepend pre).knows targets n = t.knows targets n := by
  simp only [knows, quantities_prepend]

theorem enter_prepend (targets : List Scope) (d : DeclarationLine) (q : Quantity) :
    (t.prepend pre).enter targets d q = (t.enter targets d q).prepend pre := by
  have hresolve : (t.prepend pre).resolveContribution targets q =
      t.resolveContribution targets q := by simp only [resolveContribution, quantities_prepend]
  have hinsert : ∀ (t : Tables) (s : Scope) (ns : List Name) (q : Quantity),
      ((t.prepend pre).useAll s ns).insert s q = ((t.useAll s ns).insert s q).prepend pre := by
    intro t s ns q
    rcases s with - | ⟨- | -⟩ <;> rfl
  have hknown : d.mentions.filter ((t.prepend pre).knows targets) =
      d.mentions.filter (t.knows targets) :=
    congrArg (fun f ↦ d.mentions.filter f) (funext (knows_prepend pre t targets))
  rw [enter, enter, hknown, hresolve]
  -- what is entered has been determined by now, so the scopes can be gone through one by one
  clear hknown hresolve
  generalize d.mentions.filter _ = ns
  generalize t.resolveContribution targets q = q
  induction targets generalizing t with
  | nil => rfl
  | cons s targets ih => rw [List.foldl_cons, List.foldl_cons, hinsert, ih]

/-- A declaration does not look at statements, and leaves them where they are. -/
theorem declare_prepend (file : Text) (targets : List Scope) (raw : Text) (line : Int)
    (level : Level) (attributes : Name → Attributes) :
    (t.prepend pre).declare file targets raw line level attributes =
      (t.declare file targets raw line level attributes).map fun p ↦ (p.1, p.2.prepend pre) := by
  unfold declare
  cases DeclarationLine.read raw with
  | error c => rfl
  | ok d =>
    dsimp only
    rw [knows_prepend]
    split
    · rfl
    · split
      · rfl
      · exact congrArg (fun t ↦ Except.ok (d.name, t)) (enter_prepend pre t targets d _)

end Tables

namespace Reader

/-- The reader with statements put in front of those of each routine. -/
def prepend (pre : Routine → List Statement) (rd : Reader) : Reader :=
  { rd with tables := rd.tables.prepend pre }

variable (pre : Routine → List Statement) (rd : Reader) (src : Source)

theorem proceed_prepend (place : Place) (x : Except DescriptionError (Name × Tables)) :
    ((rd.prepend pre).proceed place (x.map fun p ↦ (p.1, p.2.prepend pre))).toOption =
      (rd.proceed place x).toOption.map (prepend pre) := by
  cases x <;> rfl

/-- What is settled comes to the same behind other statements, if what the body makes of it does. -/
theorem settle_prepend (r : Routine) (n : Nat) (text : Text) {x y : Except StatementFault Body}
    (h : x.toOption = y.toOption.map (Body.prepend (pre r))) :
    ((rd.prepend pre).settle src r n text x).toOption =
      (rd.settle src r n text y).toOption.map (prepend pre) := by
  cases y with
  | error f =>
    cases x with
    | error f' => rfl
    | ok b => cases h
  | ok b =>
    obtain rfl := toOption_eq_some_iff.1 h
    exact congrArg (fun t ↦ some { rd with tables := t, place := .statements r })
      (rd.tables.setBody_prepend pre r b)

theorem advance_prepend (r : Routine) (a : Assignment) :
    ((rd.prepend pre).advance src r a).toOption =
      (rd.advance src r a).toOption.map (prepend pre) := by
  unfold advance
  split
  · refine settle_prepend pre rd src r _ _ ?_
    rw [prepend, Tables.body_prepend, Body.assign_prepend]
  · rfl

theorem stepOuter_prepend (n : Nat) (line : Text) :
    ((rd.prepend pre).stepOuter src n line).toOption =
      (rd.stepOuter src n line).toOption.map (prepend pre) := by
  have hplace : (rd.prepend pre).place = rd.place := rfl
  have hcomments : (rd.prepend pre).comments = rd.comments := rfl
  unfold stepOuter
  rw [hplace, hcomments]
  split
  · split <;> rfl
  · rw [prepend, Tables.declare_prepend]
    exact proceed_prepend pre rd _ _
  · rfl
  · rfl

/-- A line among statements is read in the same way behind other statements. -/
theorem stepStatement_prepend (r : Routine) (n : Nat) (line : Text) :
    ((rd.prepend pre).stepStatement src r n line).toOption =
      (rd.stepStatement src r n line).toOption.map (prepend pre) := by
  have hbody : (rd.prepend pre).tables.body r = (rd.tables.body r).prepend (pre r) :=
    rd.tables.body_prepend pre r
  have hquantities : ((rd.tables.body r).prepend (pre r)).quantities =
      (rd.tables.body r).quantities := rfl
  unfold stepStatement
  rw [hbody]
  split
  · rfl
  · rfl
  · exact settle_prepend pre rd src r _ _
      (congrArg some ((rd.tables.body r).push_prepend (pre r) _))
  · dsimp only
    rw [hquantities]
    split
    · exact advance_prepend pre rd src r _
    · exact settle_prepend pre rd src r _ _ ((rd.tables.body r).evaluate_prepend (pre r) n line)

/-- **A line is read in the same way whatever statements have been read.** -/
theorem step_prepend (n : Nat) (line : Text) :
    ((rd.prepend pre).step src n line).toOption =
      (rd.step src n line).toOption.map (prepend pre) := by
  have hplace : (rd.prepend pre).place = rd.place := rfl
  unfold step
  rw [hplace]
  cases rd.place with
  | outside => exact stepOuter_prepend pre rd src _ line
  | statements r => exact stepStatement_prepend pre rd src r _ line
  | assignment r a => exact advance_prepend pre rd src r _
  | declarations r =>
    dsimp only
    unfold stepDeclaration
    split
    · rfl
    · rfl
    · rfl
    · split
      · rw [prepend, Tables.declare_prepend]
        exact proceed_prepend pre rd _ _
      · exact stepStatement_prepend pre rd src r _ line

/-- **Lines are read in the same way whatever statements have been read.** -/
theorem run_prepend (n : Nat) (lines : List Text) :
    ((rd.prepend pre).run src n lines).toOption =
      (rd.run src n lines).toOption.map (prepend pre) := by
  induction lines generalizing rd n with
  | nil => rfl
  | cons line lines ih =>
    have hstep := step_prepend pre rd src n line
    rw [run, run]
    cases h : rd.step src n line with
    | error e =>
      rw [h] at hstep
      cases h' : (rd.prepend pre).step src n line with
      | error e' => rfl
      | ok rd' =>
        rw [h'] at hstep
        cases hstep
    | ok rd₁ =>
      rw [h] at hstep
      rw [toOption_eq_some_iff.1 hstep]
      exact ih rd₁ (n + 1)

/-! ### Readers that differ in statements alone -/

/-- The reader without the statements that have been read. -/
def cleared (rd : Reader) : Reader :=
  { rd with
    tables := { rd.tables with
      decode := { rd.tables.decode with statements := [] }
      post := { rd.tables.post with statements := [] } } }

/-- A reader is what it is without its statements, with them in front. -/
theorem prepend_cleared : rd.cleared.prepend (fun r ↦ (rd.tables.body r).statements) = rd := by
  obtain ⟨⟨params, decode, post⟩, comments, place⟩ := rd
  simp [prepend, cleared, Tables.prepend, Body.prepend, Tables.body]

variable {rd src} {rd' last : Reader} {n : Nat} {lines : List Text} {line : Text}

/-- Lines that are read alike add statements with the same texts. -/
theorem Alike.step_texts {rd₁ rd₁' : Reader} {v : View} {n' : Nat} (h : rd.Alike v rd')
    (hstep : rd.step src n line = .ok rd₁) (hstep' : rd'.step src n' line = .ok rd₁')
    (h₁ : rd₁.Alike v rd₁') (r : Routine)
    (htexts : (rd.tables.body r).statements.map Statement.text =
      (rd'.tables.body r).statements.map Statement.text) :
    (rd₁.tables.body r).statements.map Statement.text =
      (rd₁'.tables.body r).statements.map Statement.text := by
  obtain ⟨k, hk⟩ := h.place
  obtain ⟨ss, hss, hadded⟩ := exists_textOf_of_step hstep r
  obtain ⟨ss', hss', hadded'⟩ := exists_textOf_of_step hstep' r
  rw [hk, Place.textOf_startingAt] at hadded'
  have hlen := congrArg List.length (h₁.tables.body r).statements
  have hlen₀ := congrArg List.length htexts
  rw [List.length_map, List.length_map] at hlen hlen₀
  rw [hss, hss', List.length_append, List.length_append] at hlen
  have hsame : ∀ {ss : List Statement}, (∀ s ∈ ss, s.text = rd.place.textOf line) →
      ss.map Statement.text = List.replicate ss.length (rd.place.textOf line) := by
    intro ss h
    rw [List.map_eq_replicate_iff]
    exact h
  rw [hss, hss', List.map_append, List.map_append, htexts, hsame hadded, hsame hadded',
    show ss.length = ss'.length by omega]

/-- **Lines are read alike by both, and to the same texts**, whatever their numbers. -/
theorem Alike.run_texts {v : View} (h : rd.Alike v rd') (hcoherent : rd'.Coherent)
    (hwithin : ∀ r, (rd'.tables.body r).Within .perTerm)
    (htexts : ∀ r, (rd.tables.body r).statements.map Statement.text =
      (rd'.tables.body r).statements.map Statement.text) (n' : Nat)
    (hrun : rd.run src n lines = .ok last) :
    ∃ last', rd'.run src n' lines = .ok last' ∧ last.Alike v last' ∧
      ∀ r, (last.tables.body r).statements.map Statement.text =
        (last'.tables.body r).statements.map Statement.text := by
  induction lines generalizing rd rd' n n' with
  | nil =>
    obtain rfl := Except.ok.inj hrun
    exact ⟨rd', rfl, h, htexts⟩
  | cons line lines ih =>
    obtain ⟨rd₁, hstep, hrest⟩ := exists_of_bind_eq_ok hrun
    obtain ⟨rd₁', hstep', h₁⟩ := h.step hwithin n' hstep
    have heffect := effect_of_step hcoherent hstep'
    obtain ⟨last', hrest', hlast⟩ := ih h₁ heffect.coherent
      (fun r ↦ (hwithin r).history (by decide) (heffect.history r))
      (fun r ↦ h.step_texts hstep hstep' h₁ r (htexts r)) (n' + 1) hrest
    exact ⟨last', by rw [Reader.run, hstep']; exact hrest', hlast⟩

end Reader

/-- Statements that are read the same and have the same texts differ in their numbers alone. -/
theorem map_atLine_eq {ss ss' : List Statement}
    (hseen : ss.map (Statement.seen .full) = ss'.map (Statement.seen .full))
    (htexts : ss.map Statement.text = ss'.map Statement.text) :
    ss.map (fun s ↦ s.atLine 0) = ss'.map fun s ↦ s.atLine 0 := by
  have hparts : ∀ ss : List Statement, ss.map (fun s ↦ s.atLine 0) =
      ((ss.map Statement.reading).zip (ss.map Statement.text)).map fun x ↦
        ⟨0, x.1.1, x.2, x.1.2.2⟩ := by
    intro ss
    rw [List.zip_map', List.map_map]
    rfl
  rw [hparts, hparts, Statement.map_reading_eq hseen, htexts]

namespace Reader

/-- What is the same after two runs that have begun with different statements: all but the line
numbers, the comments, and the statements that the readers had before. -/
structure ReadsOnAlike (rd rd' last last' : Reader) : Prop where
  place : ∃ n, last'.place = last.place.startingAt n
  quantities : ∀ s, (last.tables.quantities s).Alike .full (last'.tables.quantities s)
  used : ∀ r, (last.tables.body r).used = (last'.tables.body r).used
  statements : ∀ r, ∃ zs zs',
    (last.tables.body r).statements = (rd.tables.body r).statements ++ zs ∧
    (last'.tables.body r).statements = (rd'.tables.body r).statements ++ zs' ∧
    zs.map (fun s ↦ s.atLine 0) = zs'.map fun s ↦ s.atLine 0

variable {src : Source} {rd rd' last : Reader} {n : Nat} {lines : List Text}

theorem Alike.refl (v : View) (rd : Reader) : rd.Alike v rd where
  tables := .refl v _
  place := by
    cases rd.place with
    | assignment r a => exact ⟨a.line, rfl⟩
    | outside | declarations r | statements r => exact ⟨0, rfl⟩

/-- **Readers that differ in statements alone read on alike**, whatever the numbers of the lines. -/
theorem exists_run_of_cleared_eq (hcleared : rd'.cleared = rd.cleared) (hcoherent : rd.Coherent)
    (hwithin : ∀ r, (rd.tables.body r).Within .perTerm) (n' : Nat)
    (hrun : rd.run src n lines = .ok last) :
    ∃ last', rd'.run src n' lines = .ok last' ∧ ReadsOnAlike rd rd' last last' := by
  have hclearedBody : ∀ r, (rd.cleared.tables.body r).quantities = (rd.tables.body r).quantities ∧
      (rd.cleared.tables.body r).statements = [] := fun r ↦ by cases r <;> exact ⟨rfl, rfl⟩
  -- both are the reader without statements, with statements in front
  have hfront := run_prepend (fun r ↦ (rd.tables.body r).statements) rd.cleared src n lines
  rw [prepend_cleared, hrun] at hfront
  obtain ⟨last₀, hlast₀, rfl⟩ := Option.map_eq_some_iff.1 hfront.symm
  obtain ⟨last₁, hrun₁, halike, htexts⟩ := (Alike.refl .full rd.cleared).run_texts
    (fun r a ha ↦ by rw [(hclearedBody r).1]; exact hcoherent r a ha)
    (fun r ↦ ⟨by rw [(hclearedBody r).1]; exact (hwithin r).quantities,
      by rw [(hclearedBody r).2]; simp⟩)
    (fun r ↦ rfl) n' (toOption_eq_some_iff.1 hlast₀)
  have hfront' := run_prepend (fun r ↦ (rd'.tables.body r).statements) rd'.cleared src n' lines
  rw [prepend_cleared, hcleared, hrun₁] at hfront'
  refine ⟨_, toOption_eq_some_iff.1 hfront', halike.place, fun s ↦ ?_, fun r ↦ ?_,
    fun r ↦ ⟨(last₀.tables.body r).statements, (last₁.tables.body r).statements, ?_, ?_, ?_⟩⟩
  · rw [prepend, prepend, Tables.quantities_prepend, Tables.quantities_prepend]
    exact halike.tables.quantities s
  · rw [prepend, prepend, Tables.body_prepend, Tables.body_prepend]
    exact (halike.tables.body r).used
  · rw [prepend, Tables.body_prepend]
    rfl
  · rw [prepend, Tables.body_prepend]
    rfl
  · exact map_atLine_eq (halike.tables.body r).statements (htexts r)

end Reader

end RankMetric
