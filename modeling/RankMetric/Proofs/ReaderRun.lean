import Mathlib.Data.List.Induction
import RankMetric.Description
import RankMetric.Proofs.BodyHistory

/-!
# Runs of the reader

What a line does to the tables is one of three things (`Reader.Effect`): nothing, a declaration, or
one more statement of the routine that is open. `effect_of_step` is the only place where the cases
of `Reader.step` are gone through; everything else about runs rests on it.

* `history_of_run`: over any lines, the body of each routine goes through a history of changes.
* `nonempty_moment_of_run`: every statement was read at a moment of the run (`Reader.Moment`).
* `readFrom_of_run`: the index of a statement tells that moment (`Reader.ReadFrom`), since there is
  one line that brings the statements of the routine to one more (`Reader.StandsBefore.unique`). The
  number of the line would not do: in a description that is long enough another line has it too.

An open assignment has to have been begun against the quantities of its own routine
(`Reader.Coherent`). Every step keeps that, and a reader that begins has no open assignment.
-/

namespace RankMetric.Reader

open Relation

variable {src : Source} {rd rd' : Reader} {r : Routine} {n : Nat} {line text : Text}
  {lines : List Text} {a : Assignment}

/-! ### Places -/

/-- Whether the reader is among the statements of a routine. -/
def IsWithin (rd : Reader) (r : Routine) : Prop :=
  rd.place = .statements r ∨ ∃ a, rd.place = .assignment r a

/-- Whether a routine is open: the reader is among its declarations or its statements. -/
def IsOpen (rd : Reader) (r : Routine) : Prop :=
  rd.place = .declarations r ∨ rd.IsWithin r

/-- Whether a line is taken for a remark: it begins with `#`, and no assignment is open. -/
def TakesRemark (rd : Reader) (line : Text) : Prop :=
  (∀ r a, rd.place ≠ .assignment r a) ∧ ∃ text, InnerLine.ofText line = .remark text

/-- An open assignment was begun against the quantities of its routine. -/
def Coherent (rd : Reader) : Prop :=
  ∀ r a, rd.place = .assignment r a → a.Begun (rd.tables.body r).quantities

/-! ### One line -/

/-- **What a line does to the tables.** -/
inductive Effect (src : Source) (rd : Reader) (line : Text) (rd' : Reader) : Prop
  /-- The tables stay. An assignment may be open now. -/
  | unchanged (tables : rd'.tables = rd.tables)
      (opened : ∀ r a, rd'.place = .assignment r a → a.Begun (rd.tables.body r).quantities)
      (within : ∀ r, rd'.IsWithin r → rd.IsOpen r)
  /-- A quantity was declared, by a line of the description and at level 2 at most. -/
  | declared {targets : List Scope} {raw : Text} {number : Int} {level : Level}
      {attributes : Name → Attributes} {name : Name}
      (tables : rd.tables.declare src.file targets raw number level attributes =
        .ok (name, rd'.tables))
      (level_le : level ≤ .perDocument) (number_ne : number ≠ builtinLine)
      (place : ∀ r, ¬ rd'.IsWithin r)
  /-- The line ends a statement. It is a remark exactly if the line is taken for one. -/
  | read {r : Routine} {s : Statement} (isOpen : rd.IsOpen r) (place : rd'.place = .statements r)
      (kind : s.action = .remark ↔ rd.TakesRemark line) (reads : (rd.tables.body r).Reads s)
      (tables : rd'.tables = rd.tables.setBody r ((rd.tables.body r).record s))

/-- Settling succeeds if the body does, and the reader is then among the statements. -/
theorem settle_eq_ok {res : Except StatementFault Body}
    (h : rd.settle src r n text res = .ok rd') :
    ∃ b, res = .ok b ∧ rd'.tables = rd.tables.setBody r b ∧ rd'.place = .statements r := by
  cases res with
  | error f => cases h
  | ok b =>
    obtain rfl := Except.ok.inj h
    exact ⟨b, rfl, rfl, rfl⟩

/-- A declaration leads out of the statements. -/
theorem effect_of_proceed {targets : List Scope} {level : Level}
    {attributes : Name → Attributes} {place : Place} (hlevel : level ≤ .perDocument)
    (hplace : ∀ r, place ≠ .statements r) (hplace' : ∀ r a, place ≠ .assignment r a)
    (h : rd.proceed place (rd.tables.declare src.file targets text n level attributes) =
      .ok rd') : Effect src rd line rd' := by
  cases hd : rd.tables.declare src.file targets text n level attributes with
  | error e =>
    rw [hd] at h
    cases h
  | ok p =>
    obtain ⟨name, t⟩ := p
    rw [hd] at h
    obtain rfl := Except.ok.inj h
    refine .declared hd hlevel (by rw [builtinLine]; omega) fun r hr ↦ ?_
    rcases hr with hr | ⟨a, hr⟩
    · exact hplace r hr
    · exact hplace' r a hr

/-- An assignment that has been begun is read to its end or stays open. -/
theorem effect_of_advance (hopen : rd.IsOpen r) (hline : ¬ rd.TakesRemark line)
    (ha : a.Begun (rd.tables.body r).quantities) (h : rd.advance src r a = .ok rd') :
    Effect src rd line rd' := by
  unfold advance at h
  split at h
  · obtain ⟨b, hb, htables, hplace⟩ := settle_eq_ok h
    obtain ⟨s, hcode, hreads, rfl⟩ := Body.record_of_assign hb ha
    exact .read hopen hplace (iff_of_false hcode hline) hreads htables
  · obtain rfl := Except.ok.inj h
    refine .unchanged rfl (fun r' a' h' ↦ ?_) fun r' h' ↦ ?_
    · obtain ⟨rfl, rfl⟩ := Place.assignment.inj h'
      exact ha
    · rcases h' with h' | ⟨a', h'⟩
      · cases h'
      · obtain ⟨rfl, -⟩ := Place.assignment.inj h'
        exact hopen

/-- A line that only moves the reader to a place without an open assignment. -/
theorem effect_of_move {place : Place} {comments : List Text}
    (hassign : ∀ r a, place ≠ .assignment r a)
    (hwithin : ∀ r, place = .statements r → rd.IsOpen r) :
    Effect src rd line { rd with comments := comments, place := place } := by
  refine .unchanged rfl (fun r a h ↦ absurd h (hassign r a)) fun r h ↦ ?_
  rcases h with h | ⟨a, h⟩
  · exact hwithin r h
  · exact absurd h (hassign r a)

theorem effect_of_stepOuter (hplace : rd.place = .outside)
    (h : rd.stepOuter src n line = .ok rd') : Effect src rd line rd' := by
  unfold stepOuter at h
  split at h
  · obtain rfl := Except.ok.inj h
    split <;> exact effect_of_move (by simp [hplace]) (by simp [hplace])
  · exact effect_of_proceed (by decide) (by simp) (by simp) h
  · obtain rfl := Except.ok.inj h
    exact effect_of_move (by simp) (by simp)
  · cases h

theorem effect_of_stepStatement (hopen : rd.IsOpen r)
    (hplace : ∀ r a, rd.place ≠ .assignment r a) (h : rd.stepStatement src r n line = .ok rd') :
    Effect src rd line rd' := by
  unfold stepStatement at h
  dsimp only at h
  split at h
  · obtain rfl := Except.ok.inj h
    exact effect_of_move (by simp) (by simp)
  · obtain rfl := Except.ok.inj h
    refine effect_of_move (by simp) fun r' hr' ↦ ?_
    obtain rfl := Place.statements.inj hr'
    exact hopen
  · next text hline =>
    obtain ⟨s, hremark, hreads, hrecord⟩ := Body.remark_eq_record (rd.tables.body r) n hline
    obtain ⟨b, hb, htables, hplace'⟩ := settle_eq_ok h
    obtain rfl := Except.ok.inj hb
    rw [hrecord] at htables
    exact .read hopen hplace' (iff_of_true hremark ⟨hplace, text, hline⟩) hreads htables
  · next hline =>
    have hcode : ¬ rd.TakesRemark line := by
      rintro ⟨-, text, hremark⟩
      cases hline.symm.trans hremark
    split at h
    · next a ha =>
      obtain ⟨-, -, hbegun⟩ := Assignment.begun_of_begin? ha
      exact effect_of_advance hopen hcode hbegun h
    · next hnone =>
      obtain ⟨b, hb, htables, hplace'⟩ := settle_eq_ok h
      obtain ⟨s, hs, hreads, rfl⟩ := Body.record_of_evaluate hb hnone
      exact .read hopen hplace' (iff_of_false hs hcode) hreads htables

theorem effect_of_stepDeclaration (hplace : rd.place = .declarations r)
    (h : rd.stepDeclaration src r n line = .ok rd') : Effect src rd line rd' := by
  unfold stepDeclaration at h
  split at h
  · obtain rfl := Except.ok.inj h
    exact effect_of_move (by simp) (by simp)
  · obtain rfl := Except.ok.inj h
    exact effect_of_move (by simp [hplace]) (by simp [hplace])
  · obtain rfl := Except.ok.inj h
    exact effect_of_move (by simp [hplace]) (by simp [hplace])
  · split at h
    · exact effect_of_proceed (by decide) (by simp) (by simp) h
    · exact effect_of_stepStatement (.inl hplace) (by simp [hplace]) h

/-- **Every line has an effect of one of the three kinds.** -/
theorem effect_of_step (hrd : rd.Coherent) (h : rd.step src n line = .ok rd') :
    Effect src rd line rd' := by
  unfold step at h
  split at h
  · next hp => exact effect_of_stepOuter hp h
  · next r hp => exact effect_of_stepDeclaration hp h
  · next r hp => exact effect_of_stepStatement (.inr (.inl hp)) (by simp [hp]) h
  · next r a hp =>
    -- the line goes on with what was begun before, whatever it looks like
    exact effect_of_advance (.inr (.inr ⟨a, hp⟩)) (fun hline ↦ hline.1 r a hp)
      ((hrd r a hp).extend line) h

namespace Effect

/-- The reader is among the statements of a routine only if the routine was open. -/
theorem isOpen (h : Effect src rd line rd') (hr : rd'.IsWithin r) : rd.IsOpen r := by
  cases h with
  | unchanged _ _ within => exact within r hr
  | declared _ _ _ place => exact absurd hr (place r)
  | read isOpen place _ _ _ =>
    rcases hr with hr | ⟨a, hr⟩
    · obtain rfl := Place.statements.inj (place.symm.trans hr)
      exact isOpen
    · cases place.symm.trans hr

theorem coherent (h : Effect src rd line rd') : rd'.Coherent := by
  intro r a ha
  cases h with
  | unchanged tables opened _ =>
    rw [tables]
    exact opened r a ha
  | declared _ _ _ place => exact absurd (.inr ⟨a, ha⟩) (place r)
  | read _ place _ _ _ => cases place.symm.trans ha

/-- An effect is at most one change of each body. -/
theorem history (h : Effect src rd line rd') (r : Routine) :
    ReflTransGen Body.Change (rd.tables.body r) (rd'.tables.body r) := by
  cases h with
  | unchanged tables _ _ => rw [tables]
  | declared tables level_le number_ne _ =>
    obtain ⟨q, ns, hlevel, hline, hbody⟩ := Tables.body_declare tables
    obtain ⟨hr, hnew⟩ := hbody r
    rw [hr]
    split
    · next hmem =>
      exact .single (.gain ns (hnew hmem) ⟨hlevel.trans_le level_le, hline ▸ number_ne⟩)
    · exact .refl
  | @read r' s _ _ _ reads tables =>
    rw [tables]
    by_cases hr : r = r'
    · subst hr
      rw [Tables.body_setBody_self]
      exact .single (.read reads)
    · rw [Tables.body_setBody_ne _ hr]

end Effect

/-! ### Many lines -/

/-- A description may end outside the routines only. -/
theorem finish_eq_ok_iff :
    rd.finish src n = .ok rd' ↔ rd.place = .outside ∧ rd = rd' := by
  unfold finish
  cases rd.place <;> simp [fail]

/-- What is wrong at the end is that a routine is open. -/
theorem exists_isOpen_of_finish {h : Halted} (hfinish : rd.finish src n = .error h) :
    ∃ r, rd.IsOpen r ∧
      ∃ text, h.error = .located src.file (lineNumber n) (.unexpectedEnd r.name) text := by
  unfold finish at hfinish
  split at hfinish
  · cases hfinish
  · next r hp =>
    obtain rfl := Except.error.inj hfinish
    exact ⟨r, .inl hp, [], rfl⟩
  · next r hp =>
    obtain rfl := Except.error.inj hfinish
    exact ⟨r, .inr (.inl hp), [], rfl⟩
  · next r a hp =>
    obtain rfl := Except.error.inj hfinish
    exact ⟨r, .inr (.inr ⟨a, hp⟩), a.text, rfl⟩

/-- A run over one more line is the run and then a step. -/
theorem exists_of_run_concat (h : rd.run src n (lines ++ [line]) = .ok rd') :
    ∃ rd₁, rd.run src n lines = .ok rd₁ ∧ rd₁.step src (n + lines.length) line = .ok rd' := by
  rw [run_append] at h
  obtain ⟨rd₁, hrun, hlast⟩ := exists_of_bind_eq_ok h
  obtain ⟨rd₂, hstep, hnil⟩ := exists_of_bind_eq_ok hlast
  obtain rfl := Except.ok.inj hnil
  exact ⟨rd₁, hrun, hstep⟩

/-- **Over any lines each body goes through a history**, and a reader stays coherent. -/
theorem history_of_run (hrd : rd.Coherent) (h : rd.run src n lines = .ok rd') :
    rd'.Coherent ∧ ∀ r, ReflTransGen Body.Change (rd.tables.body r) (rd'.tables.body r) := by
  induction lines generalizing rd n with
  | nil =>
    obtain rfl := Except.ok.inj h
    exact ⟨hrd, fun r ↦ .refl⟩
  | cons line lines ih =>
    obtain ⟨rd₁, hstep, hrun⟩ := exists_of_bind_eq_ok h
    have heffect := effect_of_step hrd hstep
    obtain ⟨hcoherent, hhistory⟩ := ih heffect.coherent hrun
    exact ⟨hcoherent, fun r ↦ (heffect.history r).trans (hhistory r)⟩

/-- A reader that begins is coherent. -/
theorem coherent_top (t : Tables) : ({ tables := t } : Reader).Coherent := by
  intro r a h
  cases h

variable {t : Tables}

/-- Reading on keeps the statements read so far. -/
theorem statements_prefix_of_run (hrd : rd.Coherent) (h : rd.run src n lines = .ok rd')
    (r : Routine) : (rd.tables.body r).statements <+: (rd'.tables.body r).statements := by
  obtain ⟨ss, hss, -⟩ := Body.get?_of_history ((history_of_run hrd h).2 r)
  exact ⟨ss, hss.symm⟩

/-! ### The moment at which a statement is read -/

/-- A moment of a run: the line at which statement `s` of routine `r` was read, when the routine had
the statements `xs`. For an assignment of several lines it is the last of them. -/
structure Moment (src : Source) (t : Tables) (n : Nat) (lines : List Text) (r : Routine)
    (xs : List Statement) (s : Statement) (last : Reader) where
  /-- The lines read before. -/
  before : List Text
  line : Text
  /-- The lines still to be read. -/
  after : List Text
  /-- The reader before the line. -/
  reader : Reader
  /-- The reader after the line. -/
  next : Reader
  lines_eq : lines = before ++ line :: after
  run_before : ({ tables := t } : Reader).run src n before = .ok reader
  step : reader.step src (n + before.length) line = .ok next
  isOpen : reader.IsOpen r
  place : next.place = .statements r
  kind : s.action = .remark ↔ reader.TakesRemark line
  statements_eq : (reader.tables.body r).statements = xs
  reads : (reader.tables.body r).Reads s
  tables_eq : next.tables = reader.tables.setBody r ((reader.tables.body r).record s)
  history : ReflTransGen Body.Change ((reader.tables.body r).record s) (last.tables.body r)

/-- A moment of a run is one of a longer run. -/
def Moment.append {xs : List Statement} {s : Statement} {last last' : Reader}
    (μ : Moment src t n lines r xs s last) (line : Text)
    (h : ReflTransGen Body.Change (last.tables.body r) (last'.tables.body r)) :
    Moment src t n (lines ++ [line]) r xs s last' :=
  { μ with
    after := μ.after ++ [line]
    lines_eq := (congrArg (· ++ [line]) μ.lines_eq).trans (List.append_assoc _ _ _)
    history := μ.history.trans h }

/-- **Every statement was read at some moment.** -/
theorem nonempty_moment_of_run {xs ys : List Statement} {s : Statement}
    (h : ({ tables := t } : Reader).run src n lines = .ok rd')
    (hs : (rd'.tables.body r).statements = (t.body r).statements ++ xs ++ s :: ys) :
    Nonempty (Moment src t n lines r ((t.body r).statements ++ xs) s rd') := by
  induction lines using List.reverseRecOn generalizing rd' ys with
  | nil =>
    obtain rfl := Except.ok.inj h
    have hlen := congrArg List.length hs
    simp at hlen
  | append_singleton lines line ih =>
    obtain ⟨rd₁, hrun, hstep⟩ := exists_of_run_concat h
    have heffect := effect_of_step (history_of_run (coherent_top t) hrun).1 hstep
    -- a statement that was there one line before was read at the moment it had then
    have hkeep : ∀ ys, (rd₁.tables.body r).statements =
        (t.body r).statements ++ xs ++ s :: ys →
        Nonempty (Moment src t n (lines ++ [line]) r ((t.body r).statements ++ xs) s rd') := by
      intro ys hys
      obtain ⟨μ⟩ := ih hrun hys
      exact ⟨μ.append line (heffect.history r)⟩
    cases heffect with
    | unchanged tables _ _ => exact hkeep ys (by rw [← tables, hs])
    | declared tables _ _ _ =>
      obtain ⟨q, ns, -, -, hbody⟩ := Tables.body_declare tables
      refine hkeep ys ?_
      rw [← hs, (hbody r).1]
      split <;> rfl
    | @read r' s' isOpen place kind reads tables =>
      by_cases hr : r = r'
      · subst hr
        rw [tables, Tables.body_setBody_self, Body.record_statements] at hs
        rcases cases_of_concat_eq hs with ⟨hxs, rfl⟩ | ⟨zs, hinit⟩
        · have hlast : rd'.tables.body r = (rd₁.tables.body r).record s' := by
            rw [tables, Tables.body_setBody_self]
          exact ⟨{
            before := lines, line := line, after := [], reader := rd₁, next := rd'
            lines_eq := rfl, run_before := hrun, step := hstep, isOpen := isOpen, place := place
            kind := kind, statements_eq := hxs, reads := reads, tables_eq := tables
            history := hlast ▸ .refl }⟩
        · exact hkeep zs hinit
      · rw [tables, Tables.body_setBody_ne _ hr] at hs
        exact hkeep ys hs

/-- Reader `rd` stands before statement `i` of routine `r`. It has read some of the lines, of which
the first is at position `n`, and has the statements before this one. With the next line, `line`, it
has this one too. -/
def StandsBefore (src : Source) (t : Tables) (n : Nat) (lines : List Text) (r : Routine) (i : Nat)
    (rd : Reader) (line : Text) : Prop :=
  ∃ before after rd', lines = before ++ line :: after ∧
    ({ tables := t } : Reader).run src n before = .ok rd ∧
    (rd.tables.body r).statements.length = i ∧
    rd.step src (n + before.length) line = .ok rd' ∧
    (rd'.tables.body r).statements.length = i + 1

/-- A reader that has gone past a line has the statements that there were after it. -/
theorem statements_prefix_of_step {before more : List Text} {next : Reader}
    (hrun : ({ tables := t } : Reader).run src n before = .ok rd)
    (hstep : rd.step src (n + before.length) line = .ok next)
    (h : ({ tables := t } : Reader).run src n (before ++ line :: more) = .ok rd') (r : Routine) :
    (next.tables.body r).statements <+: (rd'.tables.body r).statements := by
  have hmore : next.run src (n + before.length + 1) more = .ok rd' := by
    rw [run_append, hrun] at h
    obtain ⟨rd₁, hstep', hmore⟩ := exists_of_bind_eq_ok (x := rd.step src _ line) h
    obtain rfl := Except.ok.inj (hstep.symm.trans hstep')
    exact hmore
  exact statements_prefix_of_run
    (effect_of_step (history_of_run (coherent_top t) hrun).1 hstep).coherent hmore r

/-- A statement does not end twice: a reader that has gone past the line that ends it has one
statement too many to stand before it again. -/
theorem eq_nil_of_standsBefore {before more rest rest' : List Text} {next : Reader} {line' : Text}
    (hrun : ({ tables := t } : Reader).run src n before = .ok rd)
    (hstep : rd.step src (n + before.length) line = .ok next)
    (hrun' : ({ tables := t } : Reader).run src n (before ++ more) = .ok rd')
    (hrest : line :: rest = more ++ line' :: rest')
    (hlt : (rd'.tables.body r).statements.length < (next.tables.body r).statements.length) :
    more = [] := by
  cases more with
  | nil => rfl
  | cons l more =>
    obtain ⟨rfl, -⟩ := List.cons_eq_cons.1 hrest
    have hle := (statements_prefix_of_step hrun hstep hrun' r).length_le
    omega

/-- **There is one reader before a statement**, and one line that ends the statement. -/
theorem StandsBefore.unique {i : Nat} {rd₁ rd₂ : Reader} {line₁ line₂ : Text}
    (h₁ : StandsBefore src t n lines r i rd₁ line₁)
    (h₂ : StandsBefore src t n lines r i rd₂ line₂) : rd₁ = rd₂ ∧ line₁ = line₂ := by
  obtain ⟨before₁, after₁, next₁, hlines₁, hrun₁, hi₁, hstep₁, hnext₁⟩ := h₁
  obtain ⟨before₂, after₂, next₂, hlines₂, hrun₂, hi₂, hstep₂, hnext₂⟩ := h₂
  rcases List.append_eq_append_iff.1 (hlines₁.symm.trans hlines₂) with
    ⟨more, rfl, hrest⟩ | ⟨more, rfl, hrest⟩
  · obtain rfl := eq_nil_of_standsBefore (r := r) hrun₁ hstep₁ hrun₂ hrest (by omega)
    rw [List.append_nil] at hrun₂
    exact ⟨Except.ok.inj (hrun₁.symm.trans hrun₂), (List.cons_eq_cons.1 hrest).1⟩
  · obtain rfl := eq_nil_of_standsBefore (r := r) hrun₂ hstep₂ hrun₁ hrest (by omega)
    rw [List.append_nil] at hrun₁
    exact ⟨Except.ok.inj (hrun₁.symm.trans hrun₂), (List.cons_eq_cons.1 hrest).1.symm⟩

/-- Statement `s` of routine `r` was read from the lines, of which the first is at position `n`,
when the routine had the statements `xs`. It was a remark exactly if its line was taken for one, it
reads off the body that the reader had then, and its record led to the body `b`. -/
def ReadFrom (src : Source) (t : Tables) (n : Nat) (lines : List Text) (r : Routine)
    (xs : List Statement) (s : Statement) (b : Body) : Prop :=
  ∃ rd line, StandsBefore src t n lines r xs.length rd line ∧
    (rd.tables.body r).statements = xs ∧ (s.action = .remark ↔ rd.TakesRemark line) ∧
    (rd.tables.body r).Reads s ∧ ReflTransGen Body.Change ((rd.tables.body r).record s) b

/-- **Every statement was read from the lines**, when the statements before it had been read. -/
theorem readFrom_of_run {xs ys : List Statement} {s : Statement}
    (h : ({ tables := t } : Reader).run src n lines = .ok rd')
    (hs : (rd'.tables.body r).statements = (t.body r).statements ++ xs ++ s :: ys) :
    ReadFrom src t n lines r ((t.body r).statements ++ xs) s (rd'.tables.body r) := by
  obtain ⟨μ⟩ := nonempty_moment_of_run h hs
  have hnext : (μ.next.tables.body r).statements =
      (t.body r).statements ++ xs ++ [s] := by
    rw [μ.tables_eq, Tables.body_setBody_self, Body.record_statements, μ.statements_eq]
  refine ⟨μ.reader, μ.line, ?_, μ.statements_eq, μ.kind, μ.reads, μ.history⟩
  exact ⟨μ.before, μ.after, μ.next, μ.lines_eq, μ.run_before, by rw [μ.statements_eq], μ.step,
    by rw [hnext, List.length_append, List.length_singleton]⟩

/-- Every statement of a run that began without statements was read from the lines. -/
theorem readFrom_of_getElem? {i : Nat} {s : Statement}
    (h : ({ tables := t } : Reader).run src n lines = .ok rd') (ht : (t.body r).statements = [])
    (hs : (rd'.tables.body r).statements[i]? = some s) :
    ∃ xs, xs.length = i ∧ ReadFrom src t n lines r xs s (rd'.tables.body r) := by
  obtain ⟨hi, rfl⟩ := List.getElem?_eq_some_iff.1 hs
  refine ⟨(rd'.tables.body r).statements.take i, List.length_take_of_le hi.le, ?_⟩
  have hsplit : (rd'.tables.body r).statements =
      (t.body r).statements ++ (rd'.tables.body r).statements.take i ++
        (rd'.tables.body r).statements[i] :: (rd'.tables.body r).statements.drop (i + 1) := by
    rw [ht, List.nil_append, ← List.drop_eq_getElem_cons hi, List.take_append_drop]
  simpa only [ht, List.nil_append] using readFrom_of_run h hsplit

end RankMetric.Reader
