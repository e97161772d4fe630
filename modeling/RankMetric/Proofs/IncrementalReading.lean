import RankMetric.Proofs.BlankLines
import RankMetric.Proofs.SeparateRoutines

/-!
# Reading goes on where it stopped

No line is looked at before its turn, so what has been read does not depend on what follows.

* The first failure wins: a description that cannot be read stays so whatever is added at its end,
  with the same error and the same tables. The one exception is that it ends inside a routine, which
  is no fault of a line.
* A description that can be read may be read first and what follows after it, into the tables that
  it has left (`Tables.readBehind`).

For the second a reader at the end of a description is compared with one that starts anew on the
same tables. They differ in their comments, and nothing but the comments depends on that later
(`Reader.step_bare`, `Reader.run_bare`).
`Tables.readLines_incremental` has both.
-/

namespace RankMetric

/-! ### What later lines depend on -/

namespace Reader

/-- What later lines depend on. -/
def bare (rd : Reader) : Reader :=
  { rd with comments := [] }

variable {src : Source} {rd rd₂ : Reader} {r : Routine} {n k : Nat} {line : Text} {h : Halted}

/-- A comment counts for nothing later, whether it is kept or not. -/
theorem bare_comment (rd : Reader) (n : Nat) (text : Text) :
    (if n ≤ rd.comments.length + 1 then { rd with comments := rd.comments ++ [text] }
      else rd).bare = rd.bare := by
  split <;> rfl

theorem bare_proceed (place : Place) (x : Except DescriptionError (Name × Tables)) :
    (rd.bare.proceed place x).map bare = (rd.proceed place x).map bare := by
  cases x <;> rfl

theorem bare_stepOuter (src : Source) (rd : Reader) (n : Nat) (line : Text) :
    (rd.bare.stepOuter src n line).map bare = (rd.stepOuter src n line).map bare := by
  unfold stepOuter
  cases OuterLine.ofText line with
  | comment text =>
    exact congrArg Except.ok <|
      (bare_comment rd.bare n text).trans (bare_comment rd n text).symm
  | parameter text => exact bare_proceed _ _
  | header r => rfl
  | unexpected => rfl

/-- A line of a routine does not depend on the comments. -/
theorem bare_step_of_isOpen (hopen : rd.IsOpen r) :
    (rd.bare.step src n line).map bare = (rd.step src n line).map bare := by
  have hbare : rd.bare = rd.among rd.tables [] r := by
    rw [among, rd.tables.adopt_self, bare]
  have hself := step_among rd.tables rd.comments r src n line hopen
  rw [among_self] at hself
  rw [hbare, step_among rd.tables [] r src n line hopen]
  nth_rewrite 2 [hself]
  cases rd.step src n line <;> rfl

/-- **A line depends on no more than that**, and so does what later lines depend on. -/
theorem step_bare (src : Source) (rd : Reader) (n : Nat) (line : Text) :
    (rd.bare.step src n line).map bare = (rd.step src n line).map bare := by
  cases hplace : rd.place with
  | outside =>
    have hbare : rd.bare.place = .outside := hplace
    rw [step, step, hplace, hbare]
    exact bare_stepOuter src rd (lineNumber n) line
  | declarations r => exact bare_step_of_isOpen (.inl hplace)
  | statements r => exact bare_step_of_isOpen (.inr (.inl hplace))
  | assignment r a => exact bare_step_of_isOpen (.inr (.inr ⟨a, hplace⟩))

/-- **Nor do many lines.** -/
theorem run_bare (src : Source) (hbare : rd.bare = rd₂.bare) (n : Nat) (ls : List Text) :
    (rd.run src n ls).map bare = (rd₂.run src n ls).map bare := by
  induction ls generalizing rd rd₂ n with
  | nil => exact congrArg Except.ok hbare
  | cons line ls ih =>
    have hstep : (rd.step src n line).map bare = (rd₂.step src n line).map bare := by
      rw [← step_bare, hbare, step_bare]
    rw [run, run]
    cases hx : rd.step src n line with
    | error h =>
      cases hy : rd₂.step src n line with
      | error h₂ => rw [hx, hy] at hstep; exact congrArg _ hstep
      | ok y => rw [hx, hy] at hstep; cases hstep
    | ok x =>
      cases hy : rd₂.step src n line with
      | error h₂ => rw [hx, hy] at hstep; cases hstep
      | ok y =>
        rw [hx, hy] at hstep
        exact ih (Except.ok.inj hstep) (n + 1)

/-- The end depends on no more either, but for the comments. -/
theorem finish_bare (src : Source) (rd : Reader) (k : Nat) :
    (rd.bare.finish src k).map tables = (rd.finish src k).map tables := by
  obtain ⟨t, cs, place⟩ := rd
  cases place <;> rfl

/-- A blank line outside the routines counts for nothing later. -/
theorem exists_step_blank (src : Source) (hplace : rd.place = .outside)
    (hblank : Text.isBlankText line = true) (n : Nat) :
    ∃ rd', rd.step src n line = .ok rd' ∧ rd'.place = rd.place ∧ rd'.bare = rd.bare := by
  refine ⟨_, ?_, ?_, bare_comment rd (lineNumber n) []⟩
  · simp only [step, hplace, stepOuter, OuterLine.ofText_blank hblank]
  · split <;> rfl

theorem exists_run_blanks (src : Source) (rd : Reader) (hplace : rd.place = .outside)
    {blanks : List Text}
    (hblanks : ∀ l ∈ blanks, Text.isBlankText l = true) (n : Nat) :
    ∃ rd', rd.run src n blanks = .ok rd' ∧ rd'.bare = rd.bare := by
  induction blanks generalizing rd n with
  | nil => exact ⟨rd, rfl, rfl⟩
  | cons blank blanks ih =>
    obtain ⟨hblank, hblanks⟩ := List.forall_mem_cons.1 hblanks
    obtain ⟨rd₁, hstep, hplace₁, hbare₁⟩ := exists_step_blank src hplace hblank n
    obtain ⟨rd', hrun, hbare⟩ := ih rd₁ (hplace₁ ▸ hplace) hblanks (n + 1)
    refine ⟨rd', ?_, hbare.trans hbare₁⟩
    rw [run, hstep]
    exact hrun

/-- Readers that agree in what later lines depend on read the rest of a description alike. -/
theorem tables_of_bare_eq (src : Source) (hbare : rd.bare = rd₂.bare) (n k : Nat)
    (ls : List Text) :
    ((rd.run src n ls).bind fun rd ↦ rd.finish src k).map tables =
      ((rd₂.run src n ls).bind fun rd ↦ rd.finish src k).map tables := by
  have hrun := run_bare src hbare n ls
  cases hx : rd.run src n ls with
  | error h =>
    cases hy : rd₂.run src n ls with
    | error h₂ => rw [hx, hy] at hrun; exact congrArg _ (congrArg _ (Except.error.inj hrun))
    | ok y => rw [hx, hy] at hrun; cases hrun
  | ok x =>
    cases hy : rd₂.run src n ls with
    | error h₂ => rw [hx, hy] at hrun; cases hrun
    | ok y =>
      rw [hx, hy] at hrun
      show (x.finish src k).map tables = (y.finish src k).map tables
      rw [← finish_bare, Except.ok.inj hrun, finish_bare]

end Reader

/-! ### Reading in parts -/

namespace Tables

/-- Read the rest of a description, of which `k` lines have been read, into tables. -/
def readBehind (t : Tables) (src : Source) (k : Nat) (ls : List Text) : Except Halted Tables :=
  ((({ tables := t } : Reader).run src (1 + k) ls).bind fun rd ↦
    rd.finish src (k + ls.length)).map Reader.tables

variable {t t' : Tables} {src : Source}

theorem map_snd_readLines (t : Tables) (src : Source) (ls : List Text) :
    (t.readLines src ls).map Prod.snd = t.readBehind src 0 ls := by
  rw [readLines_eq, readBehind, Nat.zero_add]
  cases (({ tables := t } : Reader).run src 1 ls).bind _ <;> rfl

/-- Behind lines that lead a reader to the end of a description, the rest comes to what it comes to
by itself, read into the tables that were reached. -/
theorem readBehind_append {k : Nat} {ls : List Text} {rd : Reader}
    (hrun : ({ tables := t } : Reader).run src (1 + k) ls = .ok rd)
    (hbare : rd.bare = ({ tables := t' } : Reader).bare) (ms : List Text) :
    t.readBehind src k (ls ++ ms) = t'.readBehind src (k + ls.length) ms := by
  rw [readBehind, readBehind, Reader.run_append, hrun, List.length_append, ← Nat.add_assoc,
    ← Nat.add_assoc]
  exact Reader.tables_of_bare_eq src hbare _ _ ms

/-- To read the rest of a description is to read it behind as many blank lines. -/
theorem readBehind_eq_readLines (t : Tables) (src : Source) {blanks : List Text}
    (hblanks : ∀ l ∈ blanks, Text.isBlankText l = true) (ls : List Text) :
    t.readBehind src blanks.length ls = (t.readLines src (blanks ++ ls)).map Prod.snd := by
  obtain ⟨rd, hrun, hbare⟩ := Reader.exists_run_blanks src { tables := t } rfl hblanks 1
  rw [map_snd_readLines, readBehind_append hrun hbare, Nat.zero_add]

/-- **Reading is incremental, and the first failure wins.** If a description has an error, and it is
not that a routine is open at the end, then it has this error whatever follows, and the tables are
left as they were. If a description can be read, then with more lines at its end it comes to what
these come to behind it, read into the tables that it has left. The tables are the same then, and so
is the error if there is one. -/
theorem readLines_incremental (t : Tables) (src : Source) (ls ms : List Text) :
    (∀ h, t.readLines src ls = .error h → (∀ name, h.error.cause ≠ .unexpectedEnd name) →
      t.readLines src (ls ++ ms) = .error h) ∧
    ∀ comments t', t.readLines src ls = .ok (comments, t') →
      (t.readLines src (ls ++ ms)).map Prod.snd = t'.readBehind src ls.length ms := by
  refine ⟨fun h hread hcause ↦ ?_, fun comments t' hread ↦ ?_⟩
  · rcases readLines_eq_error_iff.1 hread with hrun | ⟨rd, -, hfinish⟩
    · refine readLines_eq_error_iff.2 (.inl ?_)
      rw [Reader.run_append, hrun]
      rfl
    · obtain ⟨r, -, text, hlocated⟩ := Reader.exists_isOpen_of_finish hfinish
      exact absurd (congrArg DescriptionError.cause hlocated) (hcause r.name)
  · obtain ⟨rd, hrun, hplace, -, rfl⟩ := readLines_eq_ok_iff.1 hread
    have hbare : rd.bare = ({ tables := rd.tables } : Reader).bare := by
      rw [Reader.bare, hplace]
      rfl
    rw [map_snd_readLines, readBehind_append hrun hbare, Nat.zero_add]

end Tables

end RankMetric
