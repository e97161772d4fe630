import RankMetric.Proofs.AlikeMetrics
import RankMetric.Proofs.OneLineAssignments

/-!
# Line breaks within an assignment

An assignment may take several lines, so a line break between two of its tokens should not matter.
It does not if the first part of the line is read as an open assignment, and then whatever comes
after the break belongs to it. But what is read of the first part is decided by its own tokens: it
needs a token after the operator, or it is no assignment, and it must not end with a terminator, or
it is a complete one.

* `OneLiner.exists_run_broken`: a break behind such a first part leads to a reader that is alike in
  the full view. What is left of the description is then read alike (`Tables.readLines_of_alike`).
* `OneLiner.exists_read_first`: behind any other first part the break makes a statement of it.
* `Metric.sameReading_lineBreak_iff` puts them together: the broken description is read as the same
  if and only if the first part is one of the first kind.
-/

namespace RankMetric

open Text

variable {src : Source} {t t₁ t₂ : Tables} {r : Routine} {before after : List Text}
  {whole first blank front rest l : Text} {xs ys : List Statement} {s : Statement}
  {comments : List Text} {n : Name}

/-- An assignment that is begun on one line and extended by the rest of it on the next is alike. -/
theorem Assignment.alike_extend {qs : Quantities} {k k' : Nat} {a a' : Assignment}
    (h : begin? qs k whole = some a) (h' : begin? qs k' first = some a')
    (htokens : tokenTexts whole = tokenTexts first ++ tokenTexts l) : a.Alike (a'.extend l) := by
  obtain ⟨-, htext, hbegun⟩ := begun_of_begin? h
  obtain ⟨-, htext', hbegun'⟩ := begun_of_begin? h'
  have htexts : tokenTexts (a'.extend l).text = tokenTexts a.text := by
    have hblank : Text.isBlank ' ' = true := rfl
    rw [extend, tokenTexts_append_blank _ _ hblank, tokenTexts_trimEnd, htext', htext, htokens]
  have heq := hbegun.tokens_eq.symm.trans (htexts.symm.trans (hbegun'.extend l).tokens_eq)
  obtain ⟨htarget, heq⟩ := List.cons.inj heq
  obtain ⟨hoperator, heq⟩ := List.cons.inj heq
  exact ⟨htarget, hoperator, heq, htexts.symm⟩

namespace Reader

/-- If it has a token after the operator, the first part of the line begins an assignment too. -/
theorem OneLiner.exists_begin_first (μ : OneLiner src t before whole r xs s) {ts : List Text}
    (htokens : tokenTexts whole = tokenTexts first ++ ts)
    (hthree : 3 ≤ (tokenTexts first).length) :
    ∃ a, Assignment.begin? (μ.reader.tables.body r).quantities (lineNumber (1 + before.length))
      first = some a := by
  obtain ⟨x, y, z, zs, hfirst⟩ : ∃ x y z zs, tokenTexts first = x :: y :: z :: zs := by
    match h : tokenTexts first with
    | x :: y :: z :: zs => exact ⟨x, y, z, zs, rfl⟩
    | [] | [_] | [_, _] => simp [h] at hthree
  obtain ⟨-, htext, hbegun⟩ := Assignment.begun_of_begin? μ.begins
  have hwhole := hbegun.tokens_eq
  rw [htext, htokens, hfirst] at hwhole
  obtain ⟨hx, hwhole⟩ := List.cons.inj hwhole
  obtain ⟨hy, -⟩ := List.cons.inj hwhole
  refine Option.ne_none_iff_exists'.1 fun hnone ↦ Assignment.not_assigns_of_begin? hnone ?_
  exact ⟨x, y, z, zs, hfirst, hx ▸ hbegun.known, hy ▸ hbegun.isOperator⟩

/-- **A line break behind a token after the operator does not matter.** -/
theorem OneLiner.exists_run_broken (μ : OneLiner src t before whole r xs s)
    (hwithin : (μ.reader.tables.body r).Within .perTerm)
    (htokens : tokenTexts whole = tokenTexts first ++ tokenTexts l)
    (hthree : 3 ≤ (tokenTexts first).length) (hfirst : endsWithTerminator first = false)
    (hl : endsWithTerminator l = true) :
    ∃ rd, ({ tables := t } : Reader).run src 1 (before ++ [first] ++ [l]) = .ok rd ∧
      (μ.reader.settled r ((μ.reader.tables.body r).record s)).Alike .full rd := by
  have hne : tokenTexts first ≠ [] := List.ne_nil_of_length_pos (by omega)
  have hcode : μ.reader.IsCode r first :=
    μ.code.of_head (by rw [htokens, List.head?_append_of_ne_nil _ hne]) (by omega)
  -- the first part begins an assignment, and what comes next on the line extends it
  obtain ⟨a, hbegin⟩ := μ.exists_begin_first htokens hthree
  have hopen : a.isComplete = false := (Assignment.isComplete_of_begin? hbegin).trans hfirst
  have hrun := run_concat μ.run (hcode.step_eq.trans (by
    rw [hbegin]
    exact advance_of_not_isComplete hopen))
  have halike := Assignment.alike_extend μ.begins hbegin htokens
  have hcomplete : (a.extend l).isComplete = true :=
    (Assignment.isComplete_extend hopen l).trans hl
  refine ⟨_, run_concat hrun (advance_of_isComplete (a := a.extend l) hcomplete ?_
    (hwithin.readable _)), ?_⟩
  · exact (congrArg _ halike.target.symm).trans μ.assignable
  · have hbody := (Body.Alike.refl .full (μ.reader.tables.body r)).assigned halike
    rw [← μ.eq_assigned] at hbody
    exact ⟨(Tables.Alike.refl .full _).setBody r hbody, 0, rfl⟩

/-- **Behind any other first part a line break makes a statement of it.** -/
theorem OneLiner.exists_read_first (μ : OneLiner src t before whole r xs s)
    (hhead : (tokenTexts first).head? = (tokenTexts whole).head?)
    (htwo : 2 ≤ (tokenTexts first).length)
    (hfirst : 3 ≤ (tokenTexts first).length → endsWithTerminator first = true) {last : Reader}
    (hrun : ({ tables := t } : Reader).run src 1 (before ++ first :: after) = .ok last) :
    ∃ s' ys', (last.tables.body r).statements = xs ++ s' :: ys' ∧
      s'.tokens = tokenTexts first := by
  have hcode := μ.code.of_head hhead htwo
  have hrest := hrun
  rw [run_append, μ.run] at hrest
  obtain ⟨rd, hstep, -⟩ := exists_of_bind_eq_ok (show μ.reader.run src _ _ = _ from hrest)
  rcases hcode.step_cases hstep with ⟨a, hbegin, hopen⟩ | ⟨s', rfl, hs'⟩
  · -- an open assignment has three tokens and does not end with a terminator
    rw [Assignment.isComplete_of_begin? hbegin] at hopen
    obtain ⟨-, htext, hbegun⟩ := Assignment.begun_of_begin? hbegin
    have hlength := congrArg List.length hbegun.tokens_eq
    have hpos := List.length_pos_of_ne_nil hbegun.tokens_ne
    rw [htext, List.length_cons, List.length_cons, List.length_map] at hlength
    rw [hfirst (by omega)] at hopen
    cases hopen
  · obtain ⟨ys', hys'⟩ := exists_statements_of_settled μ.statements (run_concat μ.run hstep) hrun
    exact ⟨s', ys', hys', hs'⟩

end Reader

namespace Tables

open Reader

/-- **A line break behind a token after the operator does not matter**: the broken description is
accepted, and everything in it is as it was but for the lines. -/
theorem readDescription_of_lineBreak (ht : ∀ r, (t.body r).Within .perTerm)
    (hgap : Gap front first blank rest)
    (h : t.readDescription src (front ++ first ++ blank ++ rest) = .ok (comments, t₁))
    (hn : s.action.target? = some n)
    (hbuilt : BuiltFrom src t (lines front) ((lines (first ++ blank ++ rest)).take 1) r xs s)
    (hthree : 3 ≤ (tokenTexts first).length) (hfirst : endsWithTerminator first = false) :
    ∃ comments' t₂,
      t.readDescription src (front ++ first ++ '\n' :: rest) = .ok (comments', t₂) ∧
      t₁.Alike .full t₂ := by
  obtain ⟨tail, after, hlines, hread, ⟨μ⟩⟩ := exists_oneLiner_of_gap hgap h hn hbuilt
  obtain ⟨c, -, x, xs', -, -, htail⟩ := hgap.exists_tokenTexts_tail hlines
  have htokens := hgap.tokenTexts_eq tail
  have hends' := endsWithTerminator_of_append htokens (by simp [htail])
  have hwithin := (ht r).history (by decide) ((history_of_run (coherent_top t) μ.run).2 r)
  obtain ⟨rd', hrun', halike⟩ := μ.exists_run_broken hwithin htokens hthree hfirst
    (hends'.symm.trans μ.ends)
  obtain ⟨comments', t₂, hread₂, halike₂, -⟩ :=
    readLines_of_alike ht μ.run_next hrun' halike hread
  refine ⟨comments', t₂, ?_, halike₂⟩
  rw [readDescription, hlines.broken]
  simpa using hread₂

/-- **A line break behind the operator or a terminator matters**: what stands before it is read as a
statement, which has not all the tokens. -/
theorem tokens_ne_of_lineBreak {comments' : List Text} (hgap : Gap front first blank rest)
    (h : t.readDescription src (front ++ first ++ blank ++ rest) = .ok (comments, t₁))
    (hn : s.action.target? = some n)
    (hbuilt : BuiltFrom src t (lines front) ((lines (first ++ blank ++ rest)).take 1) r xs s)
    (htwo : 2 ≤ (tokenTexts first).length)
    (hfirst : 3 ≤ (tokenTexts first).length → endsWithTerminator first = true)
    (h' : t.readDescription src (front ++ first ++ '\n' :: rest) = .ok (comments', t₂)) :
    ∃ s' ys ys', (t₁.body r).statements = xs ++ s :: ys ∧
      (t₂.body r).statements = xs ++ s' :: ys' ∧ s'.tokens ≠ s.tokens := by
  obtain ⟨tail, after, hlines, -, ⟨μ⟩⟩ := exists_oneLiner_of_gap hgap h hn hbuilt
  obtain ⟨whole, hwhole, rfl⟩ := exists_run_of_readDescription h
  rw [hlines.whole] at hwhole
  obtain ⟨ys, hys⟩ := exists_statements_of_settled μ.statements μ.run_next hwhole
  obtain ⟨c, -, x, xs', -, -, htail⟩ := hgap.exists_tokenTexts_tail hlines
  have htokens := hgap.tokenTexts_eq tail
  obtain ⟨last, hlast, rfl⟩ := exists_run_of_readDescription h'
  rw [hlines.broken] at hlast
  have hne : tokenTexts first ≠ [] := List.ne_nil_of_length_pos (by omega)
  have hhead : (tokenTexts first).head? = (tokenTexts (first ++ blank ++ tail)).head? := by
    rw [htokens, List.head?_append_of_ne_nil _ hne]
  obtain ⟨s', ys', hys', hs'⟩ := μ.exists_read_first hhead htwo hfirst hlast
  refine ⟨s', ys, ys', hys, hys', fun heq ↦ ?_⟩
  obtain ⟨-, htext, -⟩ := Assignment.begun_of_begin? μ.begins
  have hstokens : s.tokens = tokenTexts first ++ tokenTexts tail := by
    rw [μ.eq_assigned, Statement.tokens, Body.assigned, tokenTexts_trim, htext, htokens]
  rw [hs', hstokens, htail] at heq
  simpa using congrArg List.length heq

end Tables

namespace Metric

open Reader

variable {p : Propagation} {text : Text} {m : Metric}

theorem compile_of_read {t : Tables} (p : Propagation)
    (h : Tables.withBuiltins.readDescription src text = .ok (comments, t)) :
    compile src p text = .ok (ofTables src p comments t) := by
  rw [compile, h]

theorem exists_sameReading_of_lineBreak (hgap : Gap front first blank rest)
    (h : compile src p (front ++ first ++ blank ++ rest) = .ok m)
    (hn : s.action.target? = some n)
    (hbuilt : BuiltFrom src Tables.withBuiltins (lines front)
      ((lines (first ++ blank ++ rest)).take 1) r xs s)
    (hthree : 3 ≤ (tokenTexts first).length) (hfirst : endsWithTerminator first = false) :
    ∃ m', compile src p (front ++ first ++ '\n' :: rest) = .ok m' ∧ m.SameReading m' := by
  obtain ⟨comments, t, hread, rfl⟩ := readDescription_of_compile h
  obtain ⟨comments', t₂, hread₂, halike⟩ := Tables.readDescription_of_lineBreak
    Tables.withBuiltins_within_perTerm hgap hread hn hbuilt hthree hfirst
  exact ⟨_, compile_of_read p hread₂, sameReading_ofTables halike⟩

theorem not_sameReading_of_lineBreak (hgap : Gap front first blank rest)
    (h : compile src p (front ++ first ++ blank ++ rest) = .ok m)
    (hn : s.action.target? = some n)
    (hbuilt : BuiltFrom src Tables.withBuiltins (lines front)
      ((lines (first ++ blank ++ rest)).take 1) r xs s)
    (htwo : 2 ≤ (tokenTexts first).length)
    (hfirst : 3 ≤ (tokenTexts first).length → endsWithTerminator first = true) {m' : Metric}
    (h' : compile src p (front ++ first ++ '\n' :: rest) = .ok m') : ¬ m.SameReading m' := by
  obtain ⟨comments, t, hread, rfl⟩ := readDescription_of_compile h
  obtain ⟨comments', t₂, hread₂, rfl⟩ := readDescription_of_compile h'
  obtain ⟨s', ys, ys', hys, hys', hne⟩ := Tables.tokens_ne_of_lineBreak hgap hread hn hbuilt htwo
    hfirst hread₂
  intro hsame
  have htokens := congrArg (List.map fun x ↦ x.2) (hsame.statements r)
  rw [List.map_map, List.map_map, body_ofTables_statements, body_ofTables_statements] at htokens
  have hread := (map_tokens_apply p _).symm.trans (htokens.trans (map_tokens_apply p _))
  simp only [hys, hys', List.map_append, List.map_cons] at hread
  have heq := (List.cons.inj (List.append_cancel_left hread)).1
  exact hne (congrArg Prod.fst heq).symm

/-- **When a line break within an assignment does not matter.** A description has an assignment on
one line, and a gap behind its operator is broken. The broken description is accepted and read as
the same if and only if what stands before the break has a token after the operator and does not
end with a terminator. -/
theorem sameReading_lineBreak_iff (hgap : Gap front first blank rest)
    (h : compile src p (front ++ first ++ blank ++ rest) = .ok m)
    (hn : s.action.target? = some n)
    (hbuilt : BuiltFrom src Tables.withBuiltins (lines front)
      ((lines (first ++ blank ++ rest)).take 1) r xs s)
    (htwo : 2 ≤ (tokenTexts first).length) :
    (∃ m', compile src p (front ++ first ++ '\n' :: rest) = .ok m' ∧ m.SameReading m') ↔
      3 ≤ (tokenTexts first).length ∧ endsWithTerminator first = false := by
  constructor
  · rintro ⟨m', h', hsame⟩
    by_contra hfirst
    refine not_sameReading_of_lineBreak hgap h hn hbuilt htwo (fun hthree ↦ ?_) h' hsame
    by_contra hopen
    exact hfirst ⟨hthree, Bool.eq_false_iff.2 hopen⟩
  · rintro ⟨hthree, hfirst⟩
    exact exists_sameReading_of_lineBreak hgap h hn hbuilt hthree hfirst

/-- The part of `gatedText` before the assignment to `t`. -/
def gatedFront : Text :=
  unlines ((lines gatedText).take 3)

/-- The part of `gatedText` from `tail` on, which stands at the end of the assignment to `t`. -/
def gatedRest (tail : Text) : Text :=
  unlines (tail :: (lines gatedText).drop 4)

theorem gap_gatedText :
    Gap gatedFront "        t = D_terms +".toList [' '] (gatedRest "N;".toList) ∧
      Gap gatedFront "        t =".toList [' '] (gatedRest "D_terms + N;".toList) := by
  refine ⟨⟨.inr ⟨gatedFront.dropLast, by decide +kernel⟩, by decide, ?_, by simp, rfl, ?_⟩,
    ⟨.inr ⟨gatedFront.dropLast, by decide +kernel⟩, by decide, ?_, by simp, rfl, ?_⟩⟩
  · exact ⟨"        t = D_terms ".toList, '+', by decide, rfl⟩
  · exact ⟨'N', _, rfl, rfl⟩
  · exact ⟨"        t ".toList, '=', by decide, rfl⟩
  · exact ⟨'D', _, rfl, rfl⟩

theorem gatedText_eq :
    gatedFront ++ "        t = D_terms +".toList ++ [' '] ++ gatedRest "N;".toList = gatedText ∧
      gatedFront ++ "        t =".toList ++ [' '] ++ gatedRest "D_terms + N;".toList =
        gatedText := by
  decide +kernel

theorem line_gatedText :
    (lines ("        t = D_terms +".toList ++ [' '] ++ gatedRest "N;".toList)).take 1 =
        ["        t = D_terms + N;".toList] ∧
      (lines ("        t =".toList ++ [' '] ++ gatedRest "D_terms + N;".toList)).take 1 =
        ["        t = D_terms + N;".toList] := by
  decide +kernel

/-- The assignment to `t` is built from its line. -/
theorem builtFrom_settingT : ∃ xs, BuiltFrom gatedSource Tables.withBuiltins (lines gatedFront)
    ["        t = D_terms + N;".toList] .decode xs settingT := by
  obtain ⟨comments, t, hread, hstatements⟩ := exists_tables_of_gatedText
  obtain ⟨rd, hrun, rfl⟩ := Tables.exists_run_of_readDescription hread
  have hlines : lines gatedText =
      lines gatedFront ++ "        t = D_terms + N;".toList :: (lines gatedText).drop 4 := by
    decide +kernel
  have hfits : FitsNumbers (lines gatedText) := by decide +kernel
  rw [hlines] at hrun hfits
  have hs : (rd.tables.body .decode).statements = (Tables.withBuiltins.body .decode).statements ++
      gatedStatements.take 1 ++ settingT :: gatedStatements.drop 2 := by
    rw [hstatements, Tables.withBuiltins_statements]
    rfl
  exact ⟨_, builtFrom_of_line hrun hs rfl (by decide +kernel) (by decide) hfits⟩

theorem exists_settingT : ∃ m, compile gatedSource .heuristic gatedText = .ok m ∧
    settingT ∈ (m.body .decode).statements := by
  obtain ⟨m, hm, hstatements⟩ := exists_compile_of_gatedText .heuristic
  exact ⟨m, hm, by rw [hstatements]; decide⟩

theorem sameReading_lineBreak_iff_gatedText : ∃ m m',
    compile gatedSource .heuristic gatedText = .ok m ∧
      compile gatedSource .heuristic
        (gatedFront ++ "        t = D_terms +".toList ++ '\n' :: gatedRest "N;".toList) = .ok m' ∧
      m.SameReading m' := by
  obtain ⟨m, hm, -⟩ := exists_settingT
  obtain ⟨xs, hbuilt⟩ := builtFrom_settingT
  obtain ⟨m', hm', hsame⟩ := (sameReading_lineBreak_iff gap_gatedText.1 (gatedText_eq.1.symm ▸ hm)
    rfl (line_gatedText.1.symm ▸ hbuilt) (by decide)).2 (by decide)
  exact ⟨m, m', hm, hm', hsame⟩

/-- **A line break behind the operator makes two statements of an assignment.** The broken
description is not read as the same, if it is accepted at all. -/
theorem exists_lineBreak_behind_operator : ∃ m s,
    compile gatedSource .heuristic
        (gatedFront ++ "        t =".toList ++ [' '] ++ gatedRest "D_terms + N;".toList) = .ok m ∧
      s ∈ (m.body .decode).statements ∧ s.line = 4 ∧
      s.tokens = [['t'], ['='], "D_terms".toList, ['+'], ['N'], [';']] ∧
      ¬ ∃ m', compile gatedSource .heuristic
        (gatedFront ++ "        t =".toList ++ '\n' :: gatedRest "D_terms + N;".toList) = .ok m' ∧
        m.SameReading m' := by
  obtain ⟨m, hm, hs⟩ := exists_settingT
  obtain ⟨xs, hbuilt⟩ := builtFrom_settingT
  rw [← gatedText_eq.2] at hm
  refine ⟨m, settingT, hm, hs, rfl, by decide, ?_⟩
  rintro ⟨m', hm', hsame⟩
  exact not_sameReading_of_lineBreak gap_gatedText.2 hm rfl (line_gatedText.2.symm ▸ hbuilt)
    (by decide) (by decide) hm' hsame

end Metric

end RankMetric
