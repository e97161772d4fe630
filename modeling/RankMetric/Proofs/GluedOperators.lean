import RankMetric.Proofs.OneLineAssignments
import RankMetric.Proofs.TokenOffsets

/-!
# Operators that touch a parenthesis

Neighbouring operator symbols make up one token, so the operator of an assignment and a parenthesis
that follows it without a blank are one token, and that is no operator of an assignment. The line is
then read as a statement that assigns to nothing. It still mentions the same names, so it is
accepted, and what it uses is the same. What differs are levels: the statement takes the level of
its target into account, which an assignment does not, and the target is not raised.

* `OneLiner.Glued`: what the tokens of the line are with and without the blank
  (`OneLiner.glued_of_gap`).
* `OneLiner.exists_run_glued`: the reader after the glued line, which is alike by names alone.
* `Tables.glued_levels_iff`: the statement and the target have the same levels as before if and only
  if the level stored for the target was the level of the right side already.
-/

namespace RankMetric

open Text

variable {src : Source} {t t₁ : Tables} {r : Routine} {before after : List Text}
  {whole first blank front rest tail : Text} {xs ys : List Statement} {s : Statement}
  {comments : List Text} {n : Name}

/-! ### The operators of assignments -/

theorem ofRun_append {u w : Text} (hu : u ≠ []) :
    TokenClass.ofRun (u ++ w) = TokenClass.ofRun u := by
  obtain ⟨c, u, rfl⟩ := List.exists_cons_of_ne_nil hu
  rfl

/-- An operator of an assignment is one of operator symbols, of which the last is `=` and none is a
parenthesis. -/
theorem of_mem_assignmentOperators {o : Text} (h : assignmentOperators.contains o = true) :
    (∃ u, o = u ++ ['=']) ∧ TokenClass.ofRun o = .operator ∧ '(' ∉ o := by
  have hall : ∀ o ∈ assignmentOperators, o = o.dropLast ++ ['='] ∧
      TokenClass.ofRun o = .operator ∧ '(' ∉ o := by decide
  obtain ⟨hlast, hrun, hparen⟩ := hall o (List.contains_iff_mem.1 h)
  exact ⟨⟨_, hlast⟩, hrun, hparen⟩

/-- The last character of a text that is not blank ends its last token. -/
theorem exists_append_of_tokenTexts {u x y : Text} {c : Char} (hc : isBlank c = false)
    (h : tokenTexts (u ++ [c]) = [x, y]) (hy : y ≠ []) : ∃ w, y = w ++ [c] := by
  have hflat := flatten_tokenTexts (u ++ [c])
  have hlast : ([c].filter fun d ↦ !isBlank d) = [c] := by simp [hc]
  rw [h, List.filter_append, hlast, List.flatten_cons, List.flatten_singleton] at hflat
  obtain ⟨w, d, rfl⟩ : ∃ w d, y = w ++ [d] := ⟨_, _, (List.dropLast_append_getLast hy).symm⟩
  rw [← List.append_assoc] at hflat
  obtain ⟨-, hd⟩ := List.append_inj' hflat rfl
  exact ⟨w, by rw [hd]⟩

/-- A target is raised to the level of its statement, and nothing else is raised. -/
theorem Body.levelOf_record (b : Body) (s : Statement) (n : Name) :
    (b.record s).levelOf n =
      if s.action.target? = some n then (b.levelOf n).map fun l ↦ max l s.level
      else b.levelOf n := by
  rw [levelOf, get?_record, levelOf]
  split
  · rw [Option.map_map, Option.map_map]
    rfl
  · rfl

namespace Reader

/-- The tokens of an assignment `whole` and of the line `line` that is left of it if the operator
and the parenthesis behind it touch. -/
structure OneLiner.Glued (μ : OneLiner src t before whole r xs s) (line : Text) (n : Name)
    (operator paren : Text) (ts : List Text) : Prop where
  target_eq : μ.assignment.target = n
  tokens_eq : μ.assignment.tokens.map Token.text = paren :: ts
  line_eq : tokenTexts line = n :: (operator ++ paren) :: ts
  known : (μ.reader.tables.body r).quantities.contains n = true
  not_operator : assignmentOperators.contains (operator ++ paren) = false
  /-- Neither token of operator symbols is a word. -/
  not_word : TokenClass.ofRun paren = .operator ∧
    TokenClass.ofRun (operator ++ paren) = .operator
  head?_eq : (tokenTexts line).head? = (tokenTexts whole).head?

/-- **Without a blank between them the operator and the parenthesis are one token.** -/
theorem OneLiner.glued_of_gap (hgap : Gap front first blank rest)
    (hlines : GapLines front first blank rest tail after)
    (μ : OneLiner src t before (first ++ blank ++ tail) r xs s) (hn : s.action.target? = some n)
    (htwo : (tokenTexts first).length = 2) (hparen : rest.head? = some '(') :
    ∃ operator paren ts, μ.Glued (first ++ tail) n operator paren ts := by
  obtain ⟨-, htext, hbegun⟩ := Assignment.begun_of_begin? μ.begins
  obtain ⟨c, w, p, ps, rfl, hhead, htail⟩ := hgap.exists_tokenTexts_tail hlines
  obtain rfl := Option.some.inj (hhead.symm.trans hparen)
  obtain ⟨x, y, hfirst⟩ := List.length_eq_two.1 htwo
  have hwhole := hgap.tokenTexts_eq ('(' :: w)
  have htokens := hbegun.tokens_eq
  rw [htext, hwhole, hfirst, htail] at htokens
  obtain ⟨hx, htokens⟩ := List.cons.inj htokens
  obtain ⟨hy, htokens⟩ := List.cons.inj htokens
  have htarget : x = n := by
    rw [μ.eq_assigned] at hn
    exact hx.trans (Option.some.inj hn)
  obtain ⟨⟨v, hv⟩, hrun, hnotMem⟩ := of_mem_assignmentOperators (hy ▸ hbegun.isOperator)
  -- the line before the gap ends with the operator, and so with the sign of equality
  obtain ⟨u, d, rfl, hd⟩ := hgap.first_end
  have hne : y ≠ [] := by simp [hv]
  obtain ⟨v', hv'⟩ := exists_append_of_tokenTexts hd hfirst hne
  obtain ⟨-, hequal⟩ := List.append_inj' (hv.symm.trans hv') rfl
  obtain rfl := List.singleton_inj.1 hequal
  obtain ⟨init, last, q, qs, hinit, hq, hglued⟩ := exists_tokenTexts_glued (d := '(') hd
    (by decide) u w
  rw [hfirst] at hinit
  obtain ⟨rfl, hlast⟩ := List.append_inj' (show [x] ++ [y] = init ++ [last] from hinit) rfl
  obtain rfl := List.singleton_inj.1 hlast
  obtain ⟨hpq, rfl⟩ := List.cons.inj (htail.symm.trans hq)
  obtain rfl := (List.cons.inj hpq).2
  have hline : tokenTexts (u ++ ['='] ++ '(' :: w) = n :: (y ++ '(' :: p) :: ps := by
    rw [List.append_assoc, List.singleton_append, hglued, htarget]
    rfl
  refine ⟨y, '(' :: p, ps, hx.symm.trans htarget, htokens.symm, hline, ?_, ?_, ⟨rfl, ?_⟩, ?_⟩
  · exact htarget ▸ hx ▸ hbegun.known
  · refine Bool.eq_false_iff.2 fun hop ↦ ?_
    exact (of_mem_assignmentOperators hop).2.2 (by simp)
  · rw [ofRun_append hne, hrun]
  · rw [hline, hwhole, hfirst, htarget]
    rfl

namespace OneLiner.Glued

variable {μ : OneLiner src t before whole r xs s} {line operator paren : Text} {ts : List Text}

/-- The glued line begins no assignment. -/
theorem begin?_eq_none (h : μ.Glued line n operator paren ts) (k : Nat) :
    Assignment.begin? (μ.reader.tables.body r).quantities k line = none := by
  by_contra hsome
  obtain ⟨a, ha⟩ := Option.ne_none_iff_exists'.1 hsome
  obtain ⟨-, htext, hbegun⟩ := Assignment.begun_of_begin? ha
  have htokens := hbegun.tokens_eq
  rw [htext, h.line_eq] at htokens
  have hop := hbegun.isOperator
  rw [← (List.cons.inj (List.cons.inj htokens).2).1, h.not_operator] at hop
  cases hop

theorem get?_eq_none (hwords : ∀ m, (μ.reader.tables.body r).quantities.contains m = true →
    TokenClass.ofRun m = .word) {m : Name} (hm : TokenClass.ofRun m = .operator) :
    (μ.reader.tables.body r).quantities.get? m = none := by
  by_contra hsome
  have hword := hwords m (Option.isSome_iff_ne_none.2 hsome)
  rw [hm] at hword
  cases hword

/-- The glued line names the target and what the assignment reads. -/
theorem named_line (h : μ.Glued line n operator paren ts)
    (hwords : ∀ m, (μ.reader.tables.body r).quantities.contains m = true →
      TokenClass.ofRun m = .word) {q : Quantity}
    (hq : (μ.reader.tables.body r).quantities.get? n = some q) :
    (μ.reader.tables.body r).quantities.named (significant line) =
      q :: (μ.reader.tables.body r).quantities.named μ.assignment.tokens := by
  rw [Quantities.named_eq_namedBy, Quantities.named_eq_namedBy, h.tokens_eq]
  show Quantities.namedBy _ (tokenTexts line) = _
  rw [h.line_eq, Quantities.namedBy, Quantities.namedBy, List.filterMap_cons_some hq,
    List.filterMap_cons_none (get?_eq_none hwords h.not_word.2),
    List.filterMap_cons_none (get?_eq_none hwords h.not_word.1)]

end OneLiner.Glued

/-- **The glued line is read as a statement that mentions the same names.** Its level takes the
level of the target into account, and the target keeps that level. -/
theorem OneLiner.exists_run_glued (μ : OneLiner src t before whole r xs s) {line : Text}
    {operator paren : Text} {ts : List Text} (hglued : μ.Glued line n operator paren ts)
    (hwithin : (μ.reader.tables.body r).Within .perTerm)
    (hwords : ∀ m, (μ.reader.tables.body r).quantities.contains m = true →
      TokenClass.ofRun m = .word) :
    ∃ s' l, ({ tables := t } : Reader).run src 1 (before ++ [line]) =
        .ok (μ.reader.settled r ((μ.reader.tables.body r).record s')) ∧
      s'.line = s.line ∧ s'.action.target? = none ∧
      (μ.reader.tables.body r).levelOf n = some l ∧ s'.level = max l s.level ∧
      ((μ.reader.tables.body r).record s).Alike .names
        ((μ.reader.tables.body r).record s') := by
  obtain ⟨q, hq⟩ := Option.isSome_iff_exists.1 hglued.known
  obtain rfl := NameIndex.name_of_get? hq
  have hcode : μ.reader.IsCode r line := μ.code.of_head hglued.head?_eq (by
    rw [hglued.line_eq]
    simp)
  have hnamed := hglued.named_line hwords hq
  have hline : s.line = lineNumber (1 + before.length) :=
    (congrArg Statement.line μ.eq_assigned).trans (Assignment.begun_of_begin? μ.begins).1
  have hlevel := congrArg Statement.level μ.eq_assigned
  have haction := congrArg Statement.action μ.eq_assigned
  refine ⟨(μ.reader.tables.body r).evaluated (lineNumber (1 + before.length)) line, q.level,
    run_concat μ.run ?_, hline.symm, rfl, Body.levelOf_of_get? hq, ?_, ?_⟩
  · rw [hcode.step_eq, hglued.begin?_eq_none]
    dsimp only
    rw [Body.evaluate_eq_ok_iff.2 ⟨hwithin.readable _, rfl⟩]
    rfl
  · rw [hlevel, Body.evaluated, Body.assigned, hnamed]
    rfl
  · refine (Body.Alike.refl .names _).record_names fun m ↦ ?_
    rw [haction, Body.evaluated, Body.assigned, hnamed, hglued.target_eq]
    simp [Action.target?, Action.operands, eq_comm]

/-- The level stored for a name of a routine after some lines. -/
def storedAfter (src : Source) (t : Tables) (ls : List Text) (r : Routine) (n : Name) :
    Option Level :=
  (({ tables := t } : Reader).run src 1 ls).toOption.bind fun rd ↦ (rd.tables.body r).levelOf n

theorem storedAfter_of_run {ls : List Text} {rd : Reader}
    (h : ({ tables := t } : Reader).run src 1 ls = .ok rd) (r : Routine) (n : Name) :
    storedAfter src t ls r n = (rd.tables.body r).levelOf n := by
  rw [storedAfter, h]
  rfl

/-- After the line of a statement its target has at least its level, and any other name the level
from before. -/
theorem storedAfter_take_of_settled {line : Text} {rd : Reader}
    (h : ({ tables := t } : Reader).run src 1 (before ++ [line]) =
      .ok (rd.settled r ((rd.tables.body r).record s))) (after : List Text) (n : Name) :
    storedAfter src t ((before ++ line :: after).take (1 + before.length)) r n =
      if s.action.target? = some n then ((rd.tables.body r).levelOf n).map fun l ↦ max l s.level
      else (rd.tables.body r).levelOf n := by
  have htake : (before ++ line :: after).take (1 + before.length) = before ++ [line] := by
    rw [← List.singleton_append, ← List.append_assoc]
    exact List.take_left' (by rw [List.length_append, List.length_singleton, Nat.add_comm])
  rw [htake, storedAfter_of_run h, settled, Tables.body_setBody_self, Body.levelOf_record]

end Reader

namespace Tables

open Reader

/-- **A description with a glued operator is accepted as before**, and the same names are used. The
line runs at the level that was stored for the target if that is higher, and the target keeps that
level. -/
theorem readDescription_glued (ht : ∀ r, (t.body r).Within .perTerm)
    (hgap : Gap front first blank rest)
    (h : t.readDescription src (front ++ first ++ blank ++ rest) = .ok (comments, t₁))
    (hs : (t₁.body r).statements = (t.body r).statements ++ xs ++ s :: ys)
    (hn : s.action.target? = some n)
    (hbuilt : BuiltFrom src t (lines front) ((lines (first ++ blank ++ rest)).take 1) r
      ((t.body r).statements ++ xs) s)
    (htwo : (tokenTexts first).length = 2) (hparen : rest.head? = some '(')
    (hwords : ∀ m, (t₁.body r).quantities.contains m = true → TokenClass.ofRun m = .word) :
    ∃ t₂ s' ys' l,
      t.readDescription src (front ++ first ++ rest) = .ok (comments, t₂) ∧
      (∀ r, (t₂.body r).used = (t₁.body r).used) ∧
      (t₂.body r).statements = (t.body r).statements ++ xs ++ s' :: ys' ∧
      ys'.length = ys.length ∧ s'.line = s.line ∧ s'.level = max l s.level ∧
      storedAfter src t (lines front) r n = some l ∧
      storedAfter src t
          ((lines (front ++ first ++ blank ++ rest)).take (1 + (lines front).length)) r n =
        some (max l s.level) ∧
      storedAfter src t ((lines (front ++ first ++ rest)).take (1 + (lines front).length)) r n =
        some l := by
  obtain ⟨tail, after, hlines, hread, ⟨μ⟩⟩ := exists_oneLiner_of_gap hgap h hn hbuilt
  obtain ⟨rd, hrun, rfl⟩ := exists_run_of_readDescription h
  rw [hlines.whole] at hrun
  obtain ⟨operator, paren, ts, hglued⟩ := μ.glued_of_gap hgap hlines hn htwo hparen
  have hwithin := (ht r).history (by decide) ((history_of_run (coherent_top t) μ.run).2 r)
  -- what is declared at the line is declared in the end
  obtain ⟨ss, -, hkept⟩ := Body.get?_of_history (history_of_run_append μ.run hrun r)
  obtain ⟨s', l, hrun', hline', htarget', hl, hlevel, halike⟩ := μ.exists_run_glued hglued hwithin
    fun m hm ↦ by
      obtain ⟨q, hq⟩ := Option.isSome_iff_exists.1 hm
      exact hwords m (Option.isSome_iff_exists.2 ⟨_, hkept m q hq⟩)
  obtain ⟨comments', t₂, hread₂, halike₂, hcomments⟩ := readLines_of_alike ht μ.run_next hrun'
    ⟨(Alike.refl .names _).setBody r halike, 0, rfl⟩ hread
  obtain rfl := hcomments (by simp) rfl
  rw [List.append_assoc, List.singleton_append, ← hlines.closed] at hread₂
  -- the statement that was read instead is at the same place
  obtain ⟨last, hlast, rfl⟩ := exists_run_of_readDescription hread₂
  rw [hlines.closed] at hlast
  obtain ⟨ys', hstatements⟩ := exists_statements_of_settled μ.statements hrun' hlast
  have hlength := congrArg List.length (halike₂.body r).statements
  rw [hs, hstatements] at hlength
  simp only [List.length_map, List.length_append, List.length_cons] at hlength
  have hstored : storedAfter src t
      ((lines (front ++ first ++ blank ++ rest)).take (1 + (lines front).length)) r n =
        some (max l s.level) := by
    rw [hlines.whole, storedAfter_take_of_settled μ.run_next, if_pos hn, hl, Option.map_some]
  have hstored' : storedAfter src t
      ((lines (front ++ first ++ rest)).take (1 + (lines front).length)) r n = some l := by
    rw [hlines.closed, storedAfter_take_of_settled hrun', if_neg (by simp [htarget']), hl]
  exact ⟨last.tables, s', ys', l, hread₂, fun r ↦ ((halike₂.body r).used).symm, hstatements,
    by omega, hline', hlevel, (storedAfter_of_run μ.run r n).trans hl, hstored, hstored'⟩

/-- **What a parenthesis that touches the operator changes.** A description has an assignment on one
line whose right side begins with a parenthesis, and the blanks before the parenthesis are taken
away. The description is accepted as before, the same names are used, and a statement stands in the
place of the assignment. Both its level and the level stored for the target are what they were if
and only if the level stored for the target before the line was the level of the assignment. -/
theorem glued_levels_iff (ht : ∀ r, (t.body r).Within .perTerm) (hgap : Gap front first blank rest)
    (h : t.readDescription src (front ++ first ++ blank ++ rest) = .ok (comments, t₁))
    (hs : (t₁.body r).statements = (t.body r).statements ++ xs ++ s :: ys)
    (hn : s.action.target? = some n)
    (hbuilt : BuiltFrom src t (lines front) ((lines (first ++ blank ++ rest)).take 1) r
      ((t.body r).statements ++ xs) s)
    (htwo : (tokenTexts first).length = 2) (hparen : rest.head? = some '(')
    (hwords : ∀ m, (t₁.body r).quantities.contains m = true → TokenClass.ofRun m = .word) :
    ∃ t₂ s' ys' l,
      t.readDescription src (front ++ first ++ rest) = .ok (comments, t₂) ∧
      (∀ r, (t₂.body r).used = (t₁.body r).used) ∧
      (t₂.body r).statements = (t.body r).statements ++ xs ++ s' :: ys' ∧
      ys'.length = ys.length ∧ s'.line = s.line ∧ s'.level = max l s.level ∧
      storedAfter src t (lines front) r n = some l ∧
      (s'.level = s.level ∧
        storedAfter src t
            ((lines (front ++ first ++ rest)).take (1 + (lines front).length)) r n =
          storedAfter src t
            ((lines (front ++ first ++ blank ++ rest)).take (1 + (lines front).length)) r n ↔
        l = s.level) := by
  obtain ⟨t₂, s', ys', l, hread, hused, hstatements, hlength, hline', hlevel, hbefore, hstored,
    hstored'⟩ := readDescription_glued ht hgap h hs hn hbuilt htwo hparen hwords
  refine ⟨t₂, s', ys', l, hread, hused, hstatements, hlength, hline', hlevel, hbefore, ?_⟩
  rw [hlevel, hstored, hstored', Option.some_inj]
  constructor
  · rintro ⟨hle, hge⟩
    exact hge.trans hle
  · intro heq
    rw [heq, max_self]
    exact ⟨rfl, rfl⟩

/-- The part of `notedText` before the assignment of `f_dt`. -/
def notedFront : Text :=
  unlines ((lines notedText).take 2)

/-- The part of `notedText` from the right side of that assignment on. -/
def notedRest : Text :=
  unlines ("(f_dt);".toList :: (lines notedText).drop 3)

theorem notedText_eq : notedFront ++ "    t =".toList ++ [' '] ++ notedRest = notedText := by
  decide +kernel

theorem gap_notedText : Gap notedFront "    t =".toList [' '] notedRest where
  starts := .inr ⟨notedFront.dropLast, by decide +kernel⟩
  line := by decide
  first_end := ⟨"    t ".toList, '=', by decide, rfl⟩
  ne_nil := by simp
  isBlank := rfl
  rest_head := ⟨'(', _, rfl, rfl⟩

theorem stored_before_notedText :
    storedAfter notedSource withBuiltins (lines notedFront) .decode ['t'] = some .perDocument := by
  decide +kernel

/-- What is read of `notedText`, and of its first assignment in particular. -/
theorem exists_tables_with_gap : ∃ comments t₁ s s',
    withBuiltins.readDescription notedSource
        (notedFront ++ "    t =".toList ++ [' '] ++ notedRest) = .ok (comments, t₁) ∧
      (t₁.body .decode).statements = (withBuiltins.body .decode).statements ++ [] ++ s :: [s'] ∧
      s.line = 3 ∧ s.level = .perTerm ∧ s.action = .assignment ['t'] ['='] ["f_dt".toList] ∧
      BuiltFrom notedSource withBuiltins (lines notedFront)
        ((lines ("    t =".toList ++ [' '] ++ notedRest)).take 1) .decode
        ((withBuiltins.body .decode).statements ++ []) s ∧
      ∀ m, (t₁.body .decode).quantities.contains m = true → TokenClass.ofRun m = .word := by
  obtain ⟨comments, t₁, s, s', hread, hstatements, hline, hlevel, haction, -, -⟩ :=
    exists_tables_of_notedText
  have hs : (t₁.body .decode).statements =
      (withBuiltins.body .decode).statements ++ [] ++ s :: [s'] := by
    rw [hstatements, withBuiltins_statements]
    rfl
  obtain ⟨rd, hrun, rfl⟩ := exists_run_of_readDescription hread
  have hlines : lines notedText =
      lines notedFront ++ "    t = (f_dt);".toList :: (lines notedText).drop 3 := by
    decide +kernel
  have hfits : FitsNumbers (lines notedText) := by decide +kernel
  rw [hlines] at hrun hfits
  have hbuilt := builtFrom_of_line hrun hs (by rw [haction]; rfl) (by rw [hline]; decide +kernel)
    (by decide) hfits
  have hfirst : (lines ("    t =".toList ++ [' '] ++ notedRest)).take 1 =
      ["    t = (f_dt);".toList] := by
    decide +kernel
  exact ⟨comments, _, s, s', notedText_eq.symm ▸ hread, hs, hline, hlevel, haction,
    hfirst.symm ▸ hbuilt, fun m ↦ ofRun_of_notedText hread⟩

theorem glued_levels_iff_notedText : ∃ comments t₂ s',
    withBuiltins.readDescription notedSource (notedFront ++ "    t =".toList ++ notedRest) =
        .ok (comments, t₂) ∧
      s' ∈ (t₂.body .decode).statements ∧ s'.line = 3 ∧ s'.level = .perTerm := by
  obtain ⟨comments, t₁, s, s', hread, hs, hline, hlevel, haction, hbuilt, hwords⟩ :=
    exists_tables_with_gap
  obtain ⟨t₂, u, us, l, hread₂, -, hstatements₂, -, hline₂, hlevel₂, hbefore, -⟩ :=
    glued_levels_iff withBuiltins_within_perTerm gap_notedText hread hs (n := ['t'])
      (by rw [haction]; rfl) hbuilt (by decide) rfl hwords
  obtain rfl := Option.some.inj (hbefore.symm.trans stored_before_notedText)
  refine ⟨comments, t₂, u, hread₂, by simp [hstatements₂], hline₂.trans hline, ?_⟩
  rw [hlevel₂, hlevel]
  rfl

/-- **An operator that touches a parenthesis raises no target.** After the line the level stored for
the target is that of a term with a blank and that of a document without. -/
theorem exists_glued_not_raised : ∃ comments t₁ t₂ s,
    withBuiltins.readDescription notedSource
        (notedFront ++ "    t =".toList ++ [' '] ++ notedRest) = .ok (comments, t₁) ∧
      s ∈ (t₁.body .decode).statements ∧ s.line = 3 ∧
      s.action = .assignment ['t'] ['='] ["f_dt".toList] ∧
      withBuiltins.readDescription notedSource (notedFront ++ "    t =".toList ++ notedRest) =
        .ok (comments, t₂) ∧
      storedAfter notedSource withBuiltins
        ((lines (notedFront ++ "    t =".toList ++ [' '] ++ notedRest)).take 3) .decode ['t'] =
        some .perTerm ∧
      storedAfter notedSource withBuiltins
        ((lines (notedFront ++ "    t =".toList ++ notedRest)).take 3) .decode ['t'] =
        some .perDocument := by
  obtain ⟨comments, t₁, s, s', hread, hs, hline, hlevel, haction, hbuilt, hwords⟩ :=
    exists_tables_with_gap
  obtain ⟨t₂, u, us, l, hread₂, -, -, -, -, -, hbefore, hstored, hstored₂⟩ :=
    readDescription_glued withBuiltins_within_perTerm gap_notedText hread hs (n := ['t'])
      (by rw [haction]; rfl) hbuilt (by decide) rfl hwords
  obtain rfl := Option.some.inj (hbefore.symm.trans stored_before_notedText)
  have hposition : 1 + (lines notedFront).length = 3 := by decide +kernel
  rw [hposition] at hstored hstored₂
  rw [hlevel] at hstored
  exact ⟨comments, t₁, t₂, s, hread, by simp [hs], hline, haction, hread₂, hstored, hstored₂⟩

end Tables

end RankMetric
