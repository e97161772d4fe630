import RankMetric.Proofs.AlikeReadings
import RankMetric.Proofs.AssignmentExtent

/-!
# Assignments on one line

Most assignments begin and end on one line. This module says what such a line is to the reader, and
what becomes of a line if the blanks between two of its tokens are changed.

* `Text.Gap` is a run of blanks between two tokens of a line, within a whole text. What stands in
  its place decides about the lines of the text (`Gap.exists_lines`).
* `IsCode.of_head`: of a line with two tokens the first decides whether it is code.
* `Reader.OneLiner` is the moment at which an assignment on one line is read, and there is one
  (`nonempty_oneLiner`, and `Tables.exists_oneLiner_of_gap` for a line with a gap). Which line it is
  can be told by its number in a description that has a number for each (`builtFrom_of_line`).
* `IsCode.step_cases`: a line of code opens an assignment, or it is read as a statement with just
  the tokens it has.
-/

namespace RankMetric

open Text

/-! ### Lines -/

namespace Text

variable {s t u front first blank rest : Text} {c : Char}

theorem pieces_append_of_notMem {p : Text} {ps : List Text} (hu : '\n' ∉ u)
    (hs : pieces s = p :: ps) : pieces (u ++ s) = (u ++ p) :: ps := by
  induction u with
  | nil => exact hs
  | cons c u ih =>
    rw [List.mem_cons, not_or] at hu
    rw [List.cons_append, pieces, if_neg (Ne.symm hu.1), ih hu.2]
    rfl

theorem exists_pieces_cons (c : Char) (s : Text) : ∃ p ps, pieces (c :: s) = (c :: p) :: ps := by
  rw [pieces]
  split
  · exact ⟨[], _, rfl⟩
  · cases pieces s with
    | nil => exact ⟨[], [], rfl⟩
    | cons p ps => exact ⟨p, ps, rfl⟩

/-- A line ends where its text ends a line. -/
theorem lines_append (h : front = [] ∨ ∃ s, front = s ++ ['\n']) (t : Text) :
    lines (front ++ t) = lines front ++ lines t := by
  rcases h with rfl | ⟨s, rfl⟩
  · rfl
  · rw [List.append_assoc, List.singleton_append, lines, pieces_append, List.map_append]
    rfl

/-- The ending of a piece stands behind every character that is not blank. -/
theorem dropEnding_append_cons (u s : Text) (hc : isBlank c = false) :
    dropEnding (u ++ c :: s) = u ++ c :: dropEnding s := by
  have hfeed : c ≠ '\n' := fun h ↦ by subst h; cases hc
  have hreturn : c ≠ '\r' := fun h ↦ by subst h; cases hc
  rcases List.eq_nil_or_concat s with rfl | ⟨s, x, rfl⟩
  · simp [dropEnding, hfeed]
  · rcases List.eq_nil_or_concat s with rfl | ⟨s, y, rfl⟩
    · by_cases hx : x = '\n' <;> simp [dropEnding, hx, hreturn]
    · by_cases hx : x = '\n' <;> by_cases hy : y = '\r' <;> simp [dropEnding, hx, hy]

/-! ### Gaps -/

/-- A run of blanks between two tokens of a line of the text `front ++ first ++ blank ++ rest`. The
line begins with `first`, and the lines before it are those of `front`. -/
structure Gap (front first blank rest : Text) : Prop where
  starts : front = [] ∨ ∃ s, front = s ++ ['\n']
  line : '\n' ∉ first ++ blank
  first_end : ∃ s c, first = s ++ [c] ∧ isBlank c = false
  ne_nil : blank ≠ []
  isBlank : isBlankText blank = true
  rest_head : ∃ c s, rest = c :: s ∧ Text.isBlank c = false

/-- The lines of a text with a gap: `tail` is what stands behind the gap on its line, and `after`
are the lines after that. -/
structure GapLines (front first blank rest tail : Text) (after : List Text) : Prop where
  head?_eq : tail.head? = rest.head?
  line : lines (first ++ blank ++ rest) = (first ++ blank ++ tail) :: after
  whole : lines (front ++ first ++ blank ++ rest) =
    lines front ++ (first ++ blank ++ tail) :: after
  /-- With a line feed in the gap the tail is a line by itself. -/
  broken : lines (front ++ first ++ '\n' :: rest) = lines front ++ first :: tail :: after
  /-- With nothing in the gap the line is one. -/
  closed : lines (front ++ first ++ rest) = lines front ++ (first ++ tail) :: after

/-- **What stands in a gap decides about the lines.** -/
theorem Gap.exists_lines (h : Gap front first blank rest) :
    ∃ tail after, GapLines front first blank rest tail after := by
  obtain ⟨c, s, rfl, hc⟩ := h.rest_head
  obtain ⟨p, ps, hpieces⟩ := exists_pieces_cons c s
  have hlines : ∀ u, '\n' ∉ u → lines (u ++ c :: s) =
      (u ++ c :: dropEnding p) :: ps.map dropEnding := by
    intro u hu
    rw [lines, pieces_append_of_notMem hu hpieces, List.map_cons, dropEnding_append_cons _ _ hc]
  have hfirst : '\n' ∉ first := fun hmem ↦ h.line (List.mem_append_left _ hmem)
  refine ⟨c :: dropEnding p, ps.map dropEnding, rfl, hlines _ h.line, ?_, ?_, ?_⟩
  · rw [List.append_assoc front, List.append_assoc front, lines_append h.starts, hlines _ h.line]
  · obtain ⟨t, e, rfl, he⟩ := h.first_end
    have hend : dropEnding (t ++ [e] ++ ['\n']) = t ++ [e] := by
      rw [List.append_assoc, List.singleton_append, dropEnding_append_cons _ _ he]
      rfl
    have hbroken : lines (t ++ [e] ++ ['\n']) = [t ++ [e]] := by
      rw [lines, pieces_append_of_notMem hfirst rfl, List.map_cons, hend]
      rfl
    have hcut : t ++ [e] ++ '\n' :: c :: s = t ++ [e] ++ ['\n'] ++ c :: s := by simp
    rw [List.append_assoc, lines_append h.starts, hcut, lines_append (.inr ⟨_, rfl⟩), hbroken]
    exact congrArg (fun ls ↦ lines front ++ (t ++ [e]) :: ls) (hlines [] (by simp))
  · rw [List.append_assoc, lines_append h.starts, hlines _ hfirst]

/-- The tokens of a line with a gap are those of its parts. -/
theorem Gap.tokenTexts_eq (h : Gap front first blank rest) (tail : Text) :
    tokenTexts (first ++ blank ++ tail) = tokenTexts first ++ tokenTexts tail :=
  tokenTexts_append_blanks first tail h.isBlank h.ne_nil

/-- Behind a gap a token begins. -/
theorem Gap.exists_tokenTexts_tail {tail : Text} {after : List Text}
    (h : Gap front first blank rest) (hlines : GapLines front first blank rest tail after) :
    ∃ c w r rs, tail = c :: w ∧ rest.head? = some c ∧ tokenTexts tail = (c :: r) :: rs := by
  obtain ⟨c, s, rfl, hc⟩ := h.rest_head
  obtain ⟨w, rfl⟩ := List.head?_eq_some_iff.1 hlines.head?_eq
  obtain ⟨r, rs, hr⟩ := exists_tokenTexts_cons hc w
  exact ⟨c, w, r, rs, rfl, rfl, hr⟩

end Text

/-! ### Lines of code -/

/-- Whether the last token is a terminator can be told from its text. -/
theorem endsWithTerminator_eq (line : Text) :
    endsWithTerminator line =
      (tokenTexts line).getLast?.any fun r ↦ TokenClass.ofRun r == .terminator := by
  rw [endsWithTerminator, tokenTexts, List.getLast?_map]
  cases hlast : (significant line).getLast? with
  | none => rfl
  | some x =>
    rw [Option.map_some, Option.any_some, Option.any_some, Token.isTerminator,
      cls_of_mem_significant (List.mem_of_getLast? hlast)]

/-- What comes last decides whether a line ends with a terminator. -/
theorem endsWithTerminator_of_append {line l : Text} {ts : List Text}
    (h : tokenTexts line = ts ++ tokenTexts l) (hl : tokenTexts l ≠ []) :
    endsWithTerminator line = endsWithTerminator l := by
  rw [endsWithTerminator_eq, endsWithTerminator_eq, h, List.getLast?_append_of_ne_nil _ hl]

/-- What a text begins with, blanks apart, is the beginning of its first token. -/
theorem exists_tokenTexts_of_trim {line u : Text} {c : Char} (h : trim line = c :: u) :
    ∃ r rs, tokenTexts line = (c :: r) :: rs := by
  obtain ⟨r, rs, hr⟩ := exists_tokenTexts_cons (not_isBlank_of_trim_eq_cons h) u
  exact ⟨r, rs, by rw [← tokenTexts_trim, h, hr]⟩

theorem exists_trim_eq {line r : Text} {rs : List Text} {c : Char}
    (h : tokenTexts line = (c :: r) :: rs) : ∃ u, trim line = c :: u := by
  cases htrim : trim line with
  | nil =>
    rw [← tokenTexts_trim, htrim] at h
    cases h
  | cons d u =>
    obtain ⟨q, qs, hq⟩ := exists_tokenTexts_of_trim htrim
    obtain ⟨rfl, -⟩ := List.cons.inj (List.cons.inj (h.symm.trans hq)).1
    exact ⟨u, rfl⟩

/-- Of a line with two tokens the first decides whether it is code. -/
theorem InnerLine.ofText_eq_code {line line' : Text} (h : ofText line = .code)
    (hhead : (tokenTexts line').head? = (tokenTexts line).head?)
    (htwo : 2 ≤ (tokenTexts line').length) : ofText line' = .code := by
  have hbrace : trimEnd line' ≠ ['}'] := by
    intro hclosing
    rw [← tokenTexts_trimEnd, hclosing, tokenTexts_singleton rfl] at htwo
    simp at htwo
  unfold ofText at h
  split at h
  · cases h
  split at h
  · cases h
  · cases h
  · next hremark hblank =>
    obtain ⟨c, u, htrim⟩ := List.exists_cons_of_ne_nil hblank
    obtain ⟨r, rs, hr⟩ := exists_tokenTexts_of_trim htrim
    obtain ⟨rs', hr'⟩ := List.head?_eq_some_iff.1 (hhead.trans (congrArg List.head? hr))
    obtain ⟨u', htrim'⟩ := exists_trim_eq hr'
    rw [htrim] at hremark
    -- both begin with the same character, so neither is a remark
    have hremark' : remark? (c :: u') = none := by
      by_cases hc : c = '#'
      · subst hc
        cases hremark
      · unfold remark?
        split
        · next hcons => exact absurd (List.cons.inj hcons).1 hc
        · rfl
    rw [ofText, if_neg hbrace, htrim', hremark']

namespace Reader

variable {src : Source} {t : Tables} {r : Routine} {n : Nat} {before after : List Text}
  {line line' : Text} {a : Assignment} {rd rd' : Reader} {xs ys : List Statement} {s : Statement}
  {name : Name}

/-- What follows some lines takes each body through a history. -/
theorem history_of_run_append {ls ms : List Text}
    (h : ({ tables := t } : Reader).run src 1 ls = .ok rd)
    (h' : ({ tables := t } : Reader).run src 1 (ls ++ ms) = .ok rd') (r : Routine) :
    Relation.ReflTransGen Body.Change (rd.tables.body r) (rd'.tables.body r) := by
  rw [run_append, h] at h'
  exact (history_of_run (history_of_run (coherent_top t) h).1 h').2 r

/-- **A statement that is read at a line** has the same place in the end. -/
theorem exists_statements_of_settled (hstatements : (rd.tables.body r).statements = xs)
    (hrun : ({ tables := t } : Reader).run src 1 (before ++ [line]) =
      .ok (rd.settled r ((rd.tables.body r).record s)))
    (hend : ({ tables := t } : Reader).run src 1 (before ++ line :: after) = .ok rd') :
    ∃ ys, (rd'.tables.body r).statements = xs ++ s :: ys := by
  rw [← List.singleton_append, ← List.append_assoc] at hend
  obtain ⟨ys, hys, -⟩ := Body.get?_of_history (history_of_run_append hrun hend r)
  refine ⟨ys, ?_⟩
  rw [hys, settled, Tables.body_setBody_self, Body.record_statements, hstatements,
    List.append_assoc]
  rfl

/-- A line with the first token of a line of code, and at least one more, is code too. -/
theorem IsCode.of_head (h : rd.IsCode r line)
    (hhead : (tokenTexts line').head? = (tokenTexts line).head?)
    (htwo : 2 ≤ (tokenTexts line').length) : rd.IsCode r line' where
  kind := InnerLine.ofText_eq_code h.kind hhead htwo
  place := by
    have hword : ∀ line : Text, ((significant line).head?.any fun t ↦ isTypeWord t.text) =
        (tokenTexts line).head?.any isTypeWord := by
      intro line
      rw [tokenTexts, List.head?_map, Option.any_map]
    have hplace := h.place
    rw [hword, ← hhead, ← hword] at hplace
    exact hplace

/-- **A line of code** opens an assignment, or it is read as a statement with its own tokens. -/
theorem IsCode.step_cases (h : rd.IsCode r line) (hstep : rd.step src n line = .ok rd') :
    (∃ a, Assignment.begin? (rd.tables.body r).quantities (lineNumber n) line = some a ∧
      a.isComplete = false) ∨
    ∃ s, rd' = rd.settled r ((rd.tables.body r).record s) ∧ s.tokens = tokenTexts line := by
  rw [h.step_eq] at hstep
  split at hstep
  · next a ha =>
    cases hcomplete : a.isComplete with
    | false => exact .inl ⟨a, ha, hcomplete⟩
    | true =>
      rw [advance, if_pos hcomplete] at hstep
      obtain ⟨b, hb, rfl⟩ := eq_settled_of_settle hstep
      obtain ⟨-, -, rfl⟩ := Body.assign_eq_ok_iff.1 hb
      obtain ⟨-, htext, -⟩ := Assignment.begun_of_begin? ha
      refine .inr ⟨_, rfl, ?_⟩
      rw [Body.assigned, Statement.tokens, tokenTexts_trim, htext]
  · obtain ⟨b, hb, rfl⟩ := eq_settled_of_settle hstep
    obtain ⟨-, rfl⟩ := Body.evaluate_eq_ok_iff.1 hb
    exact .inr ⟨_, rfl, tokenTexts_trim line⟩

/-! ### The moment at which an assignment on one line is read -/

/-- The moment of a run at which an assignment is read that begins and ends on one line. -/
structure OneLiner (src : Source) (t : Tables) (before : List Text) (line : Text) (r : Routine)
    (xs : List Statement) (s : Statement) where
  /-- The reader before the line. -/
  reader : Reader
  run : ({ tables := t } : Reader).run src 1 before = .ok reader
  code : reader.IsCode r line
  statements : (reader.tables.body r).statements = xs
  /-- The assignment on the line. -/
  assignment : Assignment
  begins : Assignment.begin? (reader.tables.body r).quantities (lineNumber (1 + before.length))
    line = some assignment
  isComplete : assignment.isComplete = true
  assignable : (reader.tables.body r).isFixed assignment.target = false
  eq_assigned : s = (reader.tables.body r).assigned assignment
  run_next : ({ tables := t } : Reader).run src 1 (before ++ [line]) =
    .ok (reader.settled r ((reader.tables.body r).record s))

/-- The line ends with a terminator. -/
theorem OneLiner.ends (μ : OneLiner src t before line r xs s) : endsWithTerminator line = true :=
  (Assignment.isComplete_of_begin? μ.begins).symm.trans μ.isComplete

/-- **An assignment on one line has a moment at which it was read.** -/
theorem nonempty_oneLiner (hbuilt : BuiltFrom src t before [line] r xs s)
    (hname : s.action.target? = some name) : Nonempty (OneLiner src t before line r xs s) := by
  obtain ⟨rd₀, hrun₀, hplace₀, hxs⟩ := hbuilt.begins
  obtain ⟨rd₁, hrun₁, hplace₁, hs₁⟩ := hbuilt.ends
  obtain ⟨rd₂, hrun₂, hstep⟩ := exists_of_run_concat hrun₁
  obtain rfl := Except.ok.inj (hrun₀.symm.trans hrun₂)
  rcases advances_of_step hstep with ⟨r', a, hadvances, hadvance⟩ | ⟨-, hplain⟩
  · cases hadvances with
    | extended place => exact absurd place (hplace₀ r' _)
    | begun code begins =>
      have hcomplete : a.isComplete = true := by
        rcases advance_eq_ok hadvance with ⟨hcomplete, -⟩ | ⟨-, hplace, -⟩
        · exact hcomplete
        · cases hplace.symm.trans hplace₁
      rw [advance, if_pos hcomplete] at hadvance
      obtain ⟨b, hb, rfl⟩ := eq_settled_of_settle hadvance
      obtain ⟨hfixed, -, rfl⟩ := Body.assign_eq_ok_iff.1 hb
      obtain rfl := Place.statements.inj hplace₁
      -- the statement that was read is the one that the assignment makes
      have hread := hs₁
      rw [settled, Tables.body_setBody_self, Body.record_statements, hxs] at hread
      obtain rfl := List.singleton_inj.1 (List.append_cancel_left hread)
      exact ⟨rd₀, hrun₀, code, hxs, a, begins, hcomplete, hfixed, rfl, hrun₁⟩
  · obtain ⟨ss, hss, htarget⟩ := hplain r
    rw [hxs, hs₁] at hss
    obtain rfl := List.append_cancel_left hss
    rw [htarget s List.mem_cons_self] at hname
    cases hname

/-- **An assignment is built from its line** if the line ends with a terminator. In a description
whose lines have a number each, the number tells which line it is. -/
theorem builtFrom_of_line (hrun : ({ tables := t } : Reader).run src 1 (before ++ line :: after) =
      .ok rd)
    (hs : (rd.tables.body r).statements = (t.body r).statements ++ xs ++ s :: ys)
    (hname : s.action.target? = some name) (hline : s.line = 1 + before.length)
    (hends : endsWithTerminator line = true) (hfits : FitsNumbers (before ++ line :: after)) :
    BuiltFrom src t before [line] r ((t.body r).statements ++ xs) s := by
  obtain ⟨before', rest, hlines, ⟨l, hl, -⟩, hbuilt⟩ := exists_builtFrom hrun hs hname
  have hlength : before.length = before'.length := by
    have hnumber := hbuilt.line_eq
    rw [FitsNumbers.lineNumber_behind (hlines ▸ hfits) (List.ne_nil_of_mem hl)] at hnumber
    omega
  obtain ⟨rfl, rfl⟩ := List.append_inj hlines hlength
  rwa [upTo, if_pos hends] at hbuilt

end Reader

namespace Tables

open Reader

variable {src : Source} {t t₁ : Tables} {r : Routine} {front first blank rest : Text}
  {xs : List Statement} {s : Statement} {comments : List Text} {n : Name}

/-- **An assignment on one line that has a gap** has a moment at which it was read, and the lines of
the description are those of a text with a gap. -/
theorem exists_oneLiner_of_gap (hgap : Gap front first blank rest)
    (h : t.readDescription src (front ++ first ++ blank ++ rest) = .ok (comments, t₁))
    (hn : s.action.target? = some n)
    (hbuilt : BuiltFrom src t (lines front) ((lines (first ++ blank ++ rest)).take 1) r xs s) :
    ∃ tail after, GapLines front first blank rest tail after ∧
      t.readLines src (lines front ++ [first ++ blank ++ tail] ++ after) = .ok (comments, t₁) ∧
      Nonempty (OneLiner src t (lines front) (first ++ blank ++ tail) r xs s) := by
  obtain ⟨tail, after, hlines⟩ := hgap.exists_lines
  have hread : t.readLines src (lines front ++ [first ++ blank ++ tail] ++ after) =
      .ok (comments, t₁) := by
    rw [List.append_assoc, List.singleton_append, ← hlines.whole]
    exact h
  rw [hlines.line, List.take_succ_cons, List.take_zero] at hbuilt
  exact ⟨tail, after, hlines, hread, nonempty_oneLiner hbuilt hn⟩

end Tables

end RankMetric
