import RankMetric.Proofs.EarlierStatements
import RankMetric.Proofs.OneLineAssignments

/-!
# One more remark

A remark among the statements of a routine becomes a statement of its own, at the lowest level. This
module says what else of a metric depends on it, for a remark that is put on a line of its own
wherever no assignment is open.

* `Reader.step_remark`: reading the line adds the statement and does nothing else. So the rest of
  the description is read as it was read without it, and only the line numbers differ
  (`Tables.exists_remarkAdded`).
* `Metric.exists_compile_of_remark`: the metric has one statement more, and all other statements
  have the texts that they had. The declared quantities, their levels and the used names are the
  same.
* The levels of the other statements are the same as well under `blockTree`, and under `heuristic`
  if and only if no level is handed over at the place of the remark, provided that its text is not
  taken for a line that opens or closes a block.
* Each of the two conditions is needed (`Metric.exists_remark_lowering`): a remark may keep a
  closing line from being raised, and one with a closing brace ends the block that it stands in.
-/

namespace RankMetric

open Text

/-! ### The line of a remark -/

namespace Text

/-- What ends a line is blank. -/
theorem trim_dropEnding (s : Text) : trim (dropEnding (s ++ ['\n'])) = trim s := by
  rcases List.eq_nil_or_concat s with rfl | ⟨s, x, rfl⟩
  · rfl
  · by_cases hx : x = '\r'
    · subst hx
      have hdrop : dropEnding (s ++ ['\r'] ++ ['\n']) = s := by simp [dropEnding]
      rw [List.concat_eq_append, hdrop, trim_append_blank s rfl]
    · have hdrop : dropEnding (s ++ [x] ++ ['\n']) = s ++ [x] := by simp [dropEnding, hx]
      rw [List.concat_eq_append, hdrop]

/-- The lines of a text with one more line in it. -/
theorem lines_insert {front rest l : Text} (hfront : front = [] ∨ ∃ s, front = s ++ ['\n'])
    (hl : '\n' ∉ l) :
    lines (front ++ l ++ '\n' :: rest) = lines front ++ dropEnding (l ++ ['\n']) :: lines rest := by
  have hpieces : pieces ('\n' :: rest) = ['\n'] :: pieces rest := by rw [pieces, if_pos rfl]
  rw [List.append_assoc, lines_append hfront, lines, lines, pieces_append_of_notMem hl hpieces,
    List.map_cons]
  rfl

end Text

/-- A line is a remark if `#` comes first on it. -/
theorem InnerLine.ofText_remark {blank : Text} (hblank : isBlankText blank = true)
    (comment : Text) :
    InnerLine.ofText (blank ++ '#' :: comment) = .remark (trim comment) := by
  have htrim : trim (blank ++ '#' :: comment) = '#' :: trimEnd comment := by
    have hstart : trimStart (blank ++ '#' :: comment) = '#' :: comment := by
      rw [trimStart, List.dropWhile_append_of_pos (List.all_eq_true.1 hblank)]
      rfl
    rw [trim, hstart, trimEnd_cons_of_not_isBlank rfl]
  have hbrace : trimEnd (blank ++ '#' :: comment) ≠ ['}'] := by
    intro h
    rw [← trimStart_trimEnd, h] at htrim
    cases htrim
  rw [ofText, if_neg hbrace, htrim]
  show InnerLine.remark (trimStart (trimEnd comment)) = _
  rw [trimStart_trimEnd]

/-- What a remark of this text is as a statement, but for its number. -/
def remarkStatement (text : Text) : Statement :=
  ⟨0, .constant, remarkText text, .remark⟩

/-- A remark takes part in the nesting of blocks as its text does. -/
theorem shape_remarkStatement (comment : Text) :
    (remarkStatement (trim comment)).shape = Shape.ofText comment := by
  have htrim : Shape.ofText (trim comment) = Shape.ofText comment := by
    have hshape : ∀ s : Text, Shape.ofText s = Shape.ofText (tokenTexts s).flatten :=
      fun s ↦ Statement.shape_eq ⟨0, .constant, s, .remark⟩
    rw [hshape, tokenTexts_trim, ← hshape]
  rw [← htrim]
  simp [Statement.shape, remarkStatement, remarkText, Shape.ofText]

namespace Reader

variable {src : Source} {rd last : Reader} {r : Routine} {n : Nat} {line text : Text}
  {lines : List Text}

/-- **A remark among the statements of a routine is added to them**, and nothing else happens. -/
theorem step_remark (hplace : rd.place = .statements r)
    (hkind : InnerLine.ofText line = .remark text) :
    rd.step src n line = .ok (rd.settled r ((rd.tables.body r).remark (lineNumber n) text)) := by
  rw [step, hplace]
  simp only [stepStatement, hkind]
  rfl

/-- **Lines are read alike behind a remark.** -/
theorem exists_run_remark (hplace : rd.place = .statements r)
    (hkind : InnerLine.ofText line = .remark text) (hcoherent : rd.Coherent)
    (hwithin : ∀ r, (rd.tables.body r).Within .perTerm) (hrun : rd.run src n lines = .ok last) :
    ∃ last', rd.run src n (line :: lines) = .ok last' ∧
      ReadsOnAlike rd (rd.settled r ((rd.tables.body r).remark (lineNumber n) text)) last
        last' := by
  -- without its statements the reader is what it was before the remark
  have hcleared : (rd.settled r ((rd.tables.body r).remark (lineNumber n) text)).cleared =
      rd.cleared := by
    obtain ⟨⟨params, decode, post⟩, comments, place⟩ := rd
    obtain rfl := hplace
    cases r <;> rfl
  obtain ⟨last', hlast', hon⟩ := exists_run_of_cleared_eq hcleared hcoherent hwithin (n + 1) hrun
  refine ⟨last', ?_, hon⟩
  rw [run, step_remark hplace hkind]
  exact hlast'

end Reader

/-! ### The description with one more remark -/

namespace Tables

/-- Whether the second tables are the first with one more remark, as statement `k` of a routine.
They may differ in line numbers. -/
structure RemarkAdded (t t' : Tables) (r : Routine) (k : Nat) (text : Text) : Prop where
  quantities : ∀ s, (t.quantities s).Alike .full (t'.quantities s)
  used : ∀ r', (t.body r').used = (t'.body r').used
  others : ∀ r' ≠ r, (t.body r').statements.map (fun s ↦ s.atLine 0) =
    (t'.body r').statements.map fun s ↦ s.atLine 0
  statements : ∃ xs ys, (t.body r).statements = xs ++ ys ∧ xs.length = k ∧
    (t'.body r).statements.map (fun s ↦ s.atLine 0) =
      (xs ++ remarkStatement text :: ys).map fun s ↦ s.atLine 0

variable {src : Source} {t t₁ : Tables} {comments : List Text} {front rest blank comment : Text}
  {r : Routine} {rd : Reader}

open Reader

/-- **One more remark does not matter for what else is read.** -/
theorem exists_remarkAdded (ht : ∀ r, (t.body r).Within .perTerm)
    (hfront : front = [] ∨ ∃ s, front = s ++ ['\n']) (hblank : isBlankText blank = true)
    (hfeed : '\n' ∉ blank ++ '#' :: comment)
    (hread : t.readDescription src (front ++ rest) = .ok (comments, t₁))
    (hrun : ({ tables := t } : Reader).run src 1 (lines front) = .ok rd)
    (hplace : rd.place = .statements r) :
    ∃ comments' t₂,
      t.readDescription src (front ++ (blank ++ '#' :: comment) ++ '\n' :: rest) =
        .ok (comments', t₂) ∧
      t₁.RemarkAdded t₂ r (rd.tables.body r).statements.length (trim comment) := by
  obtain ⟨last, hlast, hend, rfl, rfl⟩ := readLines_eq_ok_iff.1 hread
  rw [lines_append hfront, run_append, hrun] at hlast
  obtain ⟨hcoherent, hhistory⟩ := history_of_run (coherent_top t) hrun
  have hwithin := fun r ↦ (ht r).history (by decide) (hhistory r)
  have hline : dropEnding (blank ++ '#' :: comment ++ ['\n']) =
      blank ++ '#' :: dropEnding (comment ++ ['\n']) := by
    rw [List.append_assoc, List.cons_append, dropEnding_append_cons _ _ rfl]
  have hkind := InnerLine.ofText_remark hblank (dropEnding (comment ++ ['\n']))
  rw [trim_dropEnding, ← hline] at hkind
  obtain ⟨last', hlast', hon⟩ := exists_run_remark hplace hkind hcoherent hwithin hlast
  obtain ⟨k, hk⟩ := hon.place
  refine ⟨_, last'.tables, readLines_eq_ok_iff.2 ⟨last', ?_, ?_, rfl, rfl⟩, hon.quantities,
    hon.used, fun r' hr ↦ ?_, ?_⟩
  · rw [lines_insert hfront hfeed, run_append, hrun]
    exact hlast'
  · rw [hk]
    exact (Place.startingAt_eq_outside_iff _ k).2 hend
  · obtain ⟨zs, zs', hzs, hzs', heq⟩ := hon.statements r'
    rw [hzs, hzs', settled, body_setBody_ne _ hr, List.map_append, List.map_append, heq]
  · obtain ⟨zs, zs', hzs, hzs', heq⟩ := hon.statements r
    refine ⟨_, zs, hzs, rfl, ?_⟩
    rw [hzs', settled, body_setBody_self, Body.remark, Body.push_statements, List.append_assoc,
      List.singleton_append, List.map_append, List.map_append, List.map_cons, List.map_cons, heq]
    rfl

end Tables

/-! ### Statements after propagation -/

namespace Propagation

variable {ss ss' : List Statement}

/-- Statements that differ in their numbers alone do so after propagation. -/
theorem map_atLine_apply (p : Propagation)
    (h : ss.map (fun s ↦ s.atLine 0) = ss'.map fun s ↦ s.atLine 0) :
    (p.apply ss).map (fun s ↦ s.atLine 0) = (p.apply ss').map fun s ↦ s.atLine 0 := by
  have hbefore : ∀ ss : List Statement, (p.apply ss).map (fun s ↦ s.atLine 0) =
      p.apply (ss.map fun s ↦ s.atLine 0) :=
    fun ss ↦ (p.apply_map (f := fun s ↦ s.atLine 0) (fun _ ↦ rfl) (fun _ ↦ rfl)
      (fun _ _ ↦ rfl) ss).symm
  rw [hbefore, hbefore, h]

end Propagation

namespace Metric

variable {src : Source} {p : Propagation} {comments comments' : List Text} {t t' : Tables}
  {r : Routine} {k : Nat} {front rest blank comment text : Text} {rd : Reader}

/-- Whether the second metric is the first with one more remark, as statement `k` of a routine. They
may differ in line numbers, and in the levels of the other statements of the routine. -/
structure RemarkAdded (m m' : Metric) (r : Routine) (k : Nat) (text : Text) : Prop where
  quantities : ∀ s, (m.quantities s).Alike .full (m'.quantities s)
  used : ∀ r', (m.body r').used = (m'.body r').used
  others : ∀ r' ≠ r, (m.body r').statements.map (fun s ↦ s.atLine 0) =
    (m'.body r').statements.map fun s ↦ s.atLine 0
  remark : ∃ s, (m'.body r).statements[k]? = some s ∧ s.text = remarkText text ∧ s.action = .remark
  texts : (m.body r).statements.map (fun s ↦ (s.text, s.action)) =
    ((m'.body r).statements.eraseIdx k).map fun s ↦ (s.text, s.action)

theorem remarkAdded_ofTables (h : t.RemarkAdded t' r k text) :
    RemarkAdded (ofTables src p comments t) (ofTables src p comments' t') r k text := by
  obtain ⟨xs, ys, hxs, rfl, hys⟩ := h.statements
  have hread : (((ofTables src p comments' t').body r).statements).map
      (fun s ↦ (s.text, s.action)) =
        (xs ++ remarkStatement text :: ys).map fun s ↦ (s.text, s.action) := by
    have hall := congrArg (List.map fun s ↦ (s.text, s.action)) hys
    rw [List.map_map, List.map_map] at hall
    rw [body_ofTables_statements, p.map_apply fun _ _ ↦ rfl]
    exact hall
  refine ⟨fun s ↦ ?_, fun r' ↦ ?_, fun r' hr ↦ ?_, ?_, ?_⟩
  · rw [quantities_ofTables, quantities_ofTables]
    exact h.quantities s
  · rw [body_ofTables_used, body_ofTables_used]
    exact Body.used_closeUsed_eq (h.quantities (.routine r')) (h.used r') r'
  · rw [body_ofTables_statements, body_ofTables_statements]
    exact p.map_atLine_apply (h.others r' hr)
  · have hget : (((ofTables src p comments' t').body r).statements)[xs.length]?.map
        (fun s ↦ (s.text, s.action)) = some (remarkText text, .remark) := by
      rw [← List.getElem?_map, hread]
      simp [remarkStatement]
    obtain ⟨s, hs, heq⟩ := Option.map_eq_some_iff.1 hget
    exact ⟨s, hs, congrArg Prod.fst heq, congrArg Prod.snd heq⟩
  · rw [← List.eraseIdx_map, hread, body_ofTables_statements, p.map_apply fun _ _ ↦ rfl, hxs]
    simp [List.eraseIdx_append_of_length_le]

/-- The levels after propagation are those that the statements would have with the remark among
them. -/
theorem map_level_ofTables_remarkAdded {xs ys : List Statement}
    (hys : (t'.body r).statements.map (fun s ↦ s.atLine 0) =
      (xs ++ remarkStatement text :: ys).map fun s ↦ s.atLine 0) :
    ((ofTables src p comments t').body r).statements.map Statement.level =
      (p.apply (xs ++ remarkStatement text :: ys)).map Statement.level := by
  have hall := congrArg (List.map fun s ↦ (s.level, s.shape)) hys
  rw [List.map_map, List.map_map] at hall
  rw [body_ofTables_statements]
  exact p.map_level_apply hall

/-- **When a remark does not matter for the levels of the other statements.** -/
theorem map_level_remarkAdded_iff (h : t.RemarkAdded t' r k text)
    (hplain : (remarkStatement text).shape = .plain) :
    (((ofTables src p comments' t').body r).statements.eraseIdx k).map Statement.level =
        ((ofTables src p comments t).body r).statements.map Statement.level ↔
      (p = .heuristic → ¬ Propagation.HandsOver (t.body r).statements k) := by
  obtain ⟨xs, ys, hxs, rfl, hys⟩ := h.statements
  rw [← List.eraseIdx_map, map_level_ofTables_remarkAdded hys, List.eraseIdx_map,
    body_ofTables_statements, hxs]
  exact Propagation.map_level_eraseIdx_apply_iff p xs ys hplain rfl

/-! ### Remarks in a description -/

/-- `gatedText` up to the assignment to `t`, which stands in a block. -/
def gatedHead : Text :=
  unlines ((lines gatedText).take 4)

/-- The rest of `gatedText`, from the end of the block on. -/
def gatedTail : Text :=
  unlines ((lines gatedText).drop 4)

theorem gatedHead_append_gatedTail : gatedHead ++ gatedTail = gatedText := by
  decide +kernel

/-- Between the assignment and the end of the block the reader is among the statements. -/
theorem exists_reader_gatedHead : ∃ rd,
    ({ tables := Tables.withBuiltins } : Reader).run gatedSource 1 (lines gatedHead) = .ok rd ∧
      rd.place = .statements .decode ∧ (rd.tables.body .decode).statements.length = 2 := by
  obtain ⟨comments, t, hread, hstatements⟩ := exists_tables_of_gatedText
  obtain ⟨last, hrun, rfl⟩ := Tables.exists_run_of_readDescription hread
  have hlines : lines gatedText = (lines gatedText).take 3 ++
      "        t = D_terms + N;".toList :: (lines gatedText).drop 4 := by decide +kernel
  have hhead : lines gatedHead =
      (lines gatedText).take 3 ++ ["        t = D_terms + N;".toList] := by decide +kernel
  rw [hlines] at hrun
  have hread : (last.tables.body .decode).statements =
      (Tables.withBuiltins.body .decode).statements ++ gatedStatements.take 1 ++
        settingT :: gatedStatements.drop 2 := by
    rw [hstatements, Tables.withBuiltins_statements, List.nil_append]
    rfl
  have hends : endsWithTerminator "        t = D_terms + N;".toList = true := by decide +kernel
  have hline : settingT.line = 1 + ((lines gatedText).take 3).length := by decide +kernel
  have hfits : FitsNumbers (lines gatedText) := by decide +kernel
  rw [hlines] at hfits
  obtain ⟨μ⟩ := Reader.nonempty_oneLiner
    (Reader.builtFrom_of_line hrun hread rfl hline hends hfits) rfl
  rw [hhead]
  refine ⟨_, μ.run_next, rfl, ?_⟩
  rw [Reader.settled, Tables.body_setBody_self, Body.record_statements, μ.statements,
    Tables.withBuiltins_statements]
  rfl

/-- The levels that `gatedText` has without and with a remark behind the assignment to `t`. -/
theorem exists_levels_gatedText (p : Propagation) (comment : Text)
    (hfeed : '\n' ∉ [] ++ '#' :: comment) :
    ∃ m m', compile gatedSource p (gatedHead ++ gatedTail) = .ok m ∧
      compile gatedSource p (gatedHead ++ ([] ++ '#' :: comment) ++ '\n' :: gatedTail) = .ok m' ∧
      (m.body .decode).statements.map Statement.level =
        (p.apply gatedStatements).map Statement.level ∧
      (m'.body .decode).statements.map Statement.level = (p.apply (gatedStatements.take 2 ++
        remarkStatement (trim comment) :: gatedStatements.drop 2)).map Statement.level := by
  obtain ⟨comments, t, hread, hstatements⟩ := exists_tables_of_gatedText
  obtain ⟨rd, hrun, hplace, hlength⟩ := exists_reader_gatedHead
  rw [← gatedHead_append_gatedTail] at hread
  obtain ⟨comments', t', hread', hadded⟩ :=
    Tables.exists_remarkAdded Tables.withBuiltins_within_perTerm
      (.inr ⟨gatedHead.dropLast, by decide +kernel⟩) rfl hfeed hread hrun hplace
  obtain ⟨xs, ys, hxs, hlen, hys⟩ := hadded.statements
  rw [hlength] at hlen
  rw [hstatements] at hxs
  have htake : xs = gatedStatements.take 2 := by rw [hxs, ← hlen, List.take_left]
  have hdrop : ys = gatedStatements.drop 2 := by rw [hxs, ← hlen, List.drop_left]
  refine ⟨ofTables gatedSource p comments t, ofTables gatedSource p comments' t', ?_, ?_, ?_, ?_⟩
  · rw [compile, hread]
  · rw [compile, hread']
  · rw [body_ofTables_statements, hstatements]
  · rw [map_level_ofTables_remarkAdded hys, htake, hdrop]

variable {m : Metric}

/-- **Remarks do not move code.** A line with a remark is put where no assignment is open, among
the statements of a routine of a description that can be compiled. The longer description can be
compiled as well. It has one statement more, the remark; all other statements have the same texts,
the same names are used, and every quantity has the level that it had. If the remark has both braces
or none, the other statements have the levels that they had, except that under `heuristic` no level
may be handed over at the place of the remark. -/
theorem exists_compile_of_remark (p : Propagation)
    (hfront : front = [] ∨ ∃ s, front = s ++ ['\n']) (hblank : isBlankText blank = true)
    (hfeed : '\n' ∉ blank ++ '#' :: comment) (h : compile src p (front ++ rest) = .ok m)
    (hrun : ({ tables := Tables.withBuiltins } : Reader).run src 1 (lines front) = .ok rd)
    (hplace : rd.place = .statements r) :
    ∃ comments t m', Tables.withBuiltins.readDescription src (front ++ rest) = .ok (comments, t) ∧
      compile src p (front ++ (blank ++ '#' :: comment) ++ '\n' :: rest) = .ok m' ∧
      m.RemarkAdded m' r (rd.tables.body r).statements.length (trim comment) ∧
      (Shape.ofText comment = .plain →
        (((m'.body r).statements.eraseIdx (rd.tables.body r).statements.length).map
              Statement.level = (m.body r).statements.map Statement.level ↔
          (p = .heuristic → ¬ Propagation.HandsOver (t.body r).statements
            (rd.tables.body r).statements.length))) := by
  obtain ⟨comments, t, hread, rfl⟩ := readDescription_of_compile h
  obtain ⟨comments', t', hread', hadded⟩ :=
    Tables.exists_remarkAdded Tables.withBuiltins_within_perTerm hfront hblank hfeed hread hrun
      hplace
  refine ⟨comments, t, ofTables src p comments' t', hread, ?_, remarkAdded_ofTables hadded,
    fun hplain ↦ ?_⟩
  · rw [compile, hread']
  · exact map_level_remarkAdded_iff hadded ((shape_remarkStatement comment).trans hplain)

theorem exists_compile_of_remark_gatedText : ∃ m m',
    compile gatedSource .blockTree (gatedHead ++ gatedTail) = .ok m ∧
      compile gatedSource .blockTree
        (gatedHead ++ ("  ".toList ++ '#' :: " \x7bt\x7d is known".toList) ++ '\n' :: gatedTail) =
          .ok m' ∧
      m.RemarkAdded m' .decode 2 "\x7bt\x7d is known".toList ∧
      ((m'.body .decode).statements.eraseIdx 2).map Statement.level =
        (m.body .decode).statements.map Statement.level := by
  obtain ⟨m, -, hm, -⟩ := exists_levels_gatedText .blockTree [] (by decide)
  obtain ⟨rd, hrun, hplace, hlength⟩ := exists_reader_gatedHead
  have hfeed : '\n' ∉ "  ".toList ++ '#' :: " \x7bt\x7d is known".toList := by decide
  obtain ⟨comments, t, m', -, hm', hadded, hlevels⟩ := exists_compile_of_remark .blockTree
    (.inr ⟨gatedHead.dropLast, by decide +kernel⟩) rfl hfeed hm hrun hplace
  rw [hlength] at hadded hlevels
  exact ⟨m, m', hm, hm', hadded, (hlevels (by decide)).2 (by simp)⟩

/-- **A remark can lower the level of a closing line.** It stands between two statements of
`gatedText`. Under `heuristic` it keeps the closing line behind it from being raised by the
statement before it. Under `blockTree` one with a closing brace ends the block, so that the closing
line is in none. -/
theorem exists_remark_lowering :
    (∃ rd, ({ tables := Tables.withBuiltins } : Reader).run gatedSource 1 (lines gatedHead) =
        .ok rd ∧ rd.place = .statements .decode ∧ (rd.tables.body .decode).statements.length = 2) ∧
      (∃ m m', compile gatedSource .heuristic (gatedHead ++ gatedTail) = .ok m ∧
        compile gatedSource .heuristic (gatedHead ++ "# t\n".toList ++ gatedTail) = .ok m' ∧
        (m.body .decode).statements.map Statement.level =
          [.perTerm, .perDocument, .perDocument, .constant, .perDocument] ∧
        ((m'.body .decode).statements.eraseIdx 2).map Statement.level =
          [.perTerm, .perDocument, .constant, .constant, .perDocument]) ∧
      ∃ m m', compile gatedSource .blockTree (gatedHead ++ gatedTail) = .ok m ∧
        compile gatedSource .blockTree (gatedHead ++ "# \x7d\n".toList ++ gatedTail) = .ok m' ∧
        (m.body .decode).statements.map Statement.level =
          [.perTerm, .perTerm, .perTerm, .constant, .perDocument] ∧
        ((m'.body .decode).statements.eraseIdx 2).map Statement.level =
          [.perTerm, .perTerm, .constant, .constant, .perDocument] := by
  refine ⟨exists_reader_gatedHead, ?_, ?_⟩
  · obtain ⟨m, m', hm, hm', hlevels, hlevels'⟩ :=
      exists_levels_gatedText .heuristic " t".toList (by decide)
    refine ⟨m, m', hm, by simpa using hm', hlevels.trans (by decide), ?_⟩
    rw [← List.eraseIdx_map, hlevels']
    decide
  · obtain ⟨m, m', hm, hm', hlevels, hlevels'⟩ :=
      exists_levels_gatedText .blockTree " \x7d".toList (by decide)
    refine ⟨m, m', hm, by simpa using hm', hlevels.trans (by decide), ?_⟩
    rw [← List.eraseIdx_map, hlevels']
    decide

end Metric

end RankMetric
