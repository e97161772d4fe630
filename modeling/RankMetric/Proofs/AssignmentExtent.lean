import RankMetric.Proofs.ReaderSteps

/-!
# Where an assignment ends

An assignment goes on over lines until its terminator has come, and what is asked after each line is
whether the *last* token is the terminator (`Assignment.isComplete`). A terminator that something
follows on its line, a comment or a brace, is not noticed, and the assignment takes in the next
lines, whatever they are. So there are two ways to say where an assignment ends, up to the first
line that ends with a terminator (`endsWithTerminator`) and up to the first that has one
(`hasTerminator`). The reader goes by the first.

* `Reader.advances_of_step`: a line either begins an assignment or goes on with one, or no
  assignment has to do with it.
* `Reader.exists_lines_of_open`: an open assignment is what the lines since its beginning make up,
  none of which ends with a terminator.
* `Reader.BuiltFrom`: a statement is built from some lines if the reader is inside the statement
  after each of them but the last. The lines are determined by that (`BuiltFrom.unique`).
* `Tables.builtFrom_iff`: an assignment is built from its first line up to the first that ends with
  a terminator. It is built from the lines up to the first that has one if and only if that line
  ends with one.
-/

namespace RankMetric

open Text

/-! ### Lines and terminators -/

/-- Whether the last token of a line is the terminator. -/
def endsWithTerminator (line : Text) : Bool :=
  (significant line).getLast?.any Token.isTerminator

/-- Whether some token of a line is the terminator. -/
def hasTerminator (line : Text) : Bool :=
  (significant line).any Token.isTerminator

theorem hasTerminator_of_ends {line : Text} (h : endsWithTerminator line = true) :
    hasTerminator line = true := by
  unfold endsWithTerminator at h
  unfold hasTerminator
  cases hlast : (significant line).getLast? with
  | none => simp [hlast] at h
  | some t =>
    rw [hlast, Option.any_some] at h
    exact List.any_eq_true.2 ⟨t, List.mem_of_getLast? hlast, h⟩

/-- The lines up to and including the first that has a property. -/
def upTo (p : Text → Bool) : List Text → List Text
  | [] => []
  | l :: ls => if p l then [l] else l :: upTo p ls

theorem upTo_append_cons {p : Text → Bool} {ls : List Text} {l : Text}
    (hls : ∀ k ∈ ls, p k = false) (hl : p l = true) (rest : List Text) :
    upTo p (ls ++ l :: rest) = ls ++ [l] := by
  induction ls with
  | nil => simp [upTo, hl]
  | cons k ls ih =>
    obtain ⟨hk, hls⟩ := List.forall_mem_cons.1 hls
    rw [List.cons_append, upTo, ih hls, hk]
    rfl

theorem upTo_isPrefix (p : Text → Bool) (ls : List Text) : upTo p ls <+: ls := by
  induction ls with
  | nil => exact List.nil_prefix
  | cons k ls ih =>
    rw [upTo]
    split
    · exact ⟨ls, rfl⟩
    · exact List.cons_prefix_cons.2 ⟨rfl, ih⟩

theorem upTo_ne_nil {p : Text → Bool} {ls : List Text} (h : ls ≠ []) : upTo p ls ≠ [] := by
  obtain ⟨k, ls, rfl⟩ := List.exists_cons_of_ne_nil h
  rw [upTo]
  split <;> simp

/-- If some line has a property, the last line of those up to it has the property. -/
theorem getLast?_upTo {p : Text → Bool} {ls : List Text} (h : ∃ l ∈ ls, p l = true) :
    (upTo p ls).getLast?.any p = true := by
  induction ls with
  | nil => simp at h
  | cons k ls ih =>
    rw [upTo]
    split
    · next hk => simp [hk]
    · next hk =>
      obtain ⟨l, hl, hpl⟩ := h
      have hmem : l ∈ ls := (List.mem_cons.1 hl).resolve_left fun e ↦ hk (e ▸ hpl)
      obtain ⟨x, xs, hx⟩ := List.exists_cons_of_ne_nil (upTo_ne_nil (p := p)
        (List.ne_nil_of_mem hmem))
      rw [hx, List.getLast?_cons_cons, ← hx]
      exact ih ⟨l, hmem, hpl⟩

/-- A weaker property may be met earlier. It is met at the same line if and only if the line has
the stronger one too. -/
theorem upTo_eq_iff {p q : Text → Bool} (hpq : ∀ l, p l = true → q l = true) {ls : List Text}
    (h : ∃ l ∈ ls, p l = true) :
    upTo q ls = upTo p ls ↔ (upTo q ls).getLast?.any p = true := by
  refine ⟨fun heq ↦ heq ▸ getLast?_upTo h, fun hlast ↦ ?_⟩
  clear h
  induction ls with
  | nil => rfl
  | cons k ls ih =>
    rw [upTo] at hlast ⊢
    rw [upTo]
    cases hq : q k with
    | true =>
      rw [hq, if_pos rfl] at hlast
      have hp : p k = true := by simpa using hlast
      rw [if_pos rfl, if_pos hp]
    | false =>
      have hp : ¬ p k = true := fun hp ↦ by simp [hpq k hp] at hq
      rw [hq, if_neg Bool.false_ne_true] at hlast
      rw [if_neg Bool.false_ne_true, if_neg hp]
      congr 1
      refine ih ?_
      cases hrest : upTo q ls with
      | nil => rw [hrest] at hlast; simp [hp] at hlast
      | cons x xs => rwa [hrest, List.getLast?_cons_cons] at hlast

/-- Lines joined by single blanks, each after what stands before it has lost the blanks at its
end. -/
def joinLines : List Text → Text
  | [] => []
  | l :: ls => ls.foldl (fun s l ↦ trimEnd s ++ ' ' :: l) l

theorem joinLines_concat {ls : List Text} (h : ls ≠ []) (l : Text) :
    joinLines (ls ++ [l]) = trimEnd (joinLines ls) ++ ' ' :: l := by
  obtain ⟨k, ls, rfl⟩ := List.exists_cons_of_ne_nil h
  simp [joinLines]

/-! ### Assignments line by line -/

namespace Assignment

variable {q : Quantities} {n : Nat} {text : Text} {a : Assignment}

/-- An assignment of one line is complete if the line ends with the terminator. -/
theorem isComplete_of_begin? (h : begin? q n text = some a) :
    a.isComplete = endsWithTerminator text := by
  unfold begin? at h
  split at h
  · next target operator t ts hts =>
    split at h
    · obtain rfl := Option.some.inj h
      rw [isComplete, endsWithTerminator, hts, List.getLast?_cons_cons, List.getLast?_cons_cons]
    · cases h
  · cases h

/-- An open assignment is complete after a further line if this line ends with the terminator. -/
theorem isComplete_extend (h : a.isComplete = false) (text : Text) :
    (a.extend text).isComplete = endsWithTerminator text := by
  rw [isComplete] at h
  rw [isComplete, extend, endsWithTerminator, List.getLast?_append]
  cases (significant text).getLast? with
  | none => exact h
  | some t => rfl

end Assignment

namespace Reader

variable {src : Source} {t : Tables} {r : Routine} {n : Nat} {lines before ls : List Text}
  {line : Text} {a : Assignment} {rd rd' : Reader} {xs : List Statement} {s : Statement}

/-- Assignment `a` of routine `r` is open after the lines `ls`, of which the first began it. They
follow the lines `before`, and the tables have been `u` since then. -/
structure OpenOver (src : Source) (t : Tables) (before ls : List Text) (r : Routine)
    (a : Assignment) (u : Tables) : Prop where
  ne_nil : ls ≠ []
  line_eq : a.line = lineNumber (1 + before.length)
  text_eq : a.text = joinLines ls
  isComplete : a.isComplete = false
  not_ends : ∀ l ∈ ls, endsWithTerminator l = false
  /-- The reader before the first line is inside no assignment. -/
  begins : ∃ rd, ({ tables := t } : Reader).run src 1 before = .ok rd ∧
    (∀ r a, rd.place ≠ .assignment r a) ∧ rd.tables = u
  /-- The reader is inside the assignment from then on. -/
  inside : ∀ k, 0 < k → k ≤ ls.length → ∃ rd a,
    ({ tables := t } : Reader).run src 1 (before ++ ls.take k) = .ok rd ∧ rd.place = .assignment r a

theorem run_concat (hrun : ({ tables := t } : Reader).run src 1 lines = .ok rd)
    (hstep : rd.step src (1 + lines.length) line = .ok rd') :
    ({ tables := t } : Reader).run src 1 (lines ++ [line]) = .ok rd' := by
  rw [run_append, hrun]
  show (do (← rd.step src (1 + lines.length) line).run src _ []) = _
  rw [hstep]
  rfl

/-- A line that begins an assignment and does not end with a terminator leaves it open. -/
theorem OpenOver.begun {q : Quantities}
    (hrun : ({ tables := t } : Reader).run src 1 before = .ok rd)
    (hplace : ∀ r a, rd.place ≠ .assignment r a)
    (hbegin : Assignment.begin? q (lineNumber (1 + before.length)) line = some a)
    (hcomplete : a.isComplete = false)
    (hstep : rd.step src (1 + before.length) line = .ok rd') (hopen : rd'.place = .assignment r a) :
    OpenOver src t before [line] r a rd.tables := by
  obtain ⟨hline, htext, -⟩ := Assignment.begun_of_begin? hbegin
  refine ⟨by simp, hline, htext, hcomplete, ?_, ⟨rd, hrun, hplace, rfl⟩, fun k hpos hk ↦ ?_⟩
  · rw [Assignment.isComplete_of_begin? hbegin] at hcomplete
    simpa using hcomplete
  · obtain rfl : k = 1 := by rw [List.length_singleton] at hk; omega
    exact ⟨rd', a, run_concat hrun hstep, hopen⟩

/-- A further line that does not end with a terminator keeps it open. -/
theorem OpenOver.extended {u : Tables} (h : OpenOver src t before ls r a u)
    (hrun : ({ tables := t } : Reader).run src 1 (before ++ ls ++ [line]) = .ok rd')
    (hcomplete : (a.extend line).isComplete = false)
    (hopen : rd'.place = .assignment r (a.extend line)) :
    OpenOver src t before (ls ++ [line]) r (a.extend line) u where
  ne_nil := by simp
  line_eq := h.line_eq
  text_eq := by rw [joinLines_concat h.ne_nil, ← h.text_eq]; rfl
  isComplete := hcomplete
  not_ends := by
    rw [Assignment.isComplete_extend h.isComplete] at hcomplete
    simpa [or_imp, forall_and, hcomplete] using h.not_ends
  begins := h.begins
  inside k hpos hk := by
    rcases Nat.lt_or_ge ls.length k with hlt | hle
    · have hall : (ls ++ [line]).take k = ls ++ [line] :=
        List.take_of_length_le (by rw [List.length_append, List.length_singleton]; omega)
      rw [hall, ← List.append_assoc]
      exact ⟨rd', _, hrun, hopen⟩
    · rw [List.take_append_of_le_length hle]
      exact h.inside k hpos hle

/-- **An open assignment is what the lines since its beginning make up.** -/
theorem exists_lines_of_open (h : ({ tables := t } : Reader).run src 1 lines = .ok rd)
    (ha : rd.place = .assignment r a) :
    ∃ before ls, lines = before ++ ls ∧ OpenOver src t before ls r a rd.tables := by
  induction lines using List.reverseRecOn generalizing rd a with
  | nil =>
    obtain rfl := Except.ok.inj h
    cases ha
  | append_singleton lines line ih =>
    obtain ⟨rd₁, hrun, hstep⟩ := exists_of_run_concat h
    rcases advances_of_step hstep with ⟨r', a', hadvances, hadvance⟩ | ⟨hplain, -⟩
    · rcases advance_eq_ok hadvance with ⟨-, hplace, -⟩ | ⟨hcomplete, hplace, htables⟩
      · cases hplace.symm.trans ha
      · obtain ⟨rfl, rfl⟩ := Place.assignment.inj (hplace.symm.trans ha)
        rw [htables]
        cases hadvances with
        | begun code begins =>
          exact ⟨lines, [line], rfl, .begun hrun code.place_ne begins hcomplete hstep ha⟩
        | extended place =>
          obtain ⟨before, ls, rfl, hopen⟩ := ih hrun place
          exact ⟨before, ls ++ [line], List.append_assoc _ _ _,
            hopen.extended h hcomplete ha⟩
    · exact absurd ha (hplain r a)

/-- Statement `s` of routine `r` is built from the lines `ls`, which follow the lines `before`: its
text is that of the lines, the reader is inside it after each of them but the last, and after the
last it has read the statement and no more. The statements before are `xs`. -/
structure BuiltFrom (src : Source) (t : Tables) (before ls : List Text) (r : Routine)
    (xs : List Statement) (s : Statement) : Prop where
  line_eq : s.line = lineNumber (1 + before.length)
  text_eq : s.text = trim (joinLines ls)
  begins : ∃ rd, ({ tables := t } : Reader).run src 1 before = .ok rd ∧
    (∀ r a, rd.place ≠ .assignment r a) ∧ (rd.tables.body r).statements = xs
  inside : ∀ k, 0 < k → k < ls.length → ∃ rd a,
    ({ tables := t } : Reader).run src 1 (before ++ ls.take k) = .ok rd ∧ rd.place = .assignment r a
  ends : ∃ rd, ({ tables := t } : Reader).run src 1 (before ++ ls) = .ok rd ∧
    rd.place = .statements r ∧ (rd.tables.body r).statements = xs ++ [s]

theorem BuiltFrom.ne_nil (h : BuiltFrom src t before ls r xs s) : ls ≠ [] := by
  rintro rfl
  obtain ⟨rd, hrun, -, hxs⟩ := h.begins
  obtain ⟨rd', hrun', -, hxs'⟩ := h.ends
  rw [List.append_nil] at hrun'
  obtain rfl := Except.ok.inj (hrun.symm.trans hrun')
  simpa using hxs.symm.trans hxs'

/-- Of two such stretches of lines none is longer than the other. -/
theorem BuiltFrom.length_le {ls' : List Text} (h : BuiltFrom src t before ls r xs s)
    (h' : BuiltFrom src t before ls' r xs s) (hstart : ls <+: ls') : ls'.length ≤ ls.length := by
  by_contra hlt
  obtain ⟨rd, a, hrun, hplace⟩ := h'.inside ls.length (List.length_pos_of_ne_nil h.ne_nil)
    (by omega)
  rw [← List.prefix_iff_eq_take.1 hstart] at hrun
  obtain ⟨rd', hrun', hplace', -⟩ := h.ends
  obtain rfl := Except.ok.inj (hrun.symm.trans hrun')
  cases hplace.symm.trans hplace'

/-- **The lines that a statement is built from are determined.** -/
theorem BuiltFrom.unique {ls' rest : List Text} (h : BuiltFrom src t before ls r xs s)
    (h' : BuiltFrom src t before ls' r xs s) (hls : ls <+: rest) (hls' : ls' <+: rest) :
    ls = ls' := by
  rcases Nat.le_total ls.length ls'.length with hle | hle
  · have hstart := List.prefix_of_prefix_length_le hls hls' hle
    exact hstart.eq_of_length_le (h.length_le h' hstart)
  · have hstart := List.prefix_of_prefix_length_le hls' hls hle
    exact (hstart.eq_of_length_le (h'.length_le h hstart)).symm

/-- A line at which an assignment is complete ends the lines that its statement is built from. -/
theorem exists_builtFrom_of_advances
    (hrun : ({ tables := t } : Reader).run src 1 lines = .ok rd)
    (hstep : rd.step src (1 + lines.length) line = .ok rd')
    (hadvances : rd.Advances (1 + lines.length) line r a)
    (hcomplete : a.isComplete = true) (hplace : rd'.place = .statements r)
    (hxs : (rd.tables.body r).statements = xs)
    (hs : (rd'.tables.body r).statements = xs ++ [s])
    (hline : s.line = a.line) (htext : s.text = trim a.text) :
    ∃ before ls, lines = before ++ ls ∧ (∀ l ∈ ls, endsWithTerminator l = false) ∧
      endsWithTerminator line = true ∧ BuiltFrom src t before (ls ++ [line]) r xs s := by
  have hlast := run_concat hrun hstep
  cases hadvances with
  | begun code begins =>
    obtain ⟨hline', htext', -⟩ := Assignment.begun_of_begin? begins
    refine ⟨lines, [], (List.append_nil _).symm, by simp,
      (Assignment.isComplete_of_begin? begins).symm.trans hcomplete, ?_⟩
    refine ⟨hline.trans hline', by rw [htext, htext']; rfl, ⟨rd, hrun, code.place_ne, hxs⟩,
      fun k hpos hk ↦ ?_, rd', hlast, hplace, hs⟩
    rw [List.nil_append, List.length_singleton] at hk
    omega
  | extended place =>
    obtain ⟨before, ls, rfl, hopen⟩ := exists_lines_of_open hrun place
    refine ⟨before, ls, rfl, hopen.not_ends,
      (Assignment.isComplete_extend hopen.isComplete line).symm.trans hcomplete, ?_⟩
    obtain ⟨rd₀, hrun₀, hplace₀, htables₀⟩ := hopen.begins
    rw [List.append_assoc] at hlast
    refine ⟨hline.trans hopen.line_eq, ?_, ⟨rd₀, hrun₀, hplace₀, htables₀ ▸ hxs⟩,
      fun k hpos hk ↦ ?_, rd', hlast, hplace, hs⟩
    · rw [htext, joinLines_concat hopen.ne_nil, ← hopen.text_eq]
      rfl
    · rw [List.length_append, List.length_singleton] at hk
      have hle : k ≤ ls.length := by omega
      rw [List.take_append_of_le_length hle]
      exact hopen.inside k hpos hle

/-- **An assignment is built from its first line up to the first that ends with a terminator.** -/
theorem exists_builtFrom {xs ys : List Statement} {name : Name}
    (h : ({ tables := t } : Reader).run src 1 lines = .ok rd)
    (hs : (rd.tables.body r).statements = (t.body r).statements ++ xs ++ s :: ys)
    (hname : s.action.target? = some name) :
    ∃ before rest, lines = before ++ rest ∧ (∃ l ∈ rest, endsWithTerminator l = true) ∧
      BuiltFrom src t before (upTo endsWithTerminator rest) r ((t.body r).statements ++ xs) s := by
  obtain ⟨μ⟩ := nonempty_moment_of_run h hs
  have hstatements : (μ.next.tables.body r).statements = (t.body r).statements ++ xs ++ [s] := by
    have hxs := μ.statements_eq
    rw [μ.tables_eq, Tables.body_setBody_self, Body.record_statements, hxs]
  rcases advances_of_step μ.step with ⟨r', a, hadvances, hadvance⟩ | ⟨-, hplain⟩
  · rcases advance_eq_ok hadvance with ⟨hcomplete, hplace, b, hb, htables⟩ | ⟨-, hplace, -⟩
    · obtain rfl := Place.statements.inj (hplace.symm.trans μ.place)
      obtain ⟨-, -, rfl⟩ := Body.assign_eq_ok_iff.1 hb
      -- the statement that was read is the one that the assignment makes
      have hread := hstatements
      have hxs := μ.statements_eq
      rw [htables, Tables.body_setBody_self, Body.record_statements, hxs] at hread
      have hassigned := List.singleton_inj.1 (List.append_cancel_left hread)
      obtain ⟨before, ls, hlines, hls, hline, hbuilt⟩ := exists_builtFrom_of_advances μ.run_before
        μ.step hadvances hcomplete μ.place hxs hstatements (congrArg Statement.line hassigned.symm)
        (congrArg Statement.text hassigned.symm)
      refine ⟨before, ls ++ μ.line :: μ.after, ?_, ⟨μ.line, by simp, hline⟩, ?_⟩
      · exact μ.lines_eq.trans (by rw [hlines, List.append_assoc])
      · rw [upTo_append_cons hls hline]
        exact hbuilt
    · cases hplace.symm.trans μ.place
  · obtain ⟨ss, hss, htarget⟩ := hplain r
    have hxs := μ.statements_eq
    rw [hxs] at hss
    obtain rfl := List.append_cancel_left (hstatements.symm.trans hss)
    rw [htarget s List.mem_cons_self] at hname
    cases hname

end Reader

namespace Tables

open Reader

variable {src : Source} {text : Text} {comments : List Text} {t t' : Tables} {r : Routine}
  {xs ys : List Statement} {s : Statement} {n : Name}

/-- **Where an assignment ends.** An assignment is built from the lines from its own up to the first
that ends with a terminator, and there is such a line. It is built from the lines up to the first
that has a terminator anywhere if and only if this line ends with one. -/
theorem builtFrom_iff (h : t.readDescription src text = .ok (comments, t'))
    (hs : (t'.body r).statements = (t.body r).statements ++ xs ++ s :: ys)
    (hn : s.action.target? = some n) :
    ∃ before rest, lines text = before ++ rest ∧ s.line = lineNumber (1 + before.length) ∧
      (∃ l ∈ rest, endsWithTerminator l = true) ∧
      BuiltFrom src t before (upTo endsWithTerminator rest) r ((t.body r).statements ++ xs) s ∧
      (BuiltFrom src t before (upTo hasTerminator rest) r ((t.body r).statements ++ xs) s ↔
        (upTo hasTerminator rest).getLast?.any endsWithTerminator = true) := by
  obtain ⟨rd, hrun, rfl⟩ := exists_run_of_readDescription h
  obtain ⟨before, rest, hlines, hends, hbuilt⟩ := exists_builtFrom hrun hs hn
  refine ⟨before, rest, hlines, hbuilt.line_eq, hends, hbuilt, ?_⟩
  rw [← upTo_eq_iff (fun l ↦ hasTerminator_of_ends) hends]
  constructor
  · intro hbuilt'
    exact hbuilt'.unique hbuilt (upTo_isPrefix _ _) (upTo_isPrefix _ _)
  · intro heq
    rwa [heq]

/-- A description in which a comment follows the terminator of an assignment. -/
def notedText : Text :=
  unlines <| List.map String.toList [
    "decode() \x7b",
    "    float t;",
    "    t = (f_dt);",
    "    accumulator += t; # scored",
    "    t = N;",
    "\x7d"]

/-- The file of `notedText`. -/
def notedSource : Source :=
  ⟨"noted.metric".toList, "noted".toList⟩

/-- What the statements of `notedText` are read as, their texts apart, and that all names are
words. -/
theorem reading_of_notedText :
    (withBuiltins.readDescription notedSource notedText).toOption.map
      (fun p ↦ (p.2.decode.statements.map fun s ↦ (s.line, s.level, s.action),
        p.2.decode.quantities.names.all fun n ↦ TokenClass.ofRun n == .word)) =
      some ([
        (3, .perTerm, .assignment ['t'] ['='] ["f_dt".toList]),
        (4, .perTerm, .assignment "accumulator".toList ['+', '='] [['t'], ['t'], ['N']])],
        true) := by
  decide +kernel

theorem exists_tables_of_notedText : ∃ comments t s s',
    withBuiltins.readDescription notedSource notedText = .ok (comments, t) ∧
      (t.body .decode).statements = [s, s'] ∧ s.line = 3 ∧ s.level = .perTerm ∧
      s.action = .assignment ['t'] ['='] ["f_dt".toList] ∧ s'.line = 4 ∧
      s'.action.target? = some "accumulator".toList := by
  obtain ⟨⟨comments, t⟩, hread, hfacts⟩ := exists_of_toOption_map reading_of_notedText
  obtain ⟨hmap, -⟩ := Prod.mk.inj hfacts
  obtain ⟨s, ss, hss, hs, hrest⟩ := List.map_eq_cons_iff.1 hmap
  obtain ⟨s', ss', rfl, hs', hnil⟩ := List.map_eq_cons_iff.1 hrest
  obtain rfl := List.map_eq_nil_iff.1 hnil
  obtain ⟨hline, hlevel, haction⟩ := by simpa using hs
  obtain ⟨hline', -, haction'⟩ := by simpa using hs'
  exact ⟨comments, t, s, s', hread, hss, hline, hlevel, haction, hline', by rw [haction']; rfl⟩

/-- Every name that `notedText` declares, or that comes with the library, is a word. -/
theorem ofRun_of_notedText {comments : List Text} {t : Tables} {m : Name}
    (h : withBuiltins.readDescription notedSource notedText = .ok (comments, t))
    (hm : (t.body .decode).quantities.contains m = true) : TokenClass.ofRun m = .word := by
  obtain ⟨⟨comments', t'⟩, hread, hfacts⟩ := exists_of_toOption_map reading_of_notedText
  obtain ⟨-, hwords⟩ := Prod.mk.inj hfacts
  obtain ⟨-, rfl⟩ := Prod.mk.inj (Except.ok.inj (h.symm.trans hread))
  obtain ⟨q, hq⟩ := Option.isSome_iff_exists.1 hm
  have hmem : m ∈ t.decode.quantities.names :=
    List.mem_map.2 ⟨q, NameIndex.mem_of_get? hq, NameIndex.name_of_get? hq⟩
  exact beq_iff_eq.1 (List.all_eq_true.1 hwords m hmem)

/-- The lines of `notedText` are few. -/
theorem line_eq_of_notedText {before rest : List Text} (h : lines notedText = before ++ rest)
    (hrest : rest ≠ []) : lineNumber (1 + before.length) = 1 + before.length :=
  FitsNumbers.lineNumber_behind (h ▸ by decide +kernel) hrest

theorem builtFrom_iff_notedText : ∃ comments t s xs,
    withBuiltins.readDescription notedSource notedText = .ok (comments, t) ∧
      s ∈ (t.body .decode).statements ∧ s.action.target? = some "accumulator".toList ∧
      BuiltFrom notedSource withBuiltins ((lines notedText).take 3)
        ["    accumulator += t; # scored".toList, "    t = N;".toList] .decode xs s := by
  obtain ⟨comments, t, s, s', hread, hstatements, -, -, -, hline, htarget⟩ :=
    exists_tables_of_notedText
  have hs : (t.body .decode).statements =
      (withBuiltins.body .decode).statements ++ [s] ++ s' :: [] := by
    rw [hstatements, withBuiltins_statements]
    rfl
  obtain ⟨before, rest, hlines, hbefore, ⟨l, hl, -⟩, hbuilt, -⟩ := builtFrom_iff hread hs htarget
  have hnumber := line_eq_of_notedText hlines (List.ne_nil_of_mem hl)
  have hlength : before.length = 3 := by omega
  have htake : (lines notedText).take 3 = before := by rw [hlines, ← hlength, List.take_left]
  have hdrop : (lines notedText).drop 3 = rest := by rw [hlines, ← hlength, List.drop_left]
  have hupTo : upTo endsWithTerminator ((lines notedText).drop 3) =
      ["    accumulator += t; # scored".toList, "    t = N;".toList] := by decide +kernel
  rw [hdrop] at hupTo
  exact ⟨comments, t, s', _, hread, by simp [hstatements], htarget, by
    rw [htake, ← hupTo]
    exact hbuilt⟩

/-- **A comment behind its terminator lets an assignment run on.** It takes in the next assignment,
although the terminator has come. -/
theorem exists_terminator_passed : ∃ comments t s s' before rest,
    withBuiltins.readDescription notedSource notedText = .ok (comments, t) ∧
      (t.body .decode).statements = [s, s'] ∧ s'.action.target? = some "accumulator".toList ∧
      lines notedText = before ++ rest ∧ s'.line = 1 + before.length ∧
      (∃ l ∈ rest, hasTerminator l = true) ∧
      ¬ BuiltFrom notedSource withBuiltins before (upTo hasTerminator rest) .decode [s] s' := by
  obtain ⟨comments, t, s, s', hread, hstatements, -, -, -, hline, htarget⟩ :=
    exists_tables_of_notedText
  obtain ⟨rd, hrun, rfl⟩ := exists_run_of_readDescription hread
  have hs : (rd.tables.body .decode).statements =
      (withBuiltins.body .decode).statements ++ [s] ++ s' :: [] := by
    rw [hstatements, withBuiltins_statements]
    rfl
  obtain ⟨before, rest, hlines, ⟨l, hl, hends⟩, hbuilt⟩ := exists_builtFrom hrun hs htarget
  have hbefore := hbuilt.line_eq.trans (line_eq_of_notedText hlines (List.ne_nil_of_mem hl))
  refine ⟨comments, rd.tables, s, s', before, rest, hread, hstatements, htarget, hlines,
    hbefore, ⟨l, hl, hasTerminator_of_ends hends⟩, fun hclaim ↦ ?_⟩
  rw [withBuiltins_statements, List.nil_append] at hbuilt
  have heq := hclaim.unique hbuilt (upTo_isPrefix _ _) (upTo_isPrefix _ _)
  have hlength : before.length = 3 := by omega
  have hdrop : (lines notedText).drop 3 = rest := by rw [hlines, ← hlength, List.drop_left]
  rw [← hdrop] at heq
  revert heq
  decide +kernel

end Tables

end RankMetric
