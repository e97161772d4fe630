import RankMetric.Metric
import RankMetric.Proofs.PropagationLevels
import RankMetric.Proofs.ReaderRun

/-!
# From a description to its metric

Compilation is a run of the reader from the tables of the built-ins, after which levels are raised
and used sets are closed. This module says once what the later steps leave alone, so that a fact on
what was read can be carried over to the metric.

* `readLines_eq_ok_iff`, `readDescription_of_compile`: a metric that was compiled is
  `Metric.ofTables` of what a run of the reader over all lines has reached. Each body has gone
  through a history by then (`history_of_readDescription`).
* `body_ofTables_quantities`, `body_ofTables_statements`, `contains_used_ofTables`: the quantities
  are those that were read, the statements are those that were read after propagation, and no name
  that was used is lost.
* `withBuiltins_statements`: the built-ins bring no statements. It is an invariant of declaring, so
  it needs no look at the built-ins.
-/

namespace RankMetric

open Relation

/-! ### The tables of the built-ins -/

namespace Tables

variable {t t' : Tables} {src : Source} {r : Routine}

/-- Declaring a quantity adds no statement. -/
theorem statements_declare {file raw : Text} {targets : List Scope} {line : Int} {level : Level}
    {attributes : Name → Attributes} {name : Name}
    (h : t.declare file targets raw line level attributes = .ok (name, t')) :
    (t'.body r).statements = (t.body r).statements := by
  obtain ⟨q, ns, -, -, hbody⟩ := body_declare h
  rw [(hbody r).1]
  split <;> rfl

theorem declare_of_declareBuiltin {file : Text} {b : Builtin}
    (h : t.declareBuiltin file b = .ok t') :
    ∃ name, t.declare file b.scopes b.declaration builtinLine b.level (fun _ ↦ b.attributes) =
      .ok (name, t') := by
  unfold declareBuiltin at h
  split at h
  · next name t'' hdeclare =>
    obtain rfl := Except.ok.inj h
    exact ⟨name, hdeclare⟩
  · cases h

theorem tables_of_declareBuiltin {file : Text} {b : Builtin} {e : Halted}
    (h : t.declareBuiltin file b = .error e) : e.tables = t := by
  unfold declareBuiltin at h
  split at h
  · cases h
  · obtain rfl := Except.error.inj h
    rfl

/-- What every declaration of a built-in keeps holds of the tables reached, whether all of them can
be declared or not. -/
theorem of_reached_foldlM {P : Tables → Prop} {file : Text} {bs : List Builtin}
    (hstep : ∀ b ∈ bs, ∀ t t', P t → t.declareBuiltin file b = .ok t' → P t') (ht : P t) :
    P (reached (bs.foldlM (fun t b ↦ t.declareBuiltin file b) t)) := by
  induction bs generalizing t with
  | nil => exact ht
  | cons b bs ih =>
    obtain ⟨hb, hbs⟩ := List.forall_mem_cons.1 hstep
    rw [List.foldlM_cons]
    cases hdeclare : t.declareBuiltin file b with
    | ok t' => exact ih hbs (hb t t' ht hdeclare)
    | error e =>
      show P e.tables
      rw [tables_of_declareBuiltin hdeclare]
      exact ht

/-- The built-ins bring no statements. -/
theorem withBuiltins_statements (r : Routine) : (withBuiltins.body r).statements = [] := by
  have hempty : (empty.body r).statements = [] := by cases r <;> rfl
  refine of_reached_foldlM (P := fun t ↦ (t.body r).statements = []) ?_ hempty
  intro b _ t t' ht hdeclare
  obtain ⟨name, hdeclare⟩ := declare_of_declareBuiltin hdeclare
  exact (statements_declare hdeclare).trans ht

/-! ### Reading -/

/-- When lines can be read as a description, and what is read then. -/
theorem readLines_eq_ok_iff {ls : List Text} {comments : List Text} :
    t.readLines src ls = .ok (comments, t') ↔
      ∃ rd, ({ tables := t } : Reader).run src 1 ls = .ok rd ∧
        rd.place = .outside ∧ Reader.trimComments rd.comments = comments ∧ rd.tables = t' := by
  constructor
  · intro h
    obtain ⟨rd, hrun, hend⟩ := exists_of_bind_eq_ok h
    obtain ⟨rd', hfinish, hresult⟩ := exists_of_bind_eq_ok hend
    obtain ⟨hplace, rfl⟩ := Reader.finish_eq_ok_iff.1 hfinish
    obtain ⟨hcomments, htables⟩ := Prod.mk.inj (Except.ok.inj hresult)
    exact ⟨rd, hrun, hplace, hcomments, htables⟩
  · rintro ⟨rd, hrun, hplace, rfl, rfl⟩
    rw [readLines, hrun]
    show ((rd.finish src ls.length).bind _) = _
    rw [Reader.finish_eq_ok_iff.2 ⟨hplace, rfl⟩]
    rfl

/-- When lines cannot be read as a description. -/
theorem readLines_eq_error_iff {ls : List Text} {h : Halted} :
    t.readLines src ls = .error h ↔
      ({ tables := t } : Reader).run src 1 ls = .error h ∨
        ∃ rd, ({ tables := t } : Reader).run src 1 ls = .ok rd ∧
          rd.finish src ls.length = .error h := by
  rw [readLines]
  cases ({ tables := t } : Reader).run src 1 ls with
  | error h₁ =>
    show Except.error h₁ = Except.error h ↔ _
    simp
  | ok rd =>
    show ((rd.finish src ls.length).bind _) = _ ↔ _
    cases hfinish : rd.finish src ls.length with
    | error h₁ =>
      show Except.error h₁ = Except.error h ↔ _
      simp [hfinish]
    | ok rd' =>
      show Except.ok _ = Except.error h ↔ _
      simp [hfinish]

/-- A description that can be read is a run of the reader over all its lines. -/
theorem exists_run_of_readDescription {text : Text} {comments : List Text}
    (h : t.readDescription src text = .ok (comments, t')) :
    ∃ rd, ({ tables := t } : Reader).run src 1 (Text.lines text) = .ok rd ∧ rd.tables = t' := by
  obtain ⟨rd, hrun, -, -, htables⟩ := readLines_eq_ok_iff.1 h
  exact ⟨rd, hrun, htables⟩

/-- **Reading a description takes each body through a history.** -/
theorem history_of_readDescription {text : Text} {comments : List Text}
    (h : t.readDescription src text = .ok (comments, t')) (r : Routine) :
    ReflTransGen Body.Change (t.body r) (t'.body r) := by
  obtain ⟨rd, hrun, rfl⟩ := exists_run_of_readDescription h
  exact (Reader.history_of_run (Reader.coherent_top t) hrun).2 r

end Tables

/-- What a statement reads does not depend on its level. -/
theorem Statement.Lifts.operandTokens_eq {s s' : Statement} (h : s.Lifts s') :
    s'.operandTokens = s.operandTokens := by
  obtain ⟨l, rfl⟩ := h
  rfl

/-! ### The used sets -/

namespace Body

/-- Going round adds names and takes none away. -/
theorem contains_closeRounds (r : Routine) (qs : Quantities) (k : Nat) {u : NameSet} {n : Name}
    (h : u.contains n = true) : (closeRounds r qs k u).contains n = true := by
  induction k generalizing u with
  | zero => exact h
  | succ k ih =>
    refine ih ?_
    rw [NameSet.contains_insertAll, h, Bool.or_true]

end Body

/-! ### The metric -/

namespace Metric

variable {src : Source} {p : Propagation} {text : Text} {m : Metric}

theorem readDescription_of_compile (h : compile src p text = .ok m) :
    ∃ comments t, Tables.withBuiltins.readDescription src text = .ok (comments, t) ∧
      m = ofTables src p comments t := by
  unfold compile at h
  split at h
  · cases h
  · next comments t hread => exact ⟨comments, t, hread, (Except.ok.inj h).symm⟩

variable {comments : List Text} {t : Tables} {r : Routine}

@[simp] theorem body_ofTables_quantities :
    ((ofTables src p comments t).body r).quantities = (t.body r).quantities := by
  cases r <;> rfl

@[simp] theorem body_ofTables_statements :
    ((ofTables src p comments t).body r).statements = p.apply (t.body r).statements := by
  cases r <;> rfl

theorem contains_used_ofTables {n : Name} (h : (t.body r).used.contains n = true) :
    ((ofTables src p comments t).body r).used.contains n = true := by
  cases r <;> exact Body.contains_closeRounds _ _ _ h

/-- **A compiled metric comes from a run of the reader**, whose bodies it has: the same quantities,
the statements after propagation, and no fewer names used. -/
theorem exists_run_of_compile (h : compile src p text = .ok m) :
    ∃ rd, ({ tables := Tables.withBuiltins } : Reader).run src 1 (Text.lines text) = .ok rd ∧
      ∀ r, (m.body r).quantities = (rd.tables.body r).quantities ∧
        (m.body r).statements = p.apply (rd.tables.body r).statements ∧
        ∀ n, (rd.tables.body r).used.contains n = true → (m.body r).used.contains n = true := by
  obtain ⟨comments, t, hread, rfl⟩ := readDescription_of_compile h
  obtain ⟨rd, hrun, rfl⟩ := Tables.exists_run_of_readDescription hread
  exact ⟨rd, hrun, fun r ↦
    ⟨body_ofTables_quantities, body_ofTables_statements, fun n ↦ contains_used_ofTables⟩⟩

end Metric

/-! ### Three descriptions -/

/-- A description in which a term decides whether `t` is set. -/
def gatedText : Text :=
  Text.unlines <| List.map String.toList [
    "decode() \x7b",
    "    float t;",
    "    if (f_dt > 1) \x7b",
    "        t = D_terms + N;",
    "    \x7d",
    "    # t is set",
    "    accumulator += t;",
    "\x7d"]

/-- The file of `gatedText`. -/
def gatedSource : Source :=
  ⟨"gated.metric".toList, "gated".toList⟩

/-- The statement of `gatedText` that sets `t`. -/
def settingT : Statement :=
  ⟨4, .perDocument, "t = D_terms + N;".toList,
    .assignment ['t'] ['='] ["D_terms".toList, ['N']]⟩

/-- The statement of `gatedText` that mentions `t` in a remark. -/
def remarkOnT : Statement :=
  ⟨6, .constant, "/* t is set */".toList, .remark⟩

/-- The statement of `gatedText` that reads `t`. -/
def addingT : Statement :=
  ⟨7, .perDocument, "accumulator += t;".toList,
    .assignment "accumulator".toList ['+', '='] [['t']]⟩

/-- The statements of `gatedText` as they are read. -/
def gatedStatements : List Statement := [
  ⟨3, .perTerm, "if (f_dt > 1) \x7b".toList, .evaluation ["f_dt".toList]⟩, settingT,
  ⟨5, .constant, ['\x7d'], .evaluation []⟩, remarkOnT, addingT]

/-- A description in which `peak` is read before it is set, and then counted up. -/
def peakText : Text :=
  Text.unlines <| List.map String.toList [
    "decode() \x7b",
    "    float last;",
    "    float peak;",
    "    last = peak;",
    "    peak = f_dt;",
    "    peak += 1;",
    "    accumulator += 1;",
    "\x7d"]

/-- The file of `peakText`. -/
def peakSource : Source :=
  ⟨"peak.metric".toList, "peak".toList⟩

/-- The statement of `peakText` that reads `peak` and sets `last`. -/
def settingLast : Statement :=
  ⟨4, .perDocument, "last = peak;".toList, .assignment "last".toList ['='] ["peak".toList]⟩

/-- The statement of `peakText` that sets `peak`. -/
def settingPeak : Statement :=
  ⟨5, .perTerm, "peak = f_dt;".toList, .assignment "peak".toList ['='] ["f_dt".toList]⟩

/-- The statement of `peakText` that counts `peak` up. -/
def countingPeak : Statement :=
  ⟨6, .constant, "peak += 1;".toList, .assignment "peak".toList ['+', '='] []⟩

/-- The statement of `peakText` that counts the accumulator up. -/
def countingScore : Statement :=
  ⟨7, .constant, "accumulator += 1;".toList, .assignment "accumulator".toList ['+', '='] []⟩

/-- The statements of `peakText` as they are read. -/
def peakStatements : List Statement :=
  [settingLast, settingPeak, countingPeak, countingScore]

/-- A description with a parameter that one routine sets and both read. -/
def sharedText : Text :=
  Text.unlines <| List.map String.toList [
    "parameter float k = 1.2;",
    "decode() \x7b",
    "    float w = k * N;",
    "    k = f_dt;",
    "    accumulator += w;",
    "\x7d",
    "post() \x7b",
    "    accumulator /= k;",
    "\x7d"]

/-- The file of `sharedText`. -/
def sharedSource : Source :=
  ⟨"shared.metric".toList, "shared".toList⟩

/-- What the descriptions are read as. They are evaluated together, since the built-ins make up most
of the evaluation of each. -/
theorem reading_of_descriptions :
    ((Tables.withBuiltins.readDescription gatedSource gatedText).toOption.map
        (fun p ↦ p.2.decode.statements) = some gatedStatements ∧
      (Tables.withBuiltins.readDescription sharedSource sharedText).toOption.map
        (fun p ↦ (p.2.params.contains ['k'], p.2.decode.levelOf ['k'], p.2.post.levelOf ['k'],
          p.2.decode.used.contains ['N'])) =
        some (true, some .perTerm, some .constant, true) ∧
      ∀ r ∈ [Routine.decode, .post], (Tables.withBuiltins.body r).used = .empty) ∧
      (Tables.withBuiltins.readDescription peakSource peakText).toOption.map
        (fun p ↦ (p.2.decode.statements, p.2.decode.levelOf "last".toList,
          p.2.decode.levelOf "peak".toList)) =
        some (peakStatements, some .perDocument, some .perTerm) ∧
      (Tables.withBuiltins.body .decode).levelOf "accumulator".toList = some .perDocument := by
  decide +kernel

/-- Nothing is used before a description is read: no initializer of a built-in mentions another. -/
theorem Tables.withBuiltins_used (r : Routine) : (withBuiltins.body r).used = .empty :=
  reading_of_descriptions.1.2.2 r (by cases r <;> simp)

/-- A result without what went wrong is a value if and only if the result is. -/
theorem toOption_eq_some_iff {ε α : Type} {x : Except ε α} {a : α} :
    x.toOption = some a ↔ x = .ok a := by
  cases x <;> simp [Except.toOption]

/-- A result that can be mapped to a value is a success. -/
theorem exists_of_toOption_map {ε α β : Type} {x : Except ε α} {f : α → β} {b : β}
    (h : x.toOption.map f = some b) : ∃ a, x = .ok a ∧ f a = b := by
  obtain ⟨a, ha, hb⟩ := Option.map_eq_some_iff.1 h
  exact ⟨a, toOption_eq_some_iff.1 ha, hb⟩

theorem exists_tables_of_gatedText : ∃ comments t,
    Tables.withBuiltins.readDescription gatedSource gatedText = .ok (comments, t) ∧
      (t.body .decode).statements = gatedStatements := by
  obtain ⟨⟨comments, t⟩, hread, hstatements⟩ := exists_of_toOption_map reading_of_descriptions.1.1
  exact ⟨comments, t, hread, hstatements⟩

theorem exists_tables_of_peakText : ∃ comments t,
    Tables.withBuiltins.readDescription peakSource peakText = .ok (comments, t) ∧
      (t.body .decode).statements = peakStatements ∧
      (t.body .decode).levelOf "last".toList = some .perDocument ∧
      (t.body .decode).levelOf "peak".toList = some .perTerm := by
  obtain ⟨⟨comments, t⟩, hread, hfacts⟩ := exists_of_toOption_map reading_of_descriptions.2.1
  obtain ⟨hstatements, hlevels⟩ := Prod.mk.inj hfacts
  obtain ⟨hlast, hpeak⟩ := Prod.mk.inj hlevels
  exact ⟨comments, t, hread, hstatements, hlast, hpeak⟩

theorem exists_tables_of_sharedText : ∃ comments t,
    Tables.withBuiltins.readDescription sharedSource sharedText = .ok (comments, t) ∧
      t.params.contains ['k'] = true ∧
      (t.body .decode).levelOf ['k'] = some .perTerm ∧
      (t.body .post).levelOf ['k'] = some .constant ∧
      (t.body .decode).used.contains ['N'] = true := by
  obtain ⟨⟨comments, t⟩, hread, hfacts⟩ := exists_of_toOption_map reading_of_descriptions.1.2.1
  obtain ⟨hparams, hfacts⟩ := Prod.mk.inj hfacts
  obtain ⟨hdecode, hfacts⟩ := Prod.mk.inj hfacts
  obtain ⟨hpost, hused⟩ := Prod.mk.inj hfacts
  exact ⟨comments, t, hread, hparams, hdecode, hpost, hused⟩

/-- A description that can be read can be compiled. -/
theorem exists_compile_of_read {src : Source} {text : Text} {comments : List Text} {t : Tables}
    (p : Propagation) (h : Tables.withBuiltins.readDescription src text = .ok (comments, t)) :
    ∃ m, Metric.compile src p text = .ok m ∧
      ∀ r, (m.body r).statements = p.apply (t.body r).statements := by
  refine ⟨Metric.ofTables src p comments t, ?_, fun r ↦ Metric.body_ofTables_statements⟩
  rw [Metric.compile, h]

theorem exists_compile_of_gatedText (p : Propagation) : ∃ m,
    Metric.compile gatedSource p gatedText = .ok m ∧
      (m.body .decode).statements = p.apply gatedStatements := by
  obtain ⟨comments, t, hread, hstatements⟩ := exists_tables_of_gatedText
  obtain ⟨m, hm, hbody⟩ := exists_compile_of_read p hread
  exact ⟨m, hm, hstatements ▸ hbody .decode⟩

theorem exists_compile_of_peakText (p : Propagation) : ∃ m,
    Metric.compile peakSource p peakText = .ok m ∧
      (m.body .decode).statements = p.apply peakStatements := by
  obtain ⟨comments, t, hread, hstatements, -, -⟩ := exists_tables_of_peakText
  obtain ⟨m, hm, hbody⟩ := exists_compile_of_read p hread
  exact ⟨m, hm, hstatements ▸ hbody .decode⟩

end RankMetric
