import RankMetric.Proofs.DescriptionLines
import RankMetric.Proofs.TargetLevels

/-!
# Reading an accumulator

An accumulator can be written and never read, and a statement that reads one cannot be read itself.
A declaration is another matter. Its initializer is run too, and it may mention what its targets
have declared (`Tables.Mentions`), but levels are not asked for there. So an accumulator can be read
after all.

* `Tables.isAccumulator_iff_of_run`: no line makes an accumulator or takes one away, so it does not
  matter at which moment one asks.
* `Reader.ReadFrom.not_isAccumulator`: no statement reads one, on whichever of its lines.
* `Tables.accumulator_operand_iff`: an accumulator is an operand of a description that can be read
  if and only if an accepted initializer mentions it.
* `Tables.exists_accumulator_operand`: one that does.
-/

namespace RankMetric

/-! ### Accumulators stay what they are -/

theorem Level.le_accumulator (l : Level) : l ≤ .accumulator := by
  cases l <;> decide

/-- No statement that was read has the level of an accumulator. -/
theorem Body.Reads.level_ne_accumulator {b : Body} {s : Statement} (h : b.Reads s) :
    s.level ≠ .accumulator := by
  intro hlevel
  rcases h.le_level_iff.1 hlevel.ge with hconstant | ⟨n, hn, q, hq, hle⟩
  · cases hconstant
  · have hqlevel : q.level = .accumulator := le_antisymm q.level.le_accumulator hle
    obtain rfl := NameIndex.name_of_get? hq
    have hreadable := h.readable q (Quantities.mem_namedBy.2 ⟨hn, hq⟩)
    rw [hqlevel] at hreadable
    cases hreadable

namespace Tables

/-- Whether a name stands for an accumulator in a scope. -/
def IsAccumulator (t : Tables) (s : Scope) (n : Name) : Prop :=
  ∃ q, (t.quantities s).get? n = some q ∧ q.level = .accumulator

variable {t t' : Tables} {s : Scope} {n : Name}

/-- A declaration at a lower level makes no accumulator, and it takes the place of none. -/
theorem isAccumulator_iff_of_declare {file raw : Text} {targets : List Scope} {line : Int}
    {level : Level} {attributes : Name → Attributes} {name : Name}
    (h : t.declare file targets raw line level attributes = .ok (name, t'))
    (hlevel : level ≠ .accumulator) : t'.IsAccumulator s n ↔ t.IsAccumulator s n := by
  obtain ⟨q, rfl, hunknown, hget⟩ := exists_get?_of_declare h
  rw [IsAccumulator, IsAccumulator, hget]
  split
  · next hdeclared =>
    obtain ⟨hs, rfl⟩ := hdeclared
    rw [hunknown s hs]
    simp [hlevel]
  · exact Iff.rfl

/-- A statement raises its target below the level of accumulators. -/
theorem isAccumulator_iff_of_record {r : Routine} {u : Statement} (h : (t.body r).Reads u) :
    (t.setBody r ((t.body r).record u)).IsAccumulator s n ↔ t.IsAccumulator s n := by
  have hraise : ∀ q : Quantity,
      (q.raise u.level).level = .accumulator ↔ q.level = .accumulator := by
    intro q
    rw [Quantity.raise_level]
    rcases le_total q.level u.level with hle | hle
    · rw [max_eq_right hle]
      refine ⟨fun hu ↦ absurd hu h.level_ne_accumulator, fun hq ↦ ?_⟩
      rw [hq] at hle
      exact le_antisymm u.level.le_accumulator hle
    · rw [max_eq_left hle]
  cases s with
  | params => rw [IsAccumulator, IsAccumulator, quantities, quantities, params_setBody]
  | routine r' =>
    by_cases hr : r' = r
    · subst hr
      rw [IsAccumulator, IsAccumulator, quantities, quantities, body_setBody_self, Body.get?_record]
      split
      · simp only [Option.map_eq_some_iff]
        constructor
        · rintro ⟨_, ⟨q, hq, rfl⟩, hlevel⟩
          exact ⟨q, hq, (hraise q).1 hlevel⟩
        · rintro ⟨q, hq, hlevel⟩
          exact ⟨_, ⟨q, hq, rfl⟩, (hraise q).2 hlevel⟩
      · exact Iff.rfl
    · rw [IsAccumulator, IsAccumulator, quantities, quantities, body_setBody_ne _ hr]

/-- **Whether a line can be declared depends on no level**: only names are looked up. -/
theorem exists_declare_of_contains_eq {u : Tables} {file raw : Text} {targets : List Scope}
    {line : Int} {level : Level} {attributes : Name → Attributes} {name : Name}
    (h : t.declare file targets raw line level attributes = .ok (name, t'))
    (hu : ∀ s m, (u.quantities s).contains m = (t.quantities s).contains m) :
    ∃ u', u.declare file targets raw line level attributes = .ok (name, u') := by
  obtain ⟨d, hread, hunknown, hterminated, hname, -⟩ := declare_eq_ok_iff.1 h
  have hunknown' : u.knows targets d.name = false := by
    rw [knows_eq_false_iff] at hunknown ⊢
    exact fun s hs ↦ (hu s d.name).trans (hunknown s hs)
  exact ⟨_, declare_eq_ok_iff.2 ⟨d, hread, hunknown', hterminated, hname, rfl⟩⟩

open Reader

variable {src : Source} {lines : List Text} {rd : Reader}

/-- **No lines make an accumulator or take one away.** -/
theorem isAccumulator_iff_of_run (h : ({ tables := t } : Reader).run src 1 lines = .ok rd) :
    rd.tables.IsAccumulator s n ↔ t.IsAccumulator s n := by
  refine of_run (P := fun _ rd ↦ rd.tables.IsAccumulator s n ↔ t.IsAccumulator s n) h Iff.rfl ?_
  intro lines line rd rd' _ ih heffect
  rw [← ih]
  cases heffect with
  | unchanged tables => rw [tables]
  | declared accepts =>
    refine isAccumulator_iff_of_declare accepts.declare_eq fun hlevel ↦ ?_
    exact absurd (hlevel ▸ accepts.declares.level_le) (by decide)
  | read reads tables =>
    rw [tables]
    exact isAccumulator_iff_of_record reads

end Tables

/-! ### Operands -/

namespace Reader

open Tables

variable {src : Source} {t : Tables} {lines : List Text} {r : Routine} {xs : List Statement}
  {u : Statement} {b : Body} {n : Name}

/-- **No statement reads an accumulator.** Its operand tokens are those of its whole text, so it
does not matter on which of its lines they stand. -/
theorem ReadFrom.not_isAccumulator (h : ReadFrom src t 1 lines r xs u b)
    (hn : n ∈ u.operandTokens) : ¬ t.IsAccumulator (.routine r) n := by
  rintro ⟨q, hq, hlevel⟩
  obtain ⟨b₁, hhistory, -, hreads, -⟩ := h.exists_body
  obtain ⟨ss, -, hget⟩ := Body.get?_of_history hhistory
  have hle : q.level ≤ u.level := (le_max_left _ _).trans (hreads.level_le hn (hget n q hq))
  rw [hlevel] at hle
  exact hreads.level_ne_accumulator (le_antisymm u.level.le_accumulator hle)

/-- An accepted declaration with scope `s` among its targets has `n` in its initializer. -/
def InitializerReads (src : Source) (t : Tables) (lines : List Text) (s : Scope) (n : Name) :
    Prop :=
  ∃ k rd D name t', Accepted src t lines k rd D name t' ∧ s ∈ D.targets ∧ Mentions D.raw n

/-- **The operands of a description** that was read into the tables `t` and led to `t'`, each with a
scope in which it is looked up. -/
inductive Operand (src : Source) (t : Tables) (lines : List Text) (t' : Tables) (n : Name) :
    Scope → Prop
  /-- An operand of a statement that was added, on whichever of its lines. -/
  | ofStatement {r : Routine} {xs ys : List Statement} {u : Statement}
      (added : (t'.body r).statements = (t.body r).statements ++ xs ++ u :: ys)
      (mem : n ∈ u.operandTokens) :
    Operand src t lines t' n (.routine r)
  /-- A word in the initializer of a declaration that was accepted. -/
  | ofInitializer {s : Scope} (reads : InitializerReads src t lines s n) :
    Operand src t lines t' n s

end Reader

namespace Tables

open Reader

variable {src : Source} {text : Text} {comments : List Text} {t t' : Tables}

/-- **An accumulator is read by initializers only.** What is an accumulator when a description
begins is one throughout, and nothing else is. It is an operand of the description if and only if an
accepted declaration has it in its initializer. There nothing keeps it out: the declaration is
accepted whatever levels the declared names have. -/
theorem accumulator_operand_iff (h : t.readDescription src text = .ok (comments, t')) :
    (∀ k rd, ({ tables := t } : Reader).run src 1 ((Text.lines text).take k) = .ok rd →
      ∀ s n, rd.tables.IsAccumulator s n ↔ t.IsAccumulator s n) ∧
    (∀ s n, t.IsAccumulator s n →
      (Operand src t (Text.lines text) t' n s ↔
        InitializerReads src t (Text.lines text) s n)) ∧
    ∀ k rd D name t₁, Accepted src t (Text.lines text) k rd D name t₁ → ∀ u : Tables,
      (∀ s m, (u.quantities s).contains m = (rd.tables.quantities s).contains m) →
      ∃ u₁, u.declare src.file D.targets D.raw (lineNumber (1 + k)) D.level D.attributes =
        .ok (name, u₁) := by
  refine ⟨fun k rd hrun s n ↦ isAccumulator_iff_of_run hrun,
    fun s n hacc ↦ ⟨fun hoperand ↦ ?_, .ofInitializer⟩, fun k rd D name t₁ haccepted u hu ↦ ?_⟩
  · cases hoperand with
    | ofStatement added mem =>
      exact absurd hacc ((readFrom_of_readDescription h added).not_isAccumulator mem)
    | ofInitializer reads => exact reads
  · obtain ⟨line, -, haccepts⟩ := haccepted.line
    exact exists_declare_of_contains_eq haccepts.declare_eq hu

/-! ### An accumulator that is read -/

/-- The name of an accumulator. -/
def totalName : Name :=
  "total".toList

/-- Tables with one accumulator, in `post`. -/
def totalTables : Tables :=
  empty.after <|
    .declare [] [.routine .post] "float total;".toList builtinLine .accumulator fun _ ↦ {}

/-- A declaration with an initializer that reads the accumulator. -/
def doublingLine : Text :=
  "    float s = total * 2;".toList

/-- A description with this declaration. -/
def totalText : Text :=
  Text.unlines ["post() \x7b".toList, doublingLine, ['}']]

/-- The file of `totalText`. -/
def totalSource : Source :=
  ⟨"t.metric".toList, ['t']⟩

theorem isAccumulator_totalName : totalTables.IsAccumulator (.routine .post) totalName := by
  have hlevel : (totalTables.body .post).levelOf totalName = some .accumulator := by decide +kernel
  exact Body.levelOf_eq_some_iff.1 hlevel

theorem exists_read_totalText : ∃ comments t',
    totalTables.readDescription totalSource totalText = .ok (comments, t') := by
  have hread : (totalTables.readDescription totalSource totalText).toOption.map (fun _ ↦ ()) =
      some () := by
    decide +kernel
  obtain ⟨⟨comments, t'⟩, hread, -⟩ := exists_of_toOption_map hread
  exact ⟨comments, t', hread⟩

/-- The reader before the declaration of `totalText`. -/
def totalReader : Reader where
  tables := totalTables
  place := .declarations .post

theorem lines_totalText : Text.lines totalText = ["post() \x7b".toList, doublingLine, ['}']] := by
  decide +kernel

theorem run_totalText : ({ tables := totalTables } : Reader).run totalSource 1
    ((Text.lines totalText).take 1) = .ok totalReader := by
  have hheader : OuterLine.ofText "post() \x7b".toList = .header .post := by decide +kernel
  rw [lines_totalText]
  simp only [List.take_succ_cons, List.take_zero, Reader.run, Reader.step, Reader.stepOuter,
    hheader]
  rfl

theorem exists_accepts_doublingLine : ∃ name t', totalReader.Accepts totalSource (1 + 1)
    doublingLine (.ofRoutine .post doublingLine) name t' := by
  have hdeclare : (totalReader.tables.declare totalSource.file
      (Declaring.ofRoutine .post doublingLine).targets doublingLine (lineNumber (1 + 1))
      (Declaring.ofRoutine .post doublingLine).level
      (Declaring.ofRoutine .post doublingLine).attributes).toOption.map Prod.fst = some ['s'] := by
    decide +kernel
  obtain ⟨⟨name, t'⟩, hdeclare, -⟩ := exists_of_toOption_map hdeclare
  exact ⟨name, t', .ofRoutine rfl (by decide +kernel) (by decide +kernel), hdeclare⟩

theorem mentions_doublingLine : Mentions doublingLine totalName := by
  have hread : (DeclarationLine.read doublingLine).toOption.map DeclarationLine.mentions =
      some [totalName, ['2']] := by
    decide +kernel
  obtain ⟨d, hread, hmentions⟩ := exists_of_toOption_map hread
  rw [← mem_mentions_iff hread, hmentions]
  exact List.mem_cons_self

/-- The declaration of `totalText` is accepted, with the accumulator in its initializer. -/
theorem initializerReads_totalText : InitializerReads totalSource totalTables
    (Text.lines totalText) (.routine .post) totalName := by
  obtain ⟨name, t', haccepts⟩ := exists_accepts_doublingLine
  have hline : (Text.lines totalText)[1]? = some doublingLine := by rw [lines_totalText]; rfl
  exact ⟨1, totalReader, _, name, t', ⟨run_totalText, doublingLine, hline, haccepts⟩,
    List.mem_cons_self, mentions_doublingLine⟩

theorem accumulator_operand_iff_totalText : ∃ comments t',
    totalTables.readDescription totalSource totalText = .ok (comments, t') ∧
      Operand totalSource totalTables (Text.lines totalText) t' totalName (.routine .post) := by
  obtain ⟨comments, t', hread⟩ := exists_read_totalText
  obtain ⟨-, hiff, -⟩ := accumulator_operand_iff hread
  exact ⟨comments, t', hread, (hiff _ _ isAccumulator_totalName).2 initializerReads_totalText⟩

/-- **An accumulator can be read**: a description that is accepted may have one in an
initializer. -/
theorem exists_accumulator_operand : ∃ comments t',
    totalTables.readDescription totalSource totalText = .ok (comments, t') ∧
      totalTables.IsAccumulator (.routine .post) totalName ∧
      Operand totalSource totalTables (Text.lines totalText) t' totalName (.routine .post) := by
  obtain ⟨comments, t', hread⟩ := exists_read_totalText
  exact ⟨comments, t', hread, isAccumulator_totalName, .ofInitializer initializerReads_totalText⟩

end Tables

end RankMetric
