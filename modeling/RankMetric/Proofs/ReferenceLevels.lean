import RankMetric.Proofs.Compilation

/-!
# A closed form for levels

Reading a body threads levels through the stored quantities: a statement takes the levels it finds
and raises its target. This module gives the levels without the threading.

A statement runs at the highest of the levels of what it reads, and a quantity has, after some
statements, the highest of the level it had at first and the levels of the assignments to it
(`Body.levelAfter`, `Body.referenceLevel`). Both are functions of the body at the beginning and of
the statements so far. `Body.After` is the statement that a body has come out that way, and
`After.record` is its only step.

Bodies are readings of stretches of the description. A `BodyReading` splits the lines in three:
those before the first statement, those read as statements without leaving the routine, and the
rest. Two facts make the closed form one of all statements: every body reading obeys it
(`BodyReading.after_body`), and every statement is in a body reading (`BodyReading.exists_of_run`).
A routine may be opened more than once, so a description has any number of body readings of it.

* `Tables.reference_levels` puts the facts together for the tables of the built-ins.
-/

namespace RankMetric

/-! ### The closed form -/

namespace Body

/-- The level of a name after some statements were read: the highest of its level before and the
levels of the assignments to it. -/
def levelAfter (b : Body) (ss : List Statement) (n : Name) : Option Level :=
  (b.quantities.get? n).map fun q ↦ max q.level (assignedLevel n ss)

/-- The highest level of what a statement reads after some other statements. -/
def referenceLevel (b : Body) (earlier : List Statement) (s : Statement) : Level :=
  Level.join (s.operandTokens.filterMap (b.levelAfter earlier))

/-- A statement has the level that it should have after some other statements. -/
structure Levels (b : Body) (earlier : List Statement) (s : Statement) : Prop where
  /-- The tokens and the quantities declared at the beginning tell what kind of statement it is. -/
  recognised : s.Recognised b.quantities
  level_of_remark : s.action = .remark → s.level = .constant
  level_of_code : s.action ≠ .remark → s.level = b.referenceLevel earlier s

/-- **The closed form**: what has become of a body after the statements `ss`. -/
structure After (b : Body) (ss : List Statement) (b' : Body) : Prop where
  statements_eq : b'.statements = b.statements ++ ss
  /-- Each statement has its level by the statements before it. -/
  levels : ∀ earlier s later, ss = earlier ++ s :: later → b.Levels earlier s
  /-- Each quantity is raised by the assignments to it. -/
  raised : ∀ n, b'.quantities.get? n =
    (b.quantities.get? n).map (Quantity.raise (assignedLevel n ss))
  /-- A quantity that is not assigned to is what it was. -/
  unassigned : ∀ n, (∀ s ∈ ss, s.action.target? ≠ some n) →
    b'.quantities.get? n = b.quantities.get? n

variable {b b' : Body} {s : Statement} {ss : List Statement}

theorem After.refl (b : Body) : b.After [] b where
  statements_eq := by rw [List.append_nil]
  levels earlier s later h := by simp at h
  raised n := by
    cases b.quantities.get? n with
    | none => rfl
    | some q => rw [Option.map_some, assignedLevel_nil, q.raise_constant]
  unassigned _ _ := rfl

theorem After.contains (h : b.After ss b') (n : Name) :
    b'.quantities.contains n = b.quantities.contains n := by
  rw [NameIndex.contains, h.raised, Option.isSome_map]
  rfl

/-- The level that a name has is the one that the closed form gives it. -/
theorem After.level_eq (h : b.After ss b') (n : Name) :
    (b'.quantities.get? n).map Quantity.level = b.levelAfter ss n := by
  rw [h.raised, Option.map_map]
  rfl

/-- A statement that reads off a body has its level by the statements that led to the body. -/
theorem After.levels_of_reads (h : b.After ss b') (hs : b'.Reads s) : b.Levels ss s where
  recognised := by
    have hrecognised := hs.recognised
    unfold Statement.Recognised Quantities.Assigns at hrecognised ⊢
    simpa only [h.contains] using hrecognised
  level_of_remark hremark := by
    rw [hs.level_eq, Statement.operandTokens, hremark]
    rfl
  level_of_code _ := by
    rw [hs.level_eq, Quantity.joinLevels, Quantities.namedBy, List.map_filterMap, referenceLevel]
    simp only [h.level_eq]

/-- **One more statement**: the closed form is kept when a statement is read off the body. -/
theorem After.record (h : b.After ss b') (hs : b'.Reads s) : b.After (ss ++ [s]) (b'.record s) where
  statements_eq := by rw [record_statements, h.statements_eq, List.append_assoc]
  levels earlier u later hsplit := by
    rcases cases_of_concat_eq hsplit with ⟨rfl, rfl⟩ | ⟨init, hinit⟩
    · exact h.levels_of_reads hs
    · exact h.levels earlier u init hinit
  raised n := by
    rw [get?_record, h.raised, assignedLevel_append, assignedLevel_singleton]
    cases b.quantities.get? n with
    | none => simp
    | some q =>
      split
      · rw [Option.map_some, Option.map_some, Option.map_some, Quantity.raise_raise]
      · rw [max_eq_left (Level.constant_le _)]
  unassigned n hn := by
    have hs : s.action.target? ≠ some n := hn s (by simp)
    rw [get?_record, if_neg hs]
    exact h.unassigned n fun u hu ↦ hn u (List.mem_append_left _ hu)

end Body

/-! ### Body readings -/

namespace Reader

/-- Reading lines as statements of a routine: after each of them the reader is within the routine.
The first line has number `n`. -/
inductive ReadsStatements (src : Source) (r : Routine) (entry : Reader) (n : Nat) :
    List Text → Reader → Prop
  | nil : ReadsStatements src r entry n [] entry
  | concat {lines : List Text} {line : Text} {rd rd' : Reader}
      (before : ReadsStatements src r entry n lines rd)
      (step : rd.step src (n + lines.length) line = .ok rd') (within : rd'.IsWithin r) :
      ReadsStatements src r entry n (lines ++ [line]) rd'

variable {src : Source} {r : Routine} {entry exit : Reader} {n : Nat} {lines : List Text}

theorem ReadsStatements.run (h : ReadsStatements src r entry n lines exit) :
    entry.run src n lines = .ok exit := by
  induction h with
  | nil => rfl
  | concat _ step _ ih =>
    rw [run_append, ih]
    show (do (← Reader.step src _ _ _).run src _ []) = _
    rw [step]
    rfl

/-- **Lines that are read as statements lead to the closed form.** -/
theorem ReadsStatements.after (h : ReadsStatements src r entry n lines exit)
    (hentry : entry.Coherent) :
    exit.Coherent ∧ ∃ ss, (entry.tables.body r).After ss (exit.tables.body r) := by
  induction h with
  | nil => exact ⟨hentry, [], .refl _⟩
  | @concat lines line rd rd' _ step within ih =>
    obtain ⟨hcoherent, ss, hss⟩ := ih
    have heffect := effect_of_step hcoherent step
    refine ⟨heffect.coherent, ?_⟩
    cases heffect with
    | unchanged tables _ _ =>
      rw [tables]
      exact ⟨ss, hss⟩
    | declared _ _ _ place => exact absurd within (place r)
    | @read r' s _ place _ reads tables =>
      -- the statement was read where the reader is now
      obtain rfl : r' = r := by
        rcases within with hr | ⟨a, hr⟩
        · exact Place.statements.inj (place.symm.trans hr)
        · cases place.symm.trans hr
      rw [tables, Tables.body_setBody_self]
      exact ⟨ss ++ [s], hss.record reads⟩

end Reader

/-- A reading of the body of a routine: some lines of a description that are read as its statements,
up to any place in the body. It begins where the declarations end. -/
structure BodyReading (src : Source) (t : Tables) (r : Routine) (lines : List Text) where
  /-- The lines before the first statement. -/
  before : List Text
  /-- The lines of the statements. -/
  inside : List Text
  /-- All further lines. -/
  after : List Text
  /-- The reader before the first statement. -/
  entry : Reader
  /-- The reader after the lines of the statements. -/
  exit : Reader
  lines_eq : lines = before ++ inside ++ after
  run_before : ({ tables := t } : Reader).run src 1 before = .ok entry
  entry_place : entry.place = .declarations r
  run_inside : Reader.ReadsStatements src r entry (1 + before.length) inside exit

namespace BodyReading

variable {src : Source} {t : Tables} {r : Routine} {lines : List Text} {line : Text}

/-- The body before the statements. -/
def entryBody (β : BodyReading src t r lines) : Body :=
  β.entry.tables.body r

/-- The body after the statements. -/
def exitBody (β : BodyReading src t r lines) : Body :=
  β.exit.tables.body r

/-- **Every body reading obeys the closed form.** -/
theorem after_body (β : BodyReading src t r lines) : ∃ ss, β.entryBody.After ss β.exitBody :=
  (β.run_inside.after (Reader.history_of_run (Reader.coherent_top t) β.run_before).1).2

/-- A body reading is one of every description that goes on from there. -/
def append (β : BodyReading src t r lines) (ls : List Text) : BodyReading src t r (lines ++ ls) :=
  { β with
    after := β.after ++ ls
    lines_eq := (congrArg (· ++ ls) β.lines_eq).trans (List.append_assoc _ _ _) }

/-- A body reading that ends with the last line goes on over one more line of the body. -/
def concat (β : BodyReading src t r lines) (hafter : β.after = []) {line : Text} {rd : Reader}
    (step : β.exit.step src (1 + lines.length) line = .ok rd) (within : rd.IsWithin r) :
    BodyReading src t r (lines ++ [line]) :=
  have hlines : lines = β.before ++ β.inside := by
    rw [← List.append_nil (_ ++ _), ← hafter]
    exact β.lines_eq
  { β with
    inside := β.inside ++ [line]
    after := []
    exit := rd
    lines_eq := by
      rw [List.append_nil, ← List.append_assoc]
      exact congrArg (· ++ [line]) hlines
    run_inside := by
      have hlength : lines.length = β.before.length + β.inside.length := by
        simpa using congrArg List.length hlines
      rw [hlength, ← Nat.add_assoc] at step
      exact β.run_inside.concat step within }

/-- A reader in an open routine has come there by a body reading. -/
theorem exists_of_isOpen {rd : Reader} (h : ({ tables := t } : Reader).run src 1 lines = .ok rd)
    (hr : rd.IsOpen r) : ∃ β : BodyReading src t r lines, β.after = [] ∧ β.exit = rd := by
  induction lines using List.reverseRecOn generalizing rd with
  | nil =>
    obtain rfl := Except.ok.inj h
    rcases hr with hr | hr | ⟨a, hr⟩ <;> cases hr
  | append_singleton lines line ih =>
    rcases hr with hplace | hwithin
    · let β : BodyReading src t r (lines ++ [line]) :=
        { before := lines ++ [line], inside := [], after := [], entry := rd, exit := rd
          lines_eq := by simp, run_before := h, entry_place := hplace, run_inside := .nil }
      exact ⟨β, rfl, rfl⟩
    · obtain ⟨rd₁, hrun, hstep⟩ := Reader.exists_of_run_concat h
      have hcoherent := (Reader.history_of_run (Reader.coherent_top t) hrun).1
      have hopen := (Reader.effect_of_step hcoherent hstep).isOpen hwithin
      obtain ⟨β, hafter, rfl⟩ := ih hrun hopen
      exact ⟨β.concat hafter hstep hwithin, rfl, rfl⟩

/-- **Every statement is in a body reading** that ends with it, and has its level by the closed
form. -/
theorem exists_of_run {rd : Reader} {xs ys : List Statement} {s : Statement}
    (h : ({ tables := t } : Reader).run src 1 lines = .ok rd)
    (hs : (rd.tables.body r).statements = (t.body r).statements ++ xs ++ s :: ys) :
    ∃ (β : BodyReading src t r lines) (earlier : List Statement),
      (t.body r).statements ++ xs = β.entryBody.statements ++ earlier ∧
      β.exitBody.statements = (t.body r).statements ++ xs ++ [s] ∧
      β.entryBody.Levels earlier s := by
  obtain ⟨μ⟩ := Reader.nonempty_moment_of_run h hs
  -- the reading up to the line before, and then the line
  obtain ⟨β, hafter, hexit⟩ := exists_of_isOpen μ.run_before μ.isOpen
  obtain ⟨ss, hss⟩ := β.after_body
  have hreader : β.exitBody = μ.reader.tables.body r := by rw [exitBody, hexit]
  let β' := (β.concat hafter (hexit ▸ μ.step) (.inl μ.place)).append μ.after
  have hlines : lines = μ.before ++ [μ.line] ++ μ.after := by
    rw [List.append_assoc]
    exact μ.lines_eq
  have hexit' : β'.exitBody = (μ.reader.tables.body r).record s := by
    show μ.next.tables.body r = _
    rw [μ.tables_eq, Tables.body_setBody_self]
  rw [hlines]
  refine ⟨β', ss, ?_, ?_, hss.levels_of_reads (hreader ▸ μ.reads)⟩
  · calc (t.body r).statements ++ xs
        = (μ.reader.tables.body r).statements := μ.statements_eq.symm
      _ = β.exitBody.statements := by rw [hreader]
      _ = β.entryBody.statements ++ ss := hss.statements_eq
  · rw [hexit', Body.record_statements, μ.statements_eq]

/-- What a body reading has reached is only raised by what is read later. -/
theorem later_raised (β : BodyReading src t r lines) {rd : Reader}
    (h : ({ tables := t } : Reader).run src 1 lines = .ok rd) :
    ∃ later, (rd.tables.body r).statements = β.exitBody.statements ++ later ∧
      ∀ n q, β.exitBody.quantities.get? n = some q →
        (rd.tables.body r).quantities.get? n = some (q.raise (assignedLevel n later)) := by
  have hinside : ({ tables := t } : Reader).run src 1 (β.before ++ β.inside) = .ok β.exit := by
    rw [Reader.run_append, β.run_before]
    exact β.run_inside.run
  rw [β.lines_eq, Reader.run_append, hinside] at h
  have hcoherent := (Reader.history_of_run (Reader.coherent_top t) hinside).1
  exact Body.get?_of_history ((Reader.history_of_run hcoherent h).2 r)

end BodyReading

/-! ### The tables of a description -/

namespace Tables

variable {src : Source} {text : Text} {comments : List Text} {t : Tables}

/-- **Reference semantics of levels.** Every statement of a description that was read is a remark if
and only if its line was taken for one. It is in a body reading, where it has the level that the
closed form gives it. In every body reading each quantity comes out at the highest of its level on
entry and the levels of the assignments to it, and what comes later raises it in the same way. -/
theorem reference_levels (h : withBuiltins.readDescription src text = .ok (comments, t))
    (r : Routine) :
    (∀ xs s ys, (t.body r).statements = xs ++ s :: ys →
      (∃ rd line,
        Reader.StandsBefore src withBuiltins 1 (Text.lines text) r xs.length rd line ∧
          (s.action = .remark ↔ rd.TakesRemark line)) ∧
      ∃ (β : BodyReading src withBuiltins r (Text.lines text)) (earlier : List Statement),
        xs = β.entryBody.statements ++ earlier ∧ β.exitBody.statements = xs ++ [s] ∧
        β.entryBody.Levels earlier s) ∧
    ∀ β : BodyReading src withBuiltins r (Text.lines text), ∃ ss later,
      β.entryBody.After ss β.exitBody ∧
      (t.body r).statements = β.exitBody.statements ++ later ∧
      ∀ n q, β.exitBody.quantities.get? n = some q →
        (t.body r).quantities.get? n = some (q.raise (assignedLevel n later)) := by
  obtain ⟨rd, hrun, rfl⟩ := exists_run_of_readDescription h
  refine ⟨fun xs s ys hs ↦ ?_, fun β ↦ ?_⟩
  · have hempty := withBuiltins_statements r
    have hs' : (rd.tables.body r).statements =
        (withBuiltins.body r).statements ++ xs ++ s :: ys := by
      rw [hempty]
      exact hs
    obtain ⟨rd', line, hstands, -, hkind, -⟩ := Reader.readFrom_of_run hrun hs'
    obtain ⟨β, earlier, hearlier, hexit, hlevels⟩ := BodyReading.exists_of_run hrun hs'
    rw [hempty] at hstands hearlier hexit
    exact ⟨⟨rd', line, hstands, hkind⟩, β, earlier, hearlier, hexit, hlevels⟩
  · obtain ⟨ss, hss⟩ := β.after_body
    obtain ⟨later, hlater, hraised⟩ := β.later_raised hrun
    exact ⟨ss, later, hss, hlater, hraised⟩

theorem reference_levels_gatedText : ∃ comments t,
    withBuiltins.readDescription gatedSource gatedText = .ok (comments, t) ∧
      ∃ (β : BodyReading gatedSource withBuiltins .decode (Text.lines gatedText))
        (earlier : List Statement), β.entryBody.Levels earlier addingT := by
  obtain ⟨comments, t, hread, hstatements⟩ := exists_tables_of_gatedText
  have hlast : (t.body .decode).statements = gatedStatements.dropLast ++ [addingT] := hstatements
  obtain ⟨-, β, earlier, -, -, hlevels⟩ := (reference_levels hread .decode).1 _ _ _ hlast
  exact ⟨comments, t, hread, β, earlier, hlevels⟩

end Tables

end RankMetric
