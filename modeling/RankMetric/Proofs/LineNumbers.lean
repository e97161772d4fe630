import RankMetric.Proofs.AlikeMetrics
import RankMetric.Proofs.DeclarationVerdicts

/-!
# Other line numbers

Line numbers are recorded, and a reader looks at them for two things only: a quantity is a built-in
if it stands on no line, and a comment outside the routines is kept as long as the lines are no more
than the comments. So but for the comments the reader does not mind by which numbers it is told the
lines. This module says so for any change `f` of the numbers, of which nothing is asked.

* `Reader.renumbered_step`: a step of a renumbered reader on a line with number `f n` is the
  renumbered step on line `n`, in success and in failure, with the same tables reached and the same
  error but for its line (`DescriptionError.Renumbered`).
* `Reader.renumbered_run`, `Reader.renumbered_finish`: the same of many lines, if `f` takes their
  numbers to those that the lines have elsewhere, and of the end of a description.
* `Reader.unnumbered_run`, `Reader.exists_run_of_unnumbered_eq`: readers that differ in line numbers
  and comments alone read on to such readers, wherever the lines are said to stand. This is the case
  of an `f` that takes every number to 0, and a line may have any number for it, so it is used where
  a description may have more lines than there are numbers.
* `Metric.renumber_ofTables`: the metric of renumbered tables is the renumbered metric.
* `Body.usedQuantities_renumber`: the used quantities keep their order if `f` keeps the order of
  lines. Here alone the order of line numbers counts.
* `numberBehind`: the change of the numbers that comes with more lines. The lines in front of them
  are read as before (`Reader.renumbered_front`).
-/

namespace RankMetric

open Text

variable (f : Nat → Nat)

/-! ### Renumbered records -/

/-- The line of a quantity under another number. What stands on no line is left alone. -/
def renumberLine : Int → Int
  | .ofNat n => f n
  | .negSucc n => .negSucc n

theorem renumberLine_natCast (n : Nat) : renumberLine f n = f n := rfl

/-- No line gets the number of the built-ins, so nothing that is declared on a line becomes one. -/
theorem renumberLine_eq_builtinLine_iff (i : Int) :
    renumberLine f i = builtinLine ↔ i = builtinLine := by
  rw [builtinLine]
  cases i with
  | ofNat n => show ((f n : Int) = -1 ↔ (n : Int) = -1); omega
  | negSucc n => exact Iff.rfl

namespace Quantity

/-- The quantity on another line. -/
def renumber (q : Quantity) : Quantity :=
  { q with line := renumberLine f q.line }

@[simp] theorem renumber_name (q : Quantity) : (q.renumber f).name = q.name := rfl

/-- A quantity is a built-in on other lines if it is one. -/
theorem isBuiltin_renumber (q : Quantity) : (q.renumber f).isBuiltin = q.isBuiltin := by
  rw [Bool.eq_iff_iff, isBuiltin, isBuiltin, beq_iff_eq, beq_iff_eq]
  exact renumberLine_eq_builtinLine_iff f q.line

/-- A quantity on another line shows the same to the full view. -/
theorem seen_renumber (q : Quantity) : (q.renumber f).seen .full = q.seen .full := by
  rw [seen, seen, isBuiltin_renumber]
  rfl

end Quantity

/-- The quantities of a scope on other lines. -/
def Quantities.renumber (qs : Quantities) : Quantities :=
  qs.mapValues (Quantity.renumber f) (Quantity.renumber_name f)

/-- The statement on another line. -/
def Statement.renumber (s : Statement) : Statement :=
  { s with line := f s.line }

/-- The assignment on another line. -/
def Assignment.renumber (a : Assignment) : Assignment :=
  { a with line := f a.line }

/-- The body with everything on other lines. -/
def Body.renumber (b : Body) : Body where
  quantities := b.quantities.renumber f
  used := b.used
  statements := b.statements.map (Statement.renumber f)

/-- The tables with everything on other lines. -/
def Tables.renumber (t : Tables) : Tables where
  params := t.params.renumber f
  decode := t.decode.renumber f
  post := t.post.renumber f

/-- The place with an open assignment on another line. -/
def Place.renumber : Place → Place
  | .assignment r a => .assignment r (a.renumber f)
  | p => p

/-- The reader with everything on other lines, and with other comments. -/
def Reader.renumber (cs : List Text) (rd : Reader) : Reader where
  tables := rd.tables.renumber f
  comments := cs
  place := rd.place.renumber f

/-! ### Quantities -/

namespace Quantities

variable (qs : Quantities)

theorem get?_renumber (n : Name) :
    (qs.renumber f).get? n = (qs.get? n).map (Quantity.renumber f) :=
  NameIndex.get?_mapValues (Quantity.renumber_name f) qs n

theorem contains_renumber (n : Name) : (qs.renumber f).contains n = qs.contains n := by
  rw [NameIndex.contains, NameIndex.contains, get?_renumber, Option.isSome_map]

/-- A quantity is entered on another line as on its own. -/
theorem insert_renumber (q : Quantity) :
    NameIndex.insert (qs.renumber f) (q.renumber f) = renumber f (qs.insert q) := by
  refine NameIndex.ext_get? fun n ↦ ?_
  rw [NameIndex.get?_insert, get?_renumber, get?_renumber, NameIndex.get?_insert,
    Quantity.renumber_name]
  split <;> rfl

/-- The quantities that tokens name are the same, on other lines. -/
theorem named_renumber (ts : List Token) :
    (qs.renumber f).named ts = (qs.named ts).map (Quantity.renumber f) := by
  rw [named, named, List.map_filterMap]
  exact congrArg (fun g ↦ ts.filterMap g) (funext fun t ↦ qs.get?_renumber f t.text)

theorem map_name_renumber (qs : List Quantity) :
    (qs.map (Quantity.renumber f)).map Quantity.name = qs.map Quantity.name := by
  rw [List.map_map]
  rfl

/-- Lines do not count for the level of operands. -/
theorem joinLevels_renumber (qs : List Quantity) :
    Quantity.joinLevels (qs.map (Quantity.renumber f)) = Quantity.joinLevels qs := by
  rw [Quantity.joinLevels, Quantity.joinLevels, List.map_map]
  rfl

/-- Scopes on other lines are alike, whatever is looked at but the line. -/
theorem alike_renumber : (qs.renumber f).Alike .full qs := by
  intro n
  rw [get?_renumber, Option.map_map]
  exact congrArg (fun g ↦ (qs.get? n).map g) (funext (Quantity.seen_renumber f))

end Quantities

/-! ### Statements -/

namespace Body

variable (b : Body)

theorem isFixed_renumber (n : Name) : (b.renumber f).isFixed n = b.isFixed n := by
  rw [isFixed, isFixed, renumber, Quantities.get?_renumber, Option.any_map]
  refine congrArg (fun g ↦ (b.quantities.get? n).any g) (funext fun q ↦ ?_)
  exact congrArg (· && q.isConst) (q.isBuiltin_renumber f)

/-- A target is raised to the same level. -/
theorem raise_renumber (n : Name) (l : Level) :
    (b.renumber f).raise n l = (b.raise n l).renumber f := by
  have hget := b.quantities.get?_renumber f n
  cases hq : b.quantities.get? n with
  | none =>
    rw [hq] at hget
    simp only [raise, renumber, hq, hget, Option.map_none]
  | some q =>
    have hinsert := b.quantities.insert_renumber f (q.raise l)
    rw [hq] at hget
    simp only [raise, renumber, hq, hget, Option.map_some]
    exact congrArg (fun qs ↦ (⟨qs, b.used, b.statements.map (Statement.renumber f)⟩ : Body)) hinsert

theorem push_renumber (s : Statement) :
    (b.renumber f).push (s.renumber f) = (b.push s).renumber f := by
  rw [push, push, renumber, renumber]
  simp only [List.map_append, List.map_cons, List.map_nil]

/-- What has become of a body with everything on other lines. -/
def renumberResult : Except StatementFault Body → Except StatementFault Body
  | .ok b => .ok (b.renumber f)
  | .error (c, b) => .error (c, b.renumber f)

/-- **Operands are read in the same way on other lines**: the same names are used, and the first
operand that cannot be read is the same. -/
theorem readOperands_renumber (ts : List Token) :
    (b.renumber f).readOperands ts =
      match b.readOperands ts with
      | .ok (qs, b') => .ok (qs.map (Quantity.renumber f), b'.renumber f)
      | .error (c, b') => .error (c, b'.renumber f) := by
  have hnamed : Quantities.named (b.renumber f).quantities ts =
      (b.quantities.named ts).map (Quantity.renumber f) := b.quantities.named_renumber f ts
  have huse : ∀ ns, (b.renumber f).useAll ns = (b.useAll ns).renumber f := fun _ ↦ rfl
  have hreadable : (fun q : Quantity ↦ !q.level.isWriteOnly) ∘ Quantity.renumber f =
      fun q ↦ !q.level.isWriteOnly := rfl
  have hwrite : (fun q : Quantity ↦ q.level.isWriteOnly) ∘ Quantity.renumber f =
      fun q ↦ q.level.isWriteOnly := rfl
  rw [readOperands, readOperands, hnamed, List.find?_map, List.takeWhile_map, hreadable, hwrite]
  cases (b.quantities.named ts).find? fun q ↦ q.level.isWriteOnly with
  | none =>
    simp only [Option.map_none, Quantities.map_name_renumber, huse]
  | some q =>
    simp only [Option.map_some, Quantities.map_name_renumber, Quantity.renumber_name, huse]

/-- A statement without a target is read in the same way under another number. -/
theorem evaluate_renumber (n : Nat) (text : Text) :
    (b.renumber f).evaluate (f n) text = renumberResult f (b.evaluate n text) := by
  rw [evaluate, evaluate, readOperands_renumber]
  cases b.readOperands (significant text) with
  | error e => rfl
  | ok x =>
    show Except.ok ((x.2.renumber f).push _) = Except.ok ((x.2.push _).renumber f)
    rw [← push_renumber, Quantities.joinLevels_renumber, Quantities.map_name_renumber]
    rfl

/-- And so is an assignment. -/
theorem assign_renumber (a : Assignment) :
    (b.renumber f).assign (a.renumber f) = renumberResult f (b.assign a) := by
  rw [assign, assign]
  simp only [Assignment.renumber, isFixed_renumber, readOperands_renumber]
  split
  · rfl
  · cases b.readOperands a.tokens with
    | error e => rfl
    | ok x =>
      show Except.ok ((((x.2.renumber f).use a.target).raise a.target _).push _) =
        Except.ok ((((x.2.use a.target).raise a.target _).push _).renumber f)
      rw [← push_renumber, ← raise_renumber, Quantities.joinLevels_renumber,
        Quantities.map_name_renumber]
      rfl

end Body

/-! ### Declarations -/

namespace Tables

variable (t : Tables)

theorem quantities_renumber (s : Scope) :
    (t.renumber f).quantities s = (t.quantities s).renumber f := by
  rcases s with - | ⟨- | -⟩ <;> rfl

theorem body_renumber (r : Routine) : (t.renumber f).body r = (t.body r).renumber f := by
  cases r <;> rfl

theorem setBody_renumber (r : Routine) (b : Body) :
    (t.renumber f).setBody r (b.renumber f) = (t.setBody r b).renumber f := by
  cases r <;> rfl

theorem knows_renumber (targets : List Scope) (n : Name) :
    (t.renumber f).knows targets n = t.knows targets n := by
  simp only [knows, quantities_renumber, Quantities.contains_renumber]

/-- A quantity contributes to the same name. -/
theorem resolveContribution_renumber (targets : List Scope) (q : Quantity) :
    (t.renumber f).resolveContribution targets (q.renumber f) =
      (t.resolveContribution targets q).renumber f := by
  simp only [resolveContribution, quantities_renumber, Quantities.contains_renumber]
  have hcontribution : (q.renumber f).contribution = q.contribution := rfl
  rw [hcontribution]
  split <;> rfl

theorem insert_renumber (s : Scope) (ns : List Name) (q : Quantity) :
    ((t.renumber f).useAll s ns).insert s (q.renumber f) =
      ((t.useAll s ns).insert s q).renumber f := by
  have hinsert := Quantities.insert_renumber f (t.quantities s) q
  rcases s with - | ⟨- | -⟩
  · exact congrArg (fun qs ↦ (⟨qs, t.decode.renumber f, t.post.renumber f⟩ : Tables)) hinsert
  · exact congrArg (fun qs ↦ (⟨t.params.renumber f, ⟨qs, t.decode.used.insertAll ns, _⟩,
      t.post.renumber f⟩ : Tables)) hinsert
  · exact congrArg (fun qs ↦ (⟨t.params.renumber f, t.decode.renumber f,
      ⟨qs, t.post.used.insertAll ns, _⟩⟩ : Tables)) hinsert

/-- A quantity enters all its scopes on another line as on its own. -/
theorem enter_renumber (targets : List Scope) (d : DeclarationLine) (q : Quantity) :
    (t.renumber f).enter targets d (q.renumber f) = (t.enter targets d q).renumber f := by
  have hknown : d.mentions.filter ((t.renumber f).knows targets) =
      d.mentions.filter (t.knows targets) :=
    congrArg (fun g ↦ d.mentions.filter g) (funext (knows_renumber f t targets))
  rw [enter, enter, hknown, resolveContribution_renumber]
  -- what is entered has been determined by now, so the scopes can be gone through one by one
  clear hknown
  generalize d.mentions.filter _ = ns
  generalize t.resolveContribution targets q = q
  induction targets generalizing t with
  | nil => rfl
  | cons s targets ih => rw [List.foldl_cons, List.foldl_cons, insert_renumber, ih]

/-- The line of an error in a declaration is that of the declaration, if it can be reported. -/
theorem line_of_declare {t : Tables} {file raw : Text} {targets : List Scope} {line : Int}
    {level : Level} {attributes : Name → Attributes} {e : DescriptionError}
    (h : t.declare file targets raw line level attributes = .error e) :
    e.line = errorLine line := by
  obtain ⟨c, rfl⟩ := located_of_declare h
  rfl

/-- **A declaration is read in the same way under another number**: with the same name and the same
tables but for lines, or with the same error but for its line. -/
theorem declare_renumber (file : Text) (targets : List Scope) (raw : Text) (line : Int)
    (level : Level) (attributes : Name → Attributes) :
    (t.renumber f).declare file targets raw (renumberLine f line) level attributes =
      match t.declare file targets raw line level attributes with
      | .ok (name, t') => .ok (name, t'.renumber f)
      | .error e => .error { e with line := errorLine (renumberLine f line) } := by
  rw [declare, declare]
  cases DeclarationLine.read raw with
  | error c => rfl
  | ok d =>
    dsimp only
    rw [knows_renumber]
    split
    · rfl
    · split
      · rfl
      · exact congrArg (fun t ↦ Except.ok (d.name, t))
          (enter_renumber f t targets d (d.quantity line level (attributes d.name)))

/-- Tables that hold nothing but built-ins are the same on other lines. -/
theorem withBuiltins_renumber : withBuiltins.renumber f = withBuiltins := by
  refine of_reached_foldlM (P := fun t ↦ t.renumber f = t) ?_ rfl
  intro b _ t t' ht hdeclare
  obtain ⟨name, hdeclare⟩ := declare_of_declareBuiltin hdeclare
  have hboth := t.declare_renumber f [] b.scopes b.declaration builtinLine b.level
    fun _ ↦ b.attributes
  rw [hdeclare, ht] at hboth
  obtain ⟨-, htables⟩ := Prod.mk.inj (Except.ok.inj (hdeclare.symm.trans hboth))
  exact htables.symm

end Tables

/-! ### The reader -/

/-- The number of a line is one that an error in a declaration can report. -/
theorem Tables.errorLine_lineNumber (n : Nat) : errorLine (lineNumber n) = lineNumber n := by
  have hlt := lineNumber_lt n
  rw [errorLine, if_pos (by omega), Int.toNat_natCast]

/-- Whether the second error is the first in a description whose line `n` has the number `f n`. -/
structure DescriptionError.Renumbered (e e' : DescriptionError) : Prop where
  file : e'.file = e.file
  cause : e'.cause = e.cause
  text : e'.text = e.text
  line : e'.line = f e.line

namespace Reader

/-- Whether the second result is the first in a description whose line `n` has the number `f n`. The
comments do not count. -/
inductive Renumbered : Except Halted Reader → Except Halted Reader → Prop
  | ok (rd : Reader) (cs : List Text) : Renumbered (.ok rd) (.ok (rd.renumber f cs))
  | error {h h' : Halted} (error : h.error.Renumbered f h'.error)
      (tables : h'.tables = h.tables.renumber f) : Renumbered (.error h) (.error h')

theorem Renumbered.exists_eq_ok {rd : Reader} {y : Except Halted Reader}
    (h : Renumbered f (.ok rd) y) : ∃ cs, y = .ok (rd.renumber f cs) := by
  cases h with
  | ok rd cs => exact ⟨cs, rfl⟩

theorem Renumbered.exists_eq_error {h : Halted} {y : Except Halted Reader}
    (hy : Renumbered f (.error h) y) : ∃ h', y = .error h' ∧ h.error.Renumbered f h'.error ∧
      h'.tables = h.tables.renumber f := by
  cases hy with
  | error error tables => exact ⟨_, rfl, error, tables⟩

section

variable {f} (src : Source) (rd : Reader) (cs : List Text) (r : Routine) {n n' : Nat}
  (line text : Text)

/-- What is reported of a line is reported under its other number. -/
theorem renumbered_fail (n : Nat) (c : Cause) :
    Renumbered f (rd.fail src n c text) ((rd.renumber f cs).fail src (f n) c text) :=
  .error ⟨rfl, rfl, rfl, rfl⟩ rfl

/-- What has become of the body is what becomes of the body on other lines. -/
theorem renumbered_settle (n : Nat) (res : Except StatementFault Body) :
    Renumbered f (rd.settle src r n text res)
      ((rd.renumber f cs).settle src r (f n) text (Body.renumberResult f res)) := by
  obtain ⟨c, b⟩ | b := res
  · refine .error ⟨rfl, rfl, rfl, rfl⟩ ?_
    exact rd.tables.setBody_renumber f r b
  · have hok := Renumbered.ok (f := f)
      { rd with tables := rd.tables.setBody r b, place := .statements r } cs
    rw [renumber, ← Tables.setBody_renumber] at hok
    exact hok

/-- An assignment on another line goes on as it does on its own. -/
theorem renumbered_advance (a : Assignment) :
    Renumbered f (rd.advance src r a) ((rd.renumber f cs).advance src r (a.renumber f)) := by
  have hcomplete : (a.renumber f).isComplete = a.isComplete := rfl
  rw [advance, advance, hcomplete]
  split
  · have hsettle := renumbered_settle (f := f) src rd cs r a.text a.line
      ((rd.tables.body r).assign a)
    rw [← Body.assign_renumber, ← Tables.body_renumber] at hsettle
    exact hsettle
  · exact .ok { rd with place := .assignment r a } cs

/-- A line begins the same assignment. -/
theorem begin?_renumber (n : Nat) (qs : Quantities) :
    Assignment.begin? (qs.renumber f) (f n) line =
      (Assignment.begin? qs n line).map (Assignment.renumber f) := by
  unfold Assignment.begin?
  split
  · rw [Quantities.contains_renumber]
    split <;> rfl
  · rfl

/-- A line among statements is read in the same way under any number. -/
theorem renumbered_stepStatement (n : Nat) :
    Renumbered f (rd.stepStatement src r n line)
      ((rd.renumber f cs).stepStatement src r (f n) line) := by
  have hbody : (rd.renumber f cs).tables.body r = (rd.tables.body r).renumber f :=
    rd.tables.body_renumber f r
  have hbegin : Assignment.begin? ((rd.tables.body r).renumber f).quantities (f n) line =
      (Assignment.begin? (rd.tables.body r).quantities n line).map (Assignment.renumber f) :=
    begin?_renumber line n (rd.tables.body r).quantities
  rw [stepStatement, stepStatement, hbody]
  cases InnerLine.ofText line with
  | closing => exact .ok { rd with place := .outside } cs
  | blank => exact .ok { rd with place := .statements r } cs
  | remark text =>
    have hsettle := renumbered_settle (f := f) src rd cs r line n
      (.ok ((rd.tables.body r).remark n text))
    rw [Body.renumberResult, Body.remark, ← Body.push_renumber] at hsettle
    exact hsettle
  | code =>
    dsimp only
    rw [hbegin]
    cases Assignment.begin? (rd.tables.body r).quantities n line with
    | none =>
      have hsettle := renumbered_settle (f := f) src rd cs r line n
        ((rd.tables.body r).evaluate n line)
      rw [← Body.evaluate_renumber] at hsettle
      exact hsettle
    | some a => exact renumbered_advance src rd cs r a

variable (hn : lineNumber n' = f (lineNumber n))
include hn

theorem renumbered_proceed (targets : List Scope) (level : Level) (attributes : Name → Attributes)
    {place : Place} (hplace : place.renumber f = place) :
    Renumbered f
      (rd.proceed place
        (rd.tables.declare src.file targets text (lineNumber n) level attributes))
      ((rd.renumber f cs).proceed place
        ((rd.renumber f cs).tables.declare src.file targets text (lineNumber n') level
          attributes)) := by
  have hline' : Tables.errorLine (f (lineNumber n) : Nat) = f (lineNumber n) := by
    rw [← hn, Tables.errorLine_lineNumber]
  rw [renumber, hn, ← renumberLine_natCast f (lineNumber n), Tables.declare_renumber]
  cases hd : rd.tables.declare src.file targets text (lineNumber n) level attributes with
  | error e =>
    have hline := (Tables.line_of_declare hd).trans (Tables.errorLine_lineNumber n)
    have herror : e.Renumbered f { e with line := Tables.errorLine (f (lineNumber n) : Nat) } :=
      ⟨rfl, rfl, rfl, by rw [hline, hline']⟩
    exact .error (h := ⟨e, rd.tables⟩) herror rfl
  | ok p =>
    have hok := Renumbered.ok (f := f) { rd with tables := p.2, place := place } cs
    rw [renumber, hplace] at hok
    exact hok

/-- A line outside the routines is read in the same way under any number, but that a comment may be
kept under the one and not under the other. -/
theorem renumbered_stepOuter :
    Renumbered f (rd.stepOuter src (lineNumber n) line)
      ((rd.renumber f cs).stepOuter src (lineNumber n') line) := by
  rw [stepOuter, stepOuter]
  cases OuterLine.ofText line with
  | comment text =>
    -- which of the two keep the comment depends on the comments that they have
    dsimp only
    split <;> split <;> exact .ok ⟨rd.tables, _, rd.place⟩ _
  | parameter text => exact renumbered_proceed src rd cs text hn _ _ _ rfl
  | header r => exact .ok { rd with place := .declarations r } cs
  | unexpected =>
    rw [hn]
    exact renumbered_fail src rd cs line _ _

/-- A line among declarations is read in the same way under any number. -/
theorem renumbered_stepDeclaration :
    Renumbered f (rd.stepDeclaration src r (lineNumber n) line)
      ((rd.renumber f cs).stepDeclaration src r (lineNumber n') line) := by
  rw [stepDeclaration, stepDeclaration]
  cases InnerLine.ofText line with
  | closing => exact .ok { rd with place := .outside } cs
  | blank => exact .ok rd cs
  | remark text => exact .ok rd cs
  | code =>
    dsimp only
    split
    · exact renumbered_proceed src rd cs line hn _ _ _ rfl
    · rw [hn]
      exact renumbered_stepStatement src rd cs r line _

/-- **A line is read in the same way under any number.** -/
theorem renumbered_step :
    Renumbered f (rd.step src n line) ((rd.renumber f cs).step src n' line) := by
  have hplace : (rd.renumber f cs).place = rd.place.renumber f := rfl
  rw [step, step, hplace]
  cases rd.place with
  | outside => exact renumbered_stepOuter src rd cs line hn
  | declarations r => exact renumbered_stepDeclaration src rd cs r line hn
  | statements r =>
    show Renumbered f _ ((rd.renumber f cs).stepStatement src r (lineNumber n') line)
    rw [hn]
    exact renumbered_stepStatement src rd cs r line _
  | assignment r a => exact renumbered_advance src rd cs r (a.extend line)

end

/-- What is asked of the numbers of lines is asked of those behind the first. -/
theorem lineNumber_tail {f : Nat → Nat} {n n' k : Nat}
    (hf : ∀ i < k + 1, lineNumber (n' + i) = f (lineNumber (n + i))) :
    ∀ i < k, lineNumber (n' + 1 + i) = f (lineNumber (n + 1 + i)) := by
  intro i hi
  rw [Nat.add_assoc, Nat.add_assoc]
  exact hf (1 + i) (by omega)

/-- **Lines are read in the same way under any numbers.** -/
theorem renumbered_run {f : Nat → Nat} (src : Source) (rd : Reader) (cs : List Text) (n n' : Nat)
    (lines : List Text)
    (hf : ∀ i < lines.length, lineNumber (n' + i) = f (lineNumber (n + i))) :
    Renumbered f (rd.run src n lines) ((rd.renumber f cs).run src n' lines) := by
  induction lines generalizing rd cs n n' with
  | nil => exact .ok rd cs
  | cons line lines ih =>
    have hstep := renumbered_step src rd cs line (hf 0 (by simp))
    rw [run, run]
    cases hx : rd.step src n line with
    | error h =>
      rw [Nat.add_zero, Nat.add_zero, hx] at hstep
      obtain ⟨h', hy, herror, htables⟩ := hstep.exists_eq_error
      rw [hy]
      exact .error herror htables
    | ok rd' =>
      rw [Nat.add_zero, Nat.add_zero, hx] at hstep
      obtain ⟨cs', hy⟩ := hstep.exists_eq_ok
      rw [hy]
      exact ih rd' cs' (n + 1) (n' + 1) (lineNumber_tail hf)

/-- The end of a description too is reported under any number. -/
theorem renumbered_finish {f : Nat → Nat} (src : Source) (rd : Reader) (cs : List Text) {k k' : Nat}
    (hk : lineNumber k' = f (lineNumber k)) :
    Renumbered f (rd.finish src k) ((rd.renumber f cs).finish src k') := by
  have hplace : (rd.renumber f cs).place = rd.place.renumber f := rfl
  rw [finish, finish, hplace, hk]
  cases rd.place with
  | outside => exact .ok rd cs
  | declarations r | statements r => exact renumbered_fail src rd cs [] _ _
  | assignment r a => exact renumbered_fail src rd cs a.text _ _

end Reader

/-! ### Without numbers -/

/-- The error without its line. -/
def DescriptionError.unnumbered (e : DescriptionError) : DescriptionError :=
  { e with line := 0 }

namespace Reader

/-- What becomes of a run, without line numbers and comments. -/
def unnumbered : Except Halted Reader → Except Halted Reader
  | .ok rd => .ok (rd.renumber (fun _ ↦ 0) [])
  | .error h => .error ⟨h.error.unnumbered, h.tables.renumber fun _ ↦ 0⟩

/-- Results that are the same with every line under number 0 are the same without line numbers. -/
theorem Renumbered.unnumbered_eq {x x' y : Except Halted Reader}
    (h : Renumbered (fun _ ↦ 0) x y) (h' : Renumbered (fun _ ↦ 0) x' y) :
    unnumbered x = unnumbered x' := by
  cases x with
  | ok rd =>
    obtain ⟨cs, rfl⟩ := h.exists_eq_ok
    cases x' with
    | ok rd' =>
      obtain ⟨cs', hy⟩ := h'.exists_eq_ok
      exact congrArg (fun rd : Reader ↦ Except.ok { rd with comments := [] }) (Except.ok.inj hy)
    | error e => nomatch h'
  | error e =>
    obtain ⟨last, rfl, herror, htables⟩ := h.exists_eq_error
    cases x' with
    | ok rd' => nomatch h'
    | error e' =>
      obtain ⟨last', hlast, herror', htables'⟩ := h'.exists_eq_error
      obtain rfl := Except.error.inj hlast
      simp only [unnumbered, DescriptionError.unnumbered, ← htables, ← htables', ← herror.file,
        ← herror'.file, ← herror.cause, ← herror'.cause, ← herror.text, ← herror'.text]

variable (src : Source) {rd rd' last : Reader} {lines : List Text}

/-- Readers that differ in line numbers and comments alone read a line in the same way, whatever
its number is. -/
theorem unnumbered_step (h : rd.renumber (fun _ ↦ 0) [] = rd'.renumber (fun _ ↦ 0) [])
    (n n' : Nat) (line : Text) :
    unnumbered (rd.step src n line) = unnumbered (rd'.step src n' line) := by
  have hzero : lineNumber 0 = 0 := rfl
  have hboth := renumbered_step (f := fun _ ↦ 0) (n := n) src rd [] line hzero
  rw [h] at hboth
  exact hboth.unnumbered_eq (renumbered_step src rd' [] line rfl)

/-- **Readers that differ in line numbers and comments alone read on in the same way**, whatever the
numbers of the lines are. -/
theorem unnumbered_run (h : rd.renumber (fun _ ↦ 0) [] = rd'.renumber (fun _ ↦ 0) [])
    (n n' : Nat) (lines : List Text) :
    unnumbered (rd.run src n lines) = unnumbered (rd'.run src n' lines) := by
  induction lines generalizing rd rd' n n' with
  | nil => exact congrArg Except.ok h
  | cons line lines ih =>
    have hstep := unnumbered_step src h n n' line
    rw [run, run]
    cases hx : rd.step src n line with
    | error e =>
      cases hy : rd'.step src n' line with
      | error e' => rwa [hx, hy] at hstep
      | ok last' => rw [hx, hy] at hstep; cases hstep
    | ok last =>
      cases hy : rd'.step src n' line with
      | error e' => rw [hx, hy] at hstep; cases hstep
      | ok last' =>
        rw [hx, hy] at hstep
        exact ih (Except.ok.inj hstep) (n + 1) (n' + 1)

/-- Such readers end a description in the same way. -/
theorem unnumbered_finish (h : rd.renumber (fun _ ↦ 0) [] = rd'.renumber (fun _ ↦ 0) [])
    (k k' : Nat) : unnumbered (rd.finish src k) = unnumbered (rd'.finish src k') := by
  have hzero : lineNumber 0 = 0 := rfl
  have hboth := renumbered_finish (f := fun _ ↦ 0) (k := k) src rd [] hzero
  rw [h] at hboth
  exact hboth.unnumbered_eq (renumbered_finish src rd' [] rfl)

/-- **A description that is read on by such readers** comes to the same without line numbers. -/
theorem unnumbered_run_finish (h : rd.renumber (fun _ ↦ 0) [] = rd'.renumber (fun _ ↦ 0) [])
    (n n' k k' : Nat) (lines : List Text) :
    unnumbered ((rd.run src n lines).bind fun rd ↦ rd.finish src k) =
      unnumbered ((rd'.run src n' lines).bind fun rd ↦ rd.finish src k') := by
  have hrun := unnumbered_run src h n n' lines
  cases hx : rd.run src n lines with
  | error e =>
    cases hy : rd'.run src n' lines with
    | error e' => rwa [hx, hy] at hrun
    | ok last' => rw [hx, hy] at hrun; cases hrun
  | ok last =>
    cases hy : rd'.run src n' lines with
    | error e' => rw [hx, hy] at hrun; cases hrun
    | ok last' =>
      rw [hx, hy] at hrun
      exact unnumbered_finish src (Except.ok.inj hrun) k k'

variable {src} in
/-- Lines that lead the one reader to its end lead the other to such a reader too. -/
theorem exists_run_of_unnumbered_eq
    (h : rd.renumber (fun _ ↦ 0) [] = rd'.renumber (fun _ ↦ 0) []) (n n' : Nat)
    (hrun : rd.run src n lines = .ok last) :
    ∃ last', rd'.run src n' lines = .ok last' ∧
      last.renumber (fun _ ↦ 0) [] = last'.renumber (fun _ ↦ 0) [] := by
  have hsame := unnumbered_run src h n n' lines
  rw [hrun] at hsame
  cases hrun' : rd'.run src n' lines with
  | error e =>
    rw [hrun'] at hsame
    cases hsame
  | ok last' =>
    rw [hrun'] at hsame
    exact ⟨last', rfl, Except.ok.inj hsame⟩

end Reader

/-! ### Metrics -/

variable (p : Propagation) (r : Routine)

namespace Body

variable (b : Body)

/-- The same names are used through contributions. -/
theorem closeUsed_renumber : (b.renumber f).closeUsed r = (b.closeUsed r).renumber f := by
  have hused : ((b.renumber f).closeUsed r).used = (b.closeUsed r).used :=
    used_closeUsed_eq (b := b.renumber f) (b.quantities.alike_renumber f) rfl r
  exact congrArg (fun u ↦ (⟨_, u, _⟩ : Body)) hused

theorem prerequisites_renumber : (b.renumber f).prerequisites = b.prerequisites := by
  rw [prerequisites, prerequisites]
  show ((b.quantities.toList.map (Quantity.renumber f)).filter _).filterMap _ = _
  rw [List.filter_map, List.filterMap_map]
  rfl

end Body

namespace Tables

variable (t : Tables)

/-- Propagation looks at the order of statements, not at their numbers. -/
theorem propagate_renumber : (t.renumber f).propagate p = (t.propagate p).renumber f := by
  have hstatements : ∀ ss : List Statement,
      p.apply (ss.map (Statement.renumber f)) = (p.apply ss).map (Statement.renumber f) :=
    p.apply_map (fun _ ↦ rfl) (fun _ ↦ rfl) (fun _ _ ↦ rfl)
  simp only [propagate, renumber, Body.renumber, hstatements]

theorem closeContributions_renumber :
    (t.renumber f).closeContributions = t.closeContributions.renumber f := by
  rw [closeContributions, closeContributions, renumber, renumber]
  simp only [Body.closeUsed_renumber]

theorem prerequisites_renumber : (t.renumber f).prerequisites = t.prerequisites := by
  rw [prerequisites, prerequisites, renumber]
  simp only [Body.prerequisites_renumber]

end Tables

/-- The metric with everything on other lines. -/
def Metric.renumber (m : Metric) : Metric :=
  { m with toTables := m.toTables.renumber f }

/-- The metric without line numbers and comments. -/
def Metric.unnumbered (m : Metric) : Metric :=
  { m.renumber (fun _ ↦ 0) with comments := [] }

/-- **The metric of renumbered tables is the renumbered metric.** -/
theorem Metric.renumber_ofTables (src : Source) (comments : List Text) (t : Tables) :
    ofTables src p comments (t.renumber f) = (ofTables src p comments t).renumber f := by
  rw [ofTables, ofTables, Metric.renumber]
  dsimp only
  rw [Tables.propagate_renumber, Tables.closeContributions_renumber, Tables.prerequisites_renumber]

/-! ### The order of lines -/

section Order

variable {f} (hf : StrictMono f)
include hf

/-- Built-ins stay ahead of all lines, and lines keep their order. -/
theorem renumberLine_le_iff (i j : Int) : renumberLine f i ≤ renumberLine f j ↔ i ≤ j := by
  match i, j with
  | .ofNat m, .ofNat n =>
    show (f m : Int) ≤ f n ↔ (m : Int) ≤ n
    rw [Int.ofNat_le, Int.ofNat_le, hf.le_iff_le]
  | .ofNat m, .negSucc n => show (f m : Int) ≤ .negSucc n ↔ (m : Int) ≤ .negSucc n; omega
  | .negSucc m, .ofNat n => show .negSucc m ≤ (f n : Int) ↔ .negSucc m ≤ (n : Int); omega
  | .negSucc m, .negSucc n => exact Iff.rfl

/-- Sorting by line commutes with a change of numbers that keeps their order. -/
theorem Quantity.sortByLine_renumber (qs : List Quantity) :
    sortByLine (qs.map (renumber f)) = (sortByLine qs).map (renumber f) := by
  have hinsert : ∀ q qs, insertByLine (renumber f q) (qs.map (renumber f)) =
      (insertByLine q qs).map (renumber f) := by
    intro q qs
    induction qs with
    | nil => rfl
    | cons p ps ih =>
      have hle : (q.renumber f).line ≤ (p.renumber f).line ↔ q.line ≤ p.line :=
        renumberLine_le_iff hf q.line p.line
      rw [List.map_cons, insertByLine, insertByLine]
      simp only [hle]
      split
      · rfl
      · rw [ih]
        rfl
  induction qs with
  | nil => rfl
  | cons q qs ih =>
    show insertByLine (renumber f q) (sortByLine (qs.map (renumber f))) = _
    rw [ih, hinsert]
    rfl

/-- **The used quantities keep their order** if lines do. -/
theorem Body.usedQuantities_renumber (b : Body) :
    (b.renumber f).usedQuantities = b.usedQuantities.map (Quantity.renumber f) := by
  have hget : (b.renumber f).quantities.get? = fun n ↦
      (b.quantities.get? n).map (Quantity.renumber f) :=
    funext (b.quantities.get?_renumber f)
  rw [usedQuantities, usedQuantities, ← Quantity.sortByLine_renumber hf, List.map_filterMap, hget]
  rfl

theorem Body.map_name_usedQuantities_renumber (b : Body) :
    (b.renumber f).usedQuantities.map Quantity.name = b.usedQuantities.map Quantity.name := by
  rw [usedQuantities_renumber hf, Quantities.map_name_renumber]

end Order

/-! ### More lines -/

/-- The number of line `n` once `k` more lines have been put behind line `m`. -/
def numberBehind (m k n : Nat) : Nat :=
  if n ≤ m then n else n + k

variable {m n : Nat}

theorem numberBehind_of_le (h : n ≤ m) (k : Nat) : numberBehind m k n = n := if_pos h

theorem numberBehind_of_lt (h : m < n) (k : Nat) : numberBehind m k n = n + k :=
  if_neg (Nat.not_le.2 h)

theorem strictMono_numberBehind (m k : Nat) : StrictMono (numberBehind m k) := by
  intro i j hij
  unfold numberBehind
  split_ifs <;> omega

/-- The numbers of the lines in front of those that are put in stay. -/
theorem lineNumber_eq_numberBehind {front : List Text} (hfits : FitsNumbers front) (k : Nat)
    {i : Nat} (hi : i < front.length) :
    lineNumber (1 + i) = numberBehind front.length k (lineNumber (1 + i)) := by
  rw [hfits.lineNumber_eq (by omega), numberBehind_of_le (by omega)]

/-- **The lines in front of those that are put in** are read as before, and nothing of what has been
read moves, if nothing in the tables does. -/
theorem Reader.renumbered_front (src : Source) {t : Tables} {front : List Text}
    (hfits : FitsNumbers front) {k : Nat} (ht : t.renumber (numberBehind front.length k) = t) :
    Renumbered (numberBehind front.length k) (({ tables := t } : Reader).run src 1 front)
      (({ tables := t } : Reader).run src 1 front) := by
  have hstart : ({ tables := t } : Reader).renumber (numberBehind front.length k) [] =
      { tables := t } := congrArg (fun t ↦ (⟨t, [], .outside⟩ : Reader)) ht
  have hsame := renumbered_run src { tables := t } [] 1 1 front
    fun i ↦ lineNumber_eq_numberBehind hfits k
  rwa [hstart] at hsame

/-- Nothing that they have been read to moves. -/
theorem Reader.renumber_of_run_front {src : Source} {t : Tables} {front : List Text} {rd : Reader}
    (hfits : FitsNumbers front) {k : Nat} (ht : t.renumber (numberBehind front.length k) = t)
    (hrun : ({ tables := t } : Reader).run src 1 front = .ok rd) :
    rd.renumber (numberBehind front.length k) rd.comments = rd := by
  have hsame := renumbered_front src hfits ht
  rw [hrun] at hsame
  obtain ⟨cs, hrd⟩ := hsame.exists_eq_ok
  have hrd := Except.ok.inj hrd
  obtain rfl : cs = rd.comments := (congrArg comments hrd).symm
  exact hrd.symm

end RankMetric
