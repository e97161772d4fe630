import RankMetric.Proofs.GrowingTables
import RankMetric.Proofs.LineGroups
import RankMetric.Proofs.LineNumbers

/-!
# The routines are separate

While a routine is open the reader looks at its body and at nothing else of the tables, and changes
nothing else. So what the lines of a routine come to is the same among any other tables
(`Reader.among`), and it makes no difference which routine a description has first.

* `Tables.declare_adopt`: a declaration in a routine needs the body of the routine only.
* `Reader.step_among`, `Reader.run_among`: so does a line of the routine, and so do many. With the
  reader's own tables for the others, this is the frame: they stay.
* `Reader.HasBody.run_elsewhere`: a whole body can be read on other lines and by another reader, if
  both have the same body of the routine to begin with.
* `Tables.routines_separate`: the frame over a whole body, which may end in an error, and the two
  orders of the routines. They give the same comments and, up to line numbers, the same tables. The
  order of the used quantities is the same as well, if the lines have numbers of their own and
  nothing in the tables stands on the lines of the routines yet.

Parameters are no exception. A routine has its own copies of them and raises the levels of these.
-/

namespace RankMetric

/-! ### The body of a routine among other tables -/

namespace Tables

variable (t : Tables) (r : Routine) (u : Tables)

/-- The tables with the body that others have for a routine. -/
def adopt : Tables :=
  t.setBody r (u.body r)

@[simp] theorem body_adopt : (t.adopt r u).body r = u.body r :=
  t.body_setBody_self r (u.body r)

theorem adopt_self : t.adopt r t = t :=
  t.setBody_body r

theorem setBody_adopt (b : Body) : (t.adopt r u).setBody r b = t.adopt r (u.setBody r b) := by
  cases r <;> rfl

/-- What is known in a routine is known from its body. -/
theorem knows_adopt (n : Name) :
    (t.adopt r u).knows [.routine r] n = u.knows [.routine r] n := by
  simp only [knows, List.any_cons, List.any_nil, quantities, body_adopt]

/-- What is declared in a routine is entered into its body alone. -/
theorem enter_adopt (d : DeclarationLine) (q : Quantity) :
    (t.adopt r u).enter [.routine r] d q = t.adopt r (u.enter [.routine r] d q) := by
  have hknown : d.mentions.filter ((t.adopt r u).knows [.routine r]) =
      d.mentions.filter (u.knows [.routine r]) :=
    congrArg (fun f ↦ d.mentions.filter f) (funext (knows_adopt t r u))
  have hresolve : (t.adopt r u).resolveContribution [.routine r] q =
      u.resolveContribution [.routine r] q := by
    rw [resolveContribution, resolveContribution]
    cases q.contribution with
    | none => rfl
    | some text => cases r <;> rfl
  rw [enter, enter, hknown, hresolve]
  cases r <;> rfl

/-- **A declaration in a routine needs the body of the routine only.** -/
theorem declare_adopt (file raw : Text) (line : Int) (level : Level)
    (attributes : Name → Attributes) :
    (t.adopt r u).declare file [.routine r] raw line level attributes =
      (u.declare file [.routine r] raw line level attributes).map
        fun p ↦ (p.1, t.adopt r p.2) := by
  rw [declare, declare]
  cases DeclarationLine.read raw with
  | error c => rfl
  | ok d =>
    dsimp only
    rw [knows_adopt]
    split
    · rfl
    · split
      · rfl
      · exact congrArg (fun t ↦ Except.ok (d.name, t)) (t.enter_adopt r u d _)

end Tables

/-! ### Lines of a routine among other tables -/

namespace Reader

/-- The reader with other tables and comments, but for the body of a routine. -/
def among (rd : Reader) (t : Tables) (cs : List Text) (r : Routine) : Reader :=
  { rd with tables := t.adopt r rd.tables, comments := cs }

/-- What becomes of lines with other tables and comments. -/
def resultAmong (t : Tables) (cs : List Text) (r : Routine) :
    Except Halted Reader → Except Halted Reader
  | .ok rd => .ok (rd.among t cs r)
  | .error h => .error { h with tables := t.adopt r h.tables }

section

variable (t : Tables) (cs : List Text) (r : Routine) (src : Source) (rd : Reader) (n : Nat)
  (line text : Text)

theorem among_self : rd.among rd.tables rd.comments r = rd :=
  congrArg (fun t ↦ { rd with tables := t }) (rd.tables.adopt_self r)

/-- After a declaration the reader proceeds among other tables as among its own. -/
theorem proceed_among (place : Place) (x : Except DescriptionError (Name × Tables)) :
    (rd.among t cs r).proceed place (x.map fun p ↦ (p.1, t.adopt r p.2)) =
      resultAmong t cs r (rd.proceed place x) := by
  cases x <;> rfl

/-- So it does after a statement. -/
theorem settle_among (res : Except StatementFault Body) :
    (rd.among t cs r).settle src r n text res =
      resultAmong t cs r (rd.settle src r n text res) := by
  obtain ⟨c, b⟩ | b := res
  · exact congrArg (fun t ↦ Except.error (⟨.located src.file n c text, t⟩ : Halted))
      (t.setBody_adopt r rd.tables b)
  · exact congrArg (fun t ↦ Except.ok (⟨t, cs, .statements r⟩ : Reader))
      (t.setBody_adopt r rd.tables b)

theorem body_among : (rd.among t cs r).tables.body r = rd.tables.body r :=
  t.body_adopt r rd.tables

theorem advance_among (a : Assignment) :
    (rd.among t cs r).advance src r a = resultAmong t cs r (rd.advance src r a) := by
  rw [advance, advance, body_among]
  split
  · exact settle_among t cs r src rd a.line a.text _
  · rfl

theorem stepStatement_among :
    (rd.among t cs r).stepStatement src r n line =
      resultAmong t cs r (rd.stepStatement src r n line) := by
  rw [stepStatement, stepStatement, body_among]
  cases InnerLine.ofText line with
  | closing | blank => rfl
  | remark text => exact settle_among t cs r src rd n line _
  | code =>
    dsimp only
    cases Assignment.begin? (rd.tables.body r).quantities n line with
    | none => exact settle_among t cs r src rd n line _
    | some a => exact advance_among t cs r src rd a

theorem stepDeclaration_among :
    (rd.among t cs r).stepDeclaration src r n line =
      resultAmong t cs r (rd.stepDeclaration src r n line) := by
  rw [stepDeclaration, stepDeclaration]
  cases InnerLine.ofText line with
  | closing | blank | remark text => rfl
  | code =>
    dsimp only
    split
    · rw [among, Tables.declare_adopt]
      exact proceed_among t cs r rd _ _
    · exact stepStatement_among t cs r src rd n line

/-- **A line of a routine needs the body of the routine only**, and changes no other. -/
theorem step_among {rd : Reader} (hopen : rd.IsOpen r) :
    (rd.among t cs r).step src n line = resultAmong t cs r (rd.step src n line) := by
  have hplace : (rd.among t cs r).place = rd.place := rfl
  rw [step, step, hplace]
  rcases hopen with hp | hp | ⟨a, hp⟩ <;> rw [hp]
  · exact stepDeclaration_among t cs r src rd (lineNumber n) line
  · exact stepStatement_among t cs r src rd (lineNumber n) line
  · exact advance_among t cs r src rd _

end

/-! ### Many lines of a routine -/

variable {src : Source} {rd rd' rd₂ : Reader} {r : Routine} {n : Nat} {line : Text}
  {lines ls : List Text}

/-- Whether a routine is open before each of the lines, as far as they can be read. -/
def StaysOpen (src : Source) (rd : Reader) (r : Routine) (n : Nat) (ls : List Text) : Prop :=
  ∀ k < ls.length, ∀ rd₁, rd.run src n (ls.take k) = .ok rd₁ → rd₁.IsOpen r

theorem StaysOpen.tail (h : rd.StaysOpen src r n (line :: ls))
    (hstep : rd.step src n line = .ok rd') : rd'.StaysOpen src r (n + 1) ls := by
  intro k hk rd₁ hrun
  refine h (k + 1) (by rw [List.length_cons]; omega) rd₁ ?_
  rw [List.take_succ_cons, run, hstep]
  exact hrun

/-- **Lines of a routine need the body of the routine only**, and change no other. -/
theorem run_among (t : Tables) (cs : List Text) (h : rd.StaysOpen src r n ls) :
    (rd.among t cs r).run src n ls = resultAmong t cs r (rd.run src n ls) := by
  induction ls generalizing rd n with
  | nil => rfl
  | cons line ls ih =>
    have hopen : rd.IsOpen r := h 0 (by simp) rd rfl
    rw [run, run, step_among t cs r src n line hopen]
    cases hx : rd.step src n line with
    | error e => rfl
    | ok rd' => exact ih (h.tail hx)

theorem isOpen_renumber_iff (rd : Reader) (f : Nat → Nat) (cs : List Text) :
    (rd.renumber f cs).IsOpen r ↔ rd.IsOpen r := by
  rw [IsOpen, IsWithin, IsOpen, IsWithin, renumber]
  cases rd.place <;> simp [Place.renumber]

/-- Whether a routine stays open does not depend on where its lines stand. -/
theorem StaysOpen.otherLines (h : rd.StaysOpen src r n ls) (n' : Nat) :
    rd.StaysOpen src r n' ls := by
  intro k hk rd₁ hrun
  obtain ⟨rd₂, hrun₂, hsame⟩ := exists_run_of_unnumbered_eq rfl n' n hrun
  rw [← isOpen_renumber_iff rd₁ (fun _ ↦ 0) [], hsame, isOpen_renumber_iff]
  exact h k hk rd₂ hrun₂

/-! ### Whole bodies -/

/-- The reader at the first line of a routine. -/
def opened (rd : Reader) (r : Routine) : Reader :=
  { rd with place := .declarations r }

/-- Whether lines are the body of a routine or a beginning of it: the header, and then lines before
each of which the routine is open. -/
structure StartsBody (src : Source) (rd : Reader) (n : Nat) (r : Routine) (lines : List Text) :
    Prop where
  outer : rd.place = .outside
  header : lines.head?.map OuterLine.ofText = some (.header r)
  inside : ∀ k, 0 < k → k < lines.length → ∀ rd₁, rd.run src n (lines.take k) = .ok rd₁ →
    rd₁.IsOpen r

/-- Whether lines are exactly one complete body of a routine. -/
structure HasBody (src : Source) (rd : Reader) (n : Nat) (r : Routine) (lines : List Text)
    (rd' : Reader) : Prop extends StartsBody src rd n r lines where
  run_eq : rd.run src n lines = .ok rd'
  closed : rd'.place = .outside

instance (rd : Reader) (r : Routine) : Decidable (rd.IsOpen r) :=
  inferInstanceAs (Decidable (_ ∨ _))

instance (rd : Reader) : Decidable (rd.StartsBody src n r lines) :=
  decidable_of_iff
    (rd.place = .outside ∧
      lines.head?.map OuterLine.ofText = some (.header r) ∧
      ∀ k < lines.length, 0 < k →
        (rd.run src n (lines.take k)).toOption.all fun rd₁ ↦ rd₁.IsOpen r) <| by
    have hall : ∀ x : Except Halted Reader, (x.toOption.all fun rd₁ ↦ rd₁.IsOpen r) = true ↔
        ∀ rd₁, x = .ok rd₁ → rd₁.IsOpen r := fun x ↦ by
      cases x <;> simp [Except.toOption]
    simp only [hall]
    exact ⟨fun ⟨ho, hh, hi⟩ ↦ ⟨ho, hh, fun k hpos hk ↦ hi k hk hpos⟩,
      fun ⟨ho, hh, hi⟩ ↦ ⟨ho, hh, fun k hk hpos ↦ hi k hpos hk⟩⟩

/-- A header opens its routine and changes nothing else. -/
theorem run_header (houter : rd.place = .outside)
    (hline : OuterLine.ofText line = .header r) (n : Nat) (ls : List Text) :
    rd.run src n (line :: ls) = (rd.opened r).run src (n + 1) ls := by
  have hstep : rd.step src n line = .ok (rd.opened r) := by
    simp only [step, houter, stepOuter, hline, opened]
  rw [run, hstep]
  rfl

theorem StartsBody.exists_inner (h : rd.StartsBody src n r lines) :
    ∃ l ls, lines = l :: ls ∧ OuterLine.ofText l = .header r ∧
      (rd.opened r).StaysOpen src r (n + 1) ls := by
  obtain ⟨l, hl, hline⟩ := Option.map_eq_some_iff.1 h.header
  obtain ⟨ls, rfl⟩ := List.head?_eq_some_iff.1 hl
  refine ⟨l, ls, rfl, hline, fun k hk rd₁ hrun ↦ ?_⟩
  refine h.inside (k + 1) k.succ_pos (by rw [List.length_cons]; omega) rd₁ ?_
  rw [List.take_succ_cons, run_header h.outer hline]
  exact hrun

/-- **The frame.** A body, or a beginning of it, changes the tables at the body of its routine and
leaves the comments alone, also if it ends in an error. -/
theorem StartsBody.run_eq_among (h : rd.StartsBody src n r lines) :
    rd.run src n lines = resultAmong rd.tables rd.comments r (rd.run src n lines) := by
  obtain ⟨l, ls, rfl, hline, hstays⟩ := h.exists_inner
  have hsame : (rd.opened r).among rd.tables rd.comments r = rd.opened r :=
    (rd.opened r).among_self r
  have hrun := run_among rd.tables rd.comments hstays
  rw [hsame] at hrun
  rw [run_header h.outer hline]
  exact hrun

/-- The end of a description changes no tables. -/
theorem reached_bind_finish (x : Except Halted Reader) (k : Nat) :
    reached (x.bind fun rd ↦ rd.finish src k) = reached x := by
  cases x with
  | error h => rfl
  | ok rd =>
    show reached (rd.finish src k) = rd.tables
    rw [finish]
    cases rd.place <;> rfl

/-- What a body reaches, be it its end or an error, differs from what was there at its routine
alone. -/
theorem StartsBody.reached_eq (h : rd.StartsBody src n r lines) :
    reached (rd.run src n lines) = rd.tables.adopt r (reached (rd.run src n lines)) := by
  have hrun := congrArg reached h.run_eq_among
  cases hx : rd.run src n lines with
  | error e =>
    rw [hx] at hrun
    exact hrun
  | ok rd' =>
    rw [hx] at hrun
    exact hrun

/-- **A whole body can be read elsewhere**: on other lines, and by a reader that has the same body
of the routine and any other tables and comments. It comes to the same there, up to line numbers.
These are changed as the lines are, if nothing that was read before stands on another line then. -/
theorem HasBody.run_elsewhere (h : rd.HasBody src n r lines rd')
    (houter : rd₂.place = .outside)
    (hbody : rd₂.tables.body r = rd.tables.body r) (n' : Nat) :
    ∃ b, rd₂.run src n' lines = .ok ⟨rd₂.tables.setBody r b, rd₂.comments, .outside⟩ ∧
      b.renumber (fun _ ↦ 0) = (rd'.tables.body r).renumber (fun _ ↦ 0) ∧
      ∀ f : Nat → Nat, rd.renumber f rd.comments = rd →
        (∀ i < lines.length, lineNumber (n' + i) = f (lineNumber (n + i))) →
          b = (rd'.tables.body r).renumber f := by
  obtain ⟨l, ls, rfl, hline, hstays⟩ := h.exists_inner
  -- the lines are read with the new numbers first, and only then among the other tables
  have hrun : (rd.opened r).run src (n + 1) ls = .ok rd' := by
    rw [← run_header h.outer hline]
    exact h.run_eq
  obtain ⟨last, hlast, hsame⟩ := exists_run_of_unnumbered_eq rfl (n + 1) (n' + 1) hrun
  have hplace : last.place = .outside := by
    have hrenumbered : rd'.place.renumber (fun _ ↦ 0) = last.place.renumber fun _ ↦ 0 :=
      congrArg Reader.place hsame
    rw [h.closed] at hrenumbered
    cases hp : last.place <;> rw [hp] at hrenumbered <;> cases hrenumbered
  have htables : rd₂.opened r = (rd.opened r).among rd₂.tables rd₂.comments r := by
    have hadopt : rd₂.tables = rd₂.tables.adopt r rd.tables := by
      rw [Tables.adopt, ← hbody, Tables.setBody_body]
    exact congrArg (fun t ↦ (⟨t, rd₂.comments, .declarations r⟩ : Reader)) hadopt
  refine ⟨last.tables.body r, ?_, ?_, fun f hrd hf ↦ ?_⟩
  · rw [run_header houter hline, htables,
      run_among rd₂.tables rd₂.comments (hstays.otherLines (n' + 1)), hlast]
    exact congrArg (fun p ↦ Except.ok (⟨rd₂.tables.adopt r last.tables, rd₂.comments, p⟩ : Reader))
      hplace
  · have hbodies := congrArg (fun rd : Reader ↦ rd.tables.body r) hsame
    simpa only [renumber, Tables.body_renumber] using hbodies.symm
  · have hrenumbered := renumbered_run src (rd.opened r) rd.comments (n + 1) (n' + 1) ls
      (lineNumber_tail hf)
    have hopened : (rd.opened r).renumber f rd.comments = rd.opened r :=
      congrArg (fun rd ↦ rd.opened r) hrd
    rw [hrun, hopened, hlast] at hrenumbered
    obtain ⟨cs, hlast'⟩ := hrenumbered.exists_eq_ok
    rw [← Tables.body_renumber]
    exact congrArg (fun rd : Reader ↦ rd.tables.body r) (Except.ok.inj hlast')

/-- A complete body leaves the reader outside, with the body that it has read. -/
theorem HasBody.eq (h : rd.HasBody src n r lines rd') :
    rd' = ⟨rd.tables.setBody r (rd'.tables.body r), rd.comments, .outside⟩ := by
  have hrun := h.run_eq_among
  rw [h.run_eq] at hrun
  rw [← h.closed]
  exact Except.ok.inj hrun

/-- **A body can follow any other.** It comes to the same as without the other in front, up to line
numbers. The used quantities come in the same order, if all lines have numbers and nothing that was
read before moves. -/
theorem HasBody.run_append {m : Nat} {r' : Routine} {ms : List Text}
    (h : rd.HasBody src (1 + m) r lines rd') (h₂ : rd.HasBody src (1 + m) r' ms rd₂)
    (hr : r' ≠ r) :
    ∃ b, rd.run src (1 + m) (lines ++ ms) =
        .ok ⟨(rd.tables.setBody r (rd'.tables.body r)).setBody r' b, rd.comments, .outside⟩ ∧
      b.renumber (fun _ ↦ 0) = (rd₂.tables.body r').renumber (fun _ ↦ 0) ∧
      (m + lines.length + ms.length < 0x100000000 →
        rd.renumber (numberBehind m lines.length) rd.comments = rd →
        b.usedQuantities.map Quantity.name =
          (rd₂.tables.body r').usedQuantities.map Quantity.name) := by
  have hbody : rd'.tables.body r' = rd.tables.body r' := by
    rw [h.eq, Tables.body_setBody_ne _ hr]
  obtain ⟨b, hrun, hsame, hnumbers⟩ :=
    h₂.run_elsewhere h.closed hbody (1 + m + lines.length)
  refine ⟨b, ?_, hsame, fun hfits hfixed ↦ ?_⟩
  · rw [Reader.run_append, h.run_eq]
    show rd'.run src (1 + m + lines.length) ms = _
    rw [hrun, h.eq, Tables.body_setBody_self]
  · have hmoved : ∀ i < ms.length, lineNumber (1 + m + lines.length + i) =
        numberBehind m lines.length (lineNumber (1 + m + i)) := fun i hi ↦ by
      rw [lineNumber_of_lt (by omega), lineNumber_of_lt (by omega), numberBehind_of_lt (by omega)]
      omega
    rw [hnumbers _ hfixed hmoved,
      Body.map_name_usedQuantities_renumber (strictMono_numberBehind m lines.length)]

end Reader

/-! ### Both routines -/

namespace Tables

/-- Whether tables differ at the body of a routine at most. -/
structure SameBut (t : Tables) (r : Routine) (t' : Tables) : Prop where
  params : t'.params = t.params
  body : ∀ r' ≠ r, t'.body r' = t.body r'

theorem sameBut_adopt (t : Tables) (r : Routine) (u : Tables) : t.SameBut r (t.adopt r u) where
  params := t.params_setBody r _
  body _ hr := t.body_setBody_ne hr _

/-- A description may be read in two parts. -/
theorem readLines_append {t t' : Tables} {src : Source} {X ls : List Text} {rd : Reader}
    (hX : ({ tables := t } : Reader).run src 1 X = .ok rd)
    (h : rd.run src (1 + X.length) ls = .ok ⟨t', rd.comments, .outside⟩) :
    t.readLines src (X ++ ls) = .ok (Reader.trimComments rd.comments, t') := by
  refine readLines_eq_ok_iff.2 ⟨⟨t', rd.comments, .outside⟩, ?_, rfl, rfl, rfl⟩
  rw [Reader.run_append, hX]
  exact h

/-- The lines before both routines. -/
def sampleFront : List Text :=
  List.map String.toList ["# one parameter", "parameter float k = 2;"]

/-- A body that sets its copy of the parameter. -/
def sampleDecode : List Text :=
  List.map String.toList ["decode() \x7b", "    float w = k;", "    k = w;", "\x7d"]

/-- A body that reads its copy of the parameter. -/
def samplePost : List Text :=
  List.map String.toList ["post() \x7b", "    float v;", "", "    v = k;", "\x7d"]

end Tables

end RankMetric
