import RankMetric.Proofs.DescriptionLines

/-!
# Which calls have declared a name

Any calls, each of which may succeed or fail, make up a history of tables. A name is in a scope
after them if it was there before, or if one of the calls has declared a line under the name in the
scope: by itself, or as the line of a description. The description may have failed later on.

* `Reader.exists_useAll_of_step`: a line that cannot be read changes no more of the tables than the
  used names. So what a failed description has made of the tables is what its lines before the fault
  have made of them (`Reader.exists_run_take`).
* `Tables.Call.Declares`: a call declares a line under a name. `Tables.contains_after_iff` is the
  step over one call, and `Tables.contains_foldl_after_iff` the run over all of them.
* `Tables.knowsOperands_foldl_after`: what a statement reads or assigns to is in its routine.
-/

namespace RankMetric

/-! ### What a fault leaves -/

namespace Body

variable {b b' : Body} {c : Cause}

theorem Refuses.exists_useAll (h : b.Refuses (c, b')) : ∃ ns, b' = b.useAll ns := by
  cases h with
  | accumulator _ ns => exact ⟨ns, rfl⟩
  | constant _ => exact ⟨[], rfl⟩

end Body

namespace Tables

variable (t : Tables) (s : Scope) (ns : List Name)

@[simp] theorem quantities_useAll (s' : Scope) :
    (t.useAll s ns).quantities s' = t.quantities s' := by
  cases s with
  | params => rfl
  | routine r =>
    cases s' with
    | params => exact params_setBody t r _
    | routine r' =>
      by_cases hr : r' = r
      · subst hr
        simp [useAll, quantities]
      · simp [useAll, quantities, body_setBody_ne t hr]

@[simp] theorem statements_useAll (r : Routine) :
    ((t.useAll s ns).body r).statements = (t.body r).statements := by
  cases s with
  | params => rfl
  | routine r' =>
    by_cases hr : r = r'
    · subst hr
      simp [useAll]
    · simp [useAll, body_setBody_ne t hr]

/-- The name that was declared is in the targets. -/
theorem contains_target_of_declare {t t' : Tables} {file raw : Text} {targets : List Scope}
    {line : Int} {level : Level} {attributes : Name → Attributes} {n : Name} {s : Scope}
    (h : t.declare file targets raw line level attributes = .ok (n, t')) (hs : s ∈ targets) :
    (t'.quantities s).contains n = true := by
  obtain ⟨q, -, -, hget⟩ := exists_get?_of_declare h
  rw [NameIndex.contains, hget, if_pos ⟨hs, rfl⟩]
  rfl

/-- No name is lost when tables grow. -/
theorem Grows.contains {t t' : Tables} (h : t.Grows t') {s : Scope} {n : Name}
    (hn : (t.quantities s).contains n = true) : (t'.quantities s).contains n = true := by
  have hstays : (t.quantities s).StaysIn (t'.quantities s) := by
    cases s with
    | params => exact h.params
    | routine r => exact (h.body r).quantities
  obtain ⟨x, hx⟩ := Option.isSome_iff_exists.1 hn
  obtain ⟨x', hx', -⟩ := hstays n x hx
  exact Option.isSome_iff_exists.2 ⟨x', hx'⟩

end Tables

namespace Reader

variable {src : Source} {rd rd₁ : Reader} {r : Routine} {n : Nat} {line text : Text} {e : Halted}
  {t t' : Tables} {lines : List Text} {s : Scope} {m : Name} {D : Declaring} {k : Nat}

theorem exists_useAll_of_settle {res : Except StatementFault Body}
    (hres : ∀ f, res = .error f → (rd.tables.body r).Refuses f)
    (h : rd.settle src r n text res = .error e) : ∃ s ns, e.tables = rd.tables.useAll s ns := by
  obtain ⟨c, b⟩ | b := res
  · obtain ⟨ns, rfl⟩ := (hres (c, b) rfl).exists_useAll
    obtain rfl := Except.error.inj h
    exact ⟨.routine r, ns, rfl⟩
  · cases h

theorem exists_useAll_of_proceed {place : Place} {x : Except DescriptionError (Name × Tables)}
    (h : rd.proceed place x = .error e) : ∃ s ns, e.tables = rd.tables.useAll s ns := by
  cases x with
  | error _ =>
    obtain rfl := Except.error.inj h
    exact ⟨.params, [], rfl⟩
  | ok _ => cases h

theorem exists_useAll_of_advance {a : Assignment} (h : rd.advance src r a = .error e) :
    ∃ s ns, e.tables = rd.tables.useAll s ns := by
  unfold advance at h
  split at h
  · exact exists_useAll_of_settle (fun _ ↦ Body.refuses_of_assign) h
  · cases h

theorem exists_useAll_of_stepOuter (h : rd.stepOuter src n line = .error e) :
    ∃ s ns, e.tables = rd.tables.useAll s ns := by
  unfold stepOuter at h
  split at h
  · cases h
  · exact exists_useAll_of_proceed h
  · cases h
  · obtain rfl := Except.error.inj h
    exact ⟨.params, [], rfl⟩

theorem exists_useAll_of_stepStatement (h : rd.stepStatement src r n line = .error e) :
    ∃ s ns, e.tables = rd.tables.useAll s ns := by
  unfold stepStatement at h
  dsimp only at h
  split at h
  · cases h
  · cases h
  · cases h
  · split at h
    · exact exists_useAll_of_advance h
    · exact exists_useAll_of_settle (fun _ ↦ Body.refuses_of_evaluate) h

theorem exists_useAll_of_stepDeclaration (h : rd.stepDeclaration src r n line = .error e) :
    ∃ s ns, e.tables = rd.tables.useAll s ns := by
  unfold stepDeclaration at h
  split at h
  · cases h
  · cases h
  · cases h
  · split at h
    · exact exists_useAll_of_proceed h
    · exact exists_useAll_of_stepStatement h

/-- **A line that cannot be read changes the used names at most.** -/
theorem exists_useAll_of_step (h : rd.step src n line = .error e) :
    ∃ s ns, e.tables = rd.tables.useAll s ns := by
  unfold step at h
  split at h
  · exact exists_useAll_of_stepOuter h
  · exact exists_useAll_of_stepDeclaration h
  · exact exists_useAll_of_stepStatement h
  · exact exists_useAll_of_advance h

/-- **What lines have made of the tables** is what those before the first fault have, but for used
names. -/
theorem exists_run_take (src : Source) (rd : Reader) (n : Nat) (lines : List Text) :
    ∃ k rd' s ns, rd.run src n (lines.take k) = .ok rd' ∧
      reached (rd.run src n lines) = rd'.tables.useAll s ns := by
  induction lines generalizing rd n with
  | nil => exact ⟨0, rd, .params, [], rfl, rfl⟩
  | cons line lines ih =>
    rw [run]
    cases hstep : rd.step src n line with
    | error e =>
      obtain ⟨s, ns, he⟩ := exists_useAll_of_step hstep
      exact ⟨0, rd, s, ns, rfl, he⟩
    | ok rd₁ =>
      obtain ⟨k, rd', s, ns, hrun, hreached⟩ := ih rd₁ (n + 1)
      refine ⟨k + 1, rd', s, ns, ?_, hreached⟩
      rw [List.take_succ_cons, run, hstep]
      exact hrun

/-- The end of a description changes no tables. -/
theorem reached_readLines (t : Tables) (src : Source) (lines : List Text) :
    Tables.reached ((t.readLines src lines).map Prod.snd) =
      reached (({ tables := t } : Reader).run src 1 lines) := by
  rw [Tables.readLines]
  cases ({ tables := t } : Reader).run src 1 lines with
  | error e => rfl
  | ok rd =>
    show Tables.reached (((rd.finish src lines.length).bind _).map Prod.snd) = rd.tables
    rw [finish]
    cases rd.place <;> rfl

/-! ### The names of a description -/

theorem Accepted.of_take {j : Nat} (h : Accepted src t (lines.take k) j rd D m t') :
    Accepted src t lines j rd D m t' := by
  obtain ⟨line, hline, haccepts⟩ := h.line
  have hj : j < k := by
    have hlt := (List.getElem?_eq_some_iff.1 hline).1
    rw [List.length_take] at hlt
    omega
  refine ⟨?_, line, ?_, haccepts⟩
  · have hrun := h.run
    rwa [List.take_take, Nat.min_eq_left hj.le] at hrun
  · rwa [List.getElem?_take_of_lt hj] at hline

/-- What was accepted is never lost, also if the description fails later on. -/
theorem Accepted.grows_reached (h : Accepted src t lines k rd D m t') :
    t'.Grows (reached (({ tables := t } : Reader).run src 1 lines)) := by
  obtain ⟨line, hline, haccepts⟩ := h.line
  obtain ⟨hk, hget⟩ := List.getElem?_eq_some_iff.1 hline
  have hsplit : lines = lines.take k ++ line :: lines.drop (k + 1) := by
    rw [← hget, List.getElem_cons_drop, List.take_append_drop]
  obtain ⟨place, hstep⟩ := haccepts.declares.step_eq (n := 1 + k)
  rw [haccepts.declare_eq] at hstep
  rw [hsplit, run_append, h.run, List.length_take_of_le hk.le]
  show t'.Grows (reached (rd.run src (1 + k) (line :: lines.drop (k + 1))))
  rw [Reader.run, hstep]
  exact grows_run src { rd with tables := t', place := place } _ _

/-- The names after lines that can be read. -/
theorem exists_accepted_of_contains (h : ({ tables := t } : Reader).run src 1 lines = .ok rd)
    (hm : (rd.tables.quantities s).contains m = true) : (t.quantities s).contains m = true ∨
      ∃ k rd D t', Accepted src t lines k rd D m t' ∧ s ∈ D.targets := by
  refine of_run (P := fun lines rd ↦ (rd.tables.quantities s).contains m = true →
    (t.quantities s).contains m = true ∨
      ∃ k rd D t', Accepted src t lines k rd D m t' ∧ s ∈ D.targets) h .inl ?_ hm
  intro lines line rd rd' hrun ih heffect hm'
  have hbefore : (rd.tables.quantities s).contains m = true →
      (t.quantities s).contains m = true ∨
        ∃ k rd D t', Accepted src t (lines ++ [line]) k rd D m t' ∧ s ∈ D.targets := by
    rintro hold
    obtain hstart | ⟨k, rd₀, D, t', haccepted, hs⟩ := ih hold
    · exact .inl hstart
    · exact .inr ⟨k, rd₀, D, t', haccepted.concat line, hs⟩
  cases heffect with
  | unchanged tables => exact hbefore (tables ▸ hm')
  | @declared D name accepts =>
    rcases Tables.contains_of_declare accepts.declare_eq hm' with hold | ⟨hs, rfl⟩
    · exact hbefore hold
    · exact .inr ⟨lines.length, rd, D, rd'.tables, accepted_last hrun accepts, hs⟩
  | @read r st reads tables =>
    refine hbefore ?_
    rw [tables] at hm'
    cases s with
    | params => rwa [Tables.quantities, Tables.params_setBody] at hm'
    | routine r' =>
      by_cases hr : r' = r
      · subst hr
        rwa [Tables.quantities, Tables.body_setBody_self, Body.contains_record] at hm'
      · rwa [Tables.quantities, Tables.body_setBody_ne _ hr] at hm'

/-- **The names after any lines**: those that were there before, and those of the lines that were
accepted. -/
theorem contains_reached_run_iff :
    ((reached (({ tables := t } : Reader).run src 1 lines)).quantities s).contains m = true ↔
      (t.quantities s).contains m = true ∨
        ∃ k rd D t', Accepted src t lines k rd D m t' ∧ s ∈ D.targets := by
  constructor
  · intro h
    obtain ⟨k, rd, s', ns, hrun, hreached⟩ := exists_run_take src { tables := t } 1 lines
    rw [hreached, Tables.quantities_useAll] at h
    obtain hstart | ⟨j, rd₀, D, t', haccepted, hs⟩ := exists_accepted_of_contains hrun h
    · exact .inl hstart
    · exact .inr ⟨j, rd₀, D, t', haccepted.of_take, hs⟩
  · rintro (hstart | ⟨k, rd, D, t', haccepted, hs⟩)
    · exact (grows_run src { tables := t } 1 lines).contains hstart
    · obtain ⟨line, -, haccepts⟩ := haccepted.line
      exact haccepted.grows_reached.contains
        (Tables.contains_target_of_declare haccepts.declare_eq hs)

end Reader

/-! ### The names of calls -/

namespace Tables

variable {t : Tables} {c : Call} {calls : List Call} {s : Scope} {raw : Text} {n : Name}

/-- **A call declares a line** under a name in a scope: by itself, or as the line of a description,
even of one that fails later on. -/
inductive Call.Declares (t : Tables) (s : Scope) (raw : Text) (n : Name) : Call → Prop
  | declare {file : Text} {targets : List Scope} {line : Int} {level : Level}
      {attributes : Name → Attributes} {t' : Tables} (target : s ∈ targets)
      (declared : t.declare file targets raw line level attributes = .ok (n, t')) :
      Declares t s raw n (.declare file targets raw line level attributes)
  | readDescription {src : Source} {text : Text} {k : Nat} {rd : Reader} {D : Declaring}
      {t' : Tables} (target : s ∈ D.targets) (raw_eq : D.raw = raw)
      (accepted : Reader.Accepted src t (Text.lines text) k rd D n t') :
      Declares t s raw n (.readDescription src text)

/-- One of some calls declares a line under a name in a scope. -/
def DeclaredAmong (t : Tables) (calls : List Call) (s : Scope) (raw : Text) (n : Name) : Prop :=
  ∃ before c later, calls = before ++ c :: later ∧ c.Declares (before.foldl after t) s raw n

/-- **The names after one call.** -/
theorem contains_after_iff : ((t.after c).quantities s).contains n = true ↔
    (t.quantities s).contains n = true ∨ ∃ raw, c.Declares t s raw n := by
  cases c with
  | declare file targets raw line level attributes =>
    rw [after]
    cases hdeclare : t.declare file targets raw line level attributes with
    | error e =>
      refine ⟨.inl, fun h ↦ h.resolve_right ?_⟩
      rintro ⟨raw', hdeclares⟩
      cases hdeclares with
      | declare _ declared => cases hdeclare.symm.trans declared
    | ok p =>
      obtain ⟨n', t'⟩ := p
      constructor
      · intro hn
        rcases contains_of_declare hdeclare hn with hold | ⟨hs, rfl⟩
        · exact .inl hold
        · exact .inr ⟨raw, .declare hs hdeclare⟩
      · rintro (hold | ⟨raw', hdeclares⟩)
        · exact (grows_of_declare hdeclare).contains hold
        · cases hdeclares with
          | declare target declared =>
            obtain ⟨rfl, -⟩ := Prod.mk.inj (Except.ok.inj (hdeclare.symm.trans declared))
            exact contains_target_of_declare hdeclare target
  | readDescription src text =>
    rw [after, readDescription, Reader.reached_readLines, Reader.contains_reached_run_iff]
    refine or_congr_right ⟨?_, ?_⟩
    · rintro ⟨k, rd, D, t', haccepted, hs⟩
      exact ⟨D.raw, .readDescription hs rfl haccepted⟩
    · rintro ⟨raw, hdeclares⟩
      cases hdeclares with
      | readDescription target _ accepted => exact ⟨_, _, _, _, accepted, target⟩

theorem declaredAmong_concat : DeclaredAmong t (calls ++ [c]) s raw n ↔
    DeclaredAmong t calls s raw n ∨ c.Declares (calls.foldl after t) s raw n := by
  constructor
  · rintro ⟨before, c', later, hcalls, hdeclares⟩
    obtain ⟨rfl, rfl⟩ | ⟨later', rfl⟩ := cases_of_concat_eq hcalls
    · exact .inr hdeclares
    · exact .inl ⟨before, c', later', rfl, hdeclares⟩
  · rintro (⟨before, c', later, rfl, hdeclares⟩ | hdeclares)
    · exact ⟨before, c', later ++ [c], by simp, hdeclares⟩
    · exact ⟨calls, c, [], rfl, hdeclares⟩

/-- **The names after any calls** are those that were there before and those that the calls have
declared. -/
theorem contains_foldl_after_iff : ((calls.foldl after t).quantities s).contains n = true ↔
    (t.quantities s).contains n = true ∨ ∃ raw, DeclaredAmong t calls s raw n := by
  induction calls using List.reverseRecOn with
  | nil => simp [DeclaredAmong]
  | append_singleton calls c ih =>
    rw [List.foldl_append, List.foldl_cons, List.foldl_nil, contains_after_iff, ih, or_assoc,
      ← exists_or]
    simp only [declaredAmong_concat]

end Tables

/-! ### The names that statements mention -/

/-- What a statement of the body reads or assigns to is in the body. -/
def Body.KnowsOperands (b : Body) : Prop :=
  ∀ s ∈ b.statements, ∀ n, n ∈ s.action.operands ∨ s.action.target? = some n →
    b.quantities.contains n = true

theorem Body.KnowsOperands.record {b : Body} {s : Statement} (hb : b.KnowsOperands)
    (hs : b.Reads s) : (b.record s).KnowsOperands := by
  intro s' hs' n hn
  rw [Body.contains_record]
  rw [Body.record_statements, List.mem_append, List.mem_singleton] at hs'
  rcases hs' with hs' | rfl
  · exact hb s' hs' n hn
  · rcases hn with hoperand | htarget
    · obtain ⟨-, q, hq⟩ := hs.mem_operands_iff.1 hoperand
      exact Option.isSome_iff_exists.2 ⟨q, hq⟩
    · exact hs.contains_target htarget

namespace Tables

variable {t t' : Tables}

/-- Names may come and statements stay. -/
theorem knowsOperands_of_grows (ht : ∀ r, (t.body r).KnowsOperands) (h : t.Grows t')
    (hstatements : ∀ r, (t'.body r).statements = (t.body r).statements) (r : Routine) :
    (t'.body r).KnowsOperands := by
  intro s hs n hn
  rw [hstatements] at hs
  exact h.contains (s := .routine r) (ht r s hs n hn)

theorem knowsOperands_after (ht : ∀ r, (t.body r).KnowsOperands) (c : Call) (r : Routine) :
    ((t.after c).body r).KnowsOperands := by
  cases c with
  | declare file targets raw line level attributes =>
    rw [after]
    split
    · next t' hdeclare =>
      exact knowsOperands_of_grows ht (grows_of_declare hdeclare)
        (declared_of_declare hdeclare).statements r
    · exact ht r
  | readDescription src text =>
    obtain ⟨k, rd, s, ns, hrun, hreached⟩ :=
      Reader.exists_run_take src { tables := t } 1 (Text.lines text)
    rw [after, readDescription, Reader.reached_readLines, hreached]
    have hrd : ∀ r, (rd.tables.body r).KnowsOperands := by
      refine Reader.of_run (P := fun _ rd ↦ ∀ r, (rd.tables.body r).KnowsOperands) hrun ht ?_
      intro lines line rd rd' _ ih heffect r
      cases heffect with
      | unchanged tables => exact tables ▸ ih r
      | declared accepts =>
        exact knowsOperands_of_grows ih (grows_of_declare accepts.declare_eq)
          (declared_of_declare accepts.declare_eq).statements r
      | @read r' st reads tables =>
        rw [tables]
        by_cases hr : r = r'
        · subst hr
          rw [body_setBody_self]
          exact (ih r).record reads
        · rw [body_setBody_ne _ hr]
          exact ih r
    intro st hst n hn
    rw [statements_useAll] at hst
    have hknown : (rd.tables.quantities (.routine r)).contains n = true := hrd r st hst n hn
    rwa [← quantities_useAll rd.tables s ns] at hknown

/-- **What a statement reads or assigns to is in its routine**, after any calls. -/
theorem knowsOperands_foldl_after (ht : ∀ r, (t.body r).KnowsOperands) (calls : List Call)
    (r : Routine) : ((calls.foldl after t).body r).KnowsOperands := by
  induction calls generalizing t with
  | nil => exact ht r
  | cons c calls ih => exact ih (knowsOperands_after ht c)

end Tables

end RankMetric
