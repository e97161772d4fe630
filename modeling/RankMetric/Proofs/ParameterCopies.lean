import RankMetric.Proofs.Compilation
import RankMetric.Proofs.DescriptionLines

/-!
# The three copies of a parameter

A `parameter` line puts its quantity into three scopes, and from then on each of the three is
changed for itself. They stay the same but for the level (`Tables.Copied`). The copy among the
parameters keeps level 1, and the copy of a routine has the highest level of the assignments to it
in this routine. So what one routine assigns does not show in the other.

No line breaks that, whether the routines come before, between or after the parameters.

* `Copied.declare_parameter`: a parameter that is new has been assigned to by no routine, since what
  is assigned to has been declared.
* `Copied.declare_local`: a routine cannot declare the name of a parameter again.
* `Copied.record`: a statement raises the copy of its own routine.
-/

namespace RankMetric

open Relation

/-- What is not declared has not been assigned to. -/
theorem Body.assignedLevel_of_get?_eq_none {b b' : Body} {n : Name}
    (h : ReflTransGen Change b b') (hb : b.statements = [])
    (hn : b'.quantities.get? n = none) : assignedLevel n b'.statements = .constant := by
  refine le_antisymm (assignedLevel_le_iff.2 fun s hs htarget ↦ ?_) (Level.constant_le _)
  have hb' : b'.statements = b.statements ++ b'.statements := by rw [hb, List.nil_append]
  obtain ⟨q, hq, -⟩ := le_level_of_assigned h hb' hs htarget
  cases hn.symm.trans hq

namespace Tables

variable {t t' : Tables} {targets : List Scope} {file raw : Text} {line : Int} {level : Level}
  {attributes : Name → Attributes} {n name : Name}

/-- No built-in is a parameter. -/
theorem withBuiltins_params : withBuiltins.params = .empty := by
  refine of_reached_foldlM (P := fun t ↦ t.params = .empty) ?_ rfl
  intro b _ t t' ht hdeclare
  obtain ⟨name, hdeclare⟩ := declare_of_declareBuiltin hdeclare
  have hparams : Scope.params ∉ b.scopes := by
    unfold Builtin.scopes
    split <;> simp
  exact ((declared_of_declare hdeclare).untargeted .params hparams).trans ht

/-! ### Copies -/

/-- If a name is that of a parameter, it stands for a quantity of level 1 among the parameters, and
in each routine for the same quantity at the level of the assignments to it. -/
def Copied (t : Tables) (n : Name) : Prop :=
  ∀ p, t.params.get? n = some p → p.level = .constant ∧ ∀ r, (t.body r).quantities.get? n =
    some { p with level := assignedLevel n (t.body r).statements }

/-- **A new parameter has three copies**, and it does not change those of another. -/
theorem Copied.declare_parameter (h : t.Copied n)
    (hd : t.declare file targets raw line .constant attributes = .ok (name, t'))
    (htargets : ∀ s, s ∈ targets)
    (hnew : ∀ r, (t.body r).quantities.get? name = none →
      assignedLevel name (t.body r).statements = .constant) : t'.Copied n := by
  obtain ⟨q, hlevel, hunknown, hget⟩ := exists_get?_of_declare hd
  have hstatements := (declared_of_declare hd).statements
  intro p hp
  have hp' := hget .params n
  by_cases hn : n = name
  · subst hn
    rw [if_pos ⟨htargets _, rfl⟩] at hp'
    obtain rfl := Option.some.inj (hp'.symm.trans hp)
    refine ⟨hlevel, fun r ↦ ?_⟩
    rw [hstatements, hnew r (hunknown (.routine r) (htargets _)), ← hlevel]
    exact (hget (.routine r) n).trans (if_pos ⟨htargets _, rfl⟩)
  · rw [if_neg fun h ↦ hn h.2] at hp'
    obtain ⟨hconstant, hcopies⟩ := h p (hp'.symm.trans hp)
    refine ⟨hconstant, fun r ↦ ?_⟩
    rw [hstatements, ← hcopies r]
    exact (hget (.routine r) n).trans (if_neg fun h ↦ hn h.2)

/-- **A local changes no parameter**: the name of a parameter is taken in every routine. -/
theorem Copied.declare_local {r : Routine} (h : t.Copied n)
    (hd : t.declare file [.routine r] raw line level attributes = .ok (name, t')) :
    t'.Copied n := by
  obtain ⟨q, -, hunknown, hget⟩ := exists_get?_of_declare hd
  have hstatements := (declared_of_declare hd).statements
  intro p hp
  have hp' : t.params.get? n = some p := by
    rw [← hp]
    exact ((hget .params n).trans (if_neg (by simp))).symm
  obtain ⟨hconstant, hcopies⟩ := h p hp'
  have hn : n ≠ name := by
    rintro rfl
    cases (hunknown (.routine r) List.mem_cons_self).symm.trans (hcopies r)
  refine ⟨hconstant, fun r' ↦ ?_⟩
  rw [hstatements, ← hcopies r']
  exact (hget (.routine r') n).trans (if_neg fun h ↦ hn h.2)

/-- **A statement raises the copy of its own routine**, and no other. -/
theorem Copied.record {r : Routine} (h : t.Copied n) (s : Statement) :
    (t.setBody r ((t.body r).record s)).Copied n := by
  intro p hp
  rw [params_setBody] at hp
  obtain ⟨hconstant, hcopies⟩ := h p hp
  refine ⟨hconstant, fun r' ↦ ?_⟩
  by_cases hr : r' = r
  · subst hr
    rw [body_setBody_self, Body.get?_record, hcopies r', Body.record_statements,
      assignedLevel_append, assignedLevel_singleton]
    split
    · rfl
    · rw [max_eq_left (Level.constant_le _)]
  · rw [body_setBody_ne _ hr]
    exact hcopies r'

end Tables

/-! ### Descriptions -/

namespace Reader

variable {src : Source} {t : Tables} {lines : List Text} {rd : Reader} {n : Name}

/-- Whether an accepted `parameter` line declared a name. -/
def DeclaresParameter (src : Source) (t : Tables) (lines : List Text) (n : Name) : Prop :=
  ∃ k rd raw t', Accepted src t lines k rd (.ofParameter src raw) n t'

/-- Every line keeps the copies of a parameter. -/
theorem copied_of_run (h : ({ tables := t } : Reader).run src 1 lines = .ok rd)
    (hstatements : ∀ r, (t.body r).statements = []) (ht : t.Copied n) : rd.tables.Copied n := by
  refine of_run (P := fun _ rd ↦ rd.tables.Copied n) h ht ?_
  intro lines line rd rd' hrun hcopied heffect
  cases heffect with
  | unchanged tables => rwa [tables]
  | declared accepts =>
    obtain ⟨hdeclares, hdeclare⟩ := accepts
    cases hdeclares with
    | parameter place kind =>
      refine hcopied.declare_parameter hdeclare mem_parameterScopes fun r ↦ ?_
      exact Body.assignedLevel_of_get?_eq_none
        ((history_of_run (coherent_top t) hrun).2 r) (hstatements r)
    | ofRoutine place kind typed => exact hcopied.declare_local hdeclare
  | read reads tables =>
    rw [tables]
    exact hcopied.record _

/-- A name that has become one of a parameter was declared as such. -/
theorem declaresParameter_of_run (h : ({ tables := t } : Reader).run src 1 lines = .ok rd)
    (ht : t.params.get? n = none) (hn : rd.tables.params.contains n = true) :
    DeclaresParameter src t lines n := by
  refine of_run (P := fun lines rd ↦ rd.tables.params.contains n = true →
    DeclaresParameter src t lines n) h (fun hn ↦ ?_) ?_ hn
  · rw [NameIndex.contains, ht] at hn
    cases hn
  intro lines line rd rd' hrun ih heffect hn
  have hearlier : rd.tables.params.contains n = true →
      DeclaresParameter src t (lines ++ [line]) n := by
    intro hn
    obtain ⟨k, rd, raw, t', haccepted⟩ := ih hn
    exact ⟨k, rd, raw, t', haccepted.concat line⟩
  cases heffect with
  | unchanged tables => exact hearlier (tables ▸ hn)
  | declared accepts =>
    rcases Tables.contains_of_declare (s := .params) accepts.declare_eq hn with hn | ⟨hparams, rfl⟩
    · exact hearlier hn
    · cases accepts.declares with
      | parameter place kind => exact ⟨_, rd, _, _, accepted_last hrun accepts⟩
      | ofRoutine place kind typed => simp [Declaring.ofRoutine] at hparams
  | read reads tables =>
    rw [tables, Tables.params_setBody] at hn
    exact hearlier hn

/-- What an accepted `parameter` line declared is a parameter in the end. -/
theorem DeclaresParameter.contains (h : DeclaresParameter src t lines n)
    (hrun : ({ tables := t } : Reader).run src 1 lines = .ok rd) :
    rd.tables.params.contains n = true := by
  obtain ⟨k, rd₀, raw, t', haccepted⟩ := h
  obtain ⟨line, -, haccepts⟩ := haccepted.line
  obtain ⟨q, -, hsame⟩ := (Tables.declared_of_declare haccepts.declare_eq).same
  obtain ⟨q', hq', -⟩ := (haccepted.grows hrun).params n q
    (hsame .params (mem_parameterScopes _))
  rw [NameIndex.contains, hq', Option.isSome_some]

end Reader

namespace Tables

open Reader

variable {src : Source} {text : Text} {comments : List Text} {t : Tables} {lines : List Text}
  {rd : Reader}

theorem get?_withBuiltins_params (n : Name) : withBuiltins.params.get? n = none := by
  rw [withBuiltins_params]
  rfl

/-- **The parameters of a description** are the names that an accepted `parameter` line declared. -/
theorem contains_params_iff
    (h : ({ tables := withBuiltins } : Reader).run src 1 lines = .ok rd) (n : Name) :
    rd.tables.params.contains n = true ↔ DeclaresParameter src withBuiltins lines n :=
  ⟨declaresParameter_of_run h (get?_withBuiltins_params n), fun hn ↦ hn.contains h⟩

/-- **The copies of a parameter never diverge.** The parameters are the names that an accepted
`parameter` line declared. Each of them has the same record in three scopes but for the level: it is
1 among the parameters, and in a routine it is that of the assignments which this routine makes. -/
theorem declaresParameter_and_copied
    (h : withBuiltins.readDescription src text = .ok (comments, t)) (n : Name) :
    (t.params.contains n = true ↔ DeclaresParameter src withBuiltins (Text.lines text) n) ∧
      t.Copied n := by
  obtain ⟨rd, hrun, rfl⟩ := exists_run_of_readDescription h
  refine ⟨contains_params_iff hrun n, copied_of_run hrun withBuiltins_statements fun p hp ↦ ?_⟩
  cases (get?_withBuiltins_params n).symm.trans hp

theorem declaresParameter_and_copied_sharedText : ∃ comments t,
    withBuiltins.readDescription sharedSource sharedText = .ok (comments, t) ∧
      DeclaresParameter sharedSource withBuiltins (Text.lines sharedText) ['k'] ∧
      t.Copied ['k'] ∧ (t.body .decode).levelOf ['k'] = some .perTerm ∧
      (t.body .post).levelOf ['k'] = some .constant := by
  obtain ⟨comments, t, hread, hparams, hdecode, hpost, -⟩ := exists_tables_of_sharedText
  obtain ⟨hiff, hcopied⟩ := declaresParameter_and_copied hread ['k']
  exact ⟨comments, t, hread, hiff.1 hparams, hcopied, hdecode, hpost⟩

end Tables

end RankMetric
