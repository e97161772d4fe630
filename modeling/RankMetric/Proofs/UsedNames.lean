import RankMetric.Proofs.DescriptionLines
import RankMetric.Proofs.TargetLevels

/-!
# The names that a routine uses

A name is recorded as used when something that is read mentions it and it is declared by then. There
are two occasions, and what counts as a mention and as declared differs.

* A statement mentions its target and the tokens that it reads, and what counts is what its own
  routine has declared (`Reader.NamedAt`).
* A declaration mentions the words of its initializer (`Tables.Mentions`). What some target of it
  has declared is recorded in all of them, so a `parameter` line may record in one routine what only
  the other has declared.

`Tables.used_iff` says that there is no other way into the record of a routine. Nothing is ever
taken out of it, so one direction is about the moment of reading and the other goes back over the
run.
-/

namespace RankMetric

open DeclarationLine

namespace Tables

variable {t t' : Tables} {targets : List Scope} {file raw : Text} {line : Int} {level : Level}
  {attributes : Name → Attributes} {n name : Name} {r : Routine}

/-! ### What a declaration records -/

/-- **What a declaration records as used**: the words of the initializer that some target has
declared, in all targets. -/
theorem contains_used_of_declare
    (h : t.declare file targets raw line level attributes = .ok (name, t')) :
    (t'.body r).used.contains n = true ↔ (t.body r).used.contains n = true ∨
      .routine r ∈ targets ∧ Mentions raw n ∧
        ∃ s ∈ targets, (t.quantities s).contains n = true := by
  obtain ⟨d, hread, -, -, -, rfl⟩ := declare_eq_ok_iff.1 h
  rw [enter, body_foldl_insert]
  split
  · next hr =>
    rw [Body.contains_used_gain, Bool.or_eq_true, List.contains_iff_mem, List.mem_filter,
      mem_mentions_iff hread, knows_eq_true_iff, or_comm]
    simp only [hr, true_and]
  · next hr => simp only [hr, false_and, or_false]

end Tables

/-! ### Runs -/

namespace Reader

open Tables

variable {src : Source} {t : Tables} {lines : List Text} {rd : Reader} {r : Routine} {n : Name}

/-- Statement `i` of routine `r`, which is `s`, mentions `n`, and the routine had declared `n` when
the statement was read. -/
def MentionedBy (src : Source) (t : Tables) (lines : List Text) (r : Routine) (i : Nat)
    (s : Statement) (n : Name) : Prop :=
  n ∈ s.mentions ∧ ∃ q, NamedAt src t lines r i n q

/-- An accepted declaration with routine `r` among its targets had `n` in its initializer, and some
target had declared `n`. -/
def InitializedFrom (src : Source) (t : Tables) (lines : List Text) (r : Routine) (n : Name) :
    Prop :=
  ∃ k rd D name t', Accepted src t lines k rd D name t' ∧ .routine r ∈ D.targets ∧
    Mentions D.raw n ∧ ∃ s ∈ D.targets, (rd.tables.quantities s).contains n = true

/-- What is used after a run goes back to a statement that was recorded, or to a declaration. -/
theorem exists_use_of_run (h : ({ tables := t } : Reader).run src 1 lines = .ok rd)
    (ht : (t.body r).used.contains n = false) (hn : (rd.tables.body r).used.contains n = true) :
    (∃ s ∈ (rd.tables.body r).statements, s.action.target? = some n ∨ n ∈ s.action.operands) ∨
      InitializedFrom src t lines r n := by
  refine of_run (P := fun lines rd ↦ (rd.tables.body r).used.contains n = true →
    (∃ s ∈ (rd.tables.body r).statements, s.action.target? = some n ∨ n ∈ s.action.operands) ∨
      InitializedFrom src t lines r n) h (fun hn ↦ ?_) ?_ hn
  · cases ht.symm.trans hn
  intro lines line rd rd' hrun ih heffect hn
  -- what was there one line before is still there
  have hearlier : (rd.tables.body r).statements <+: (rd'.tables.body r).statements →
      (rd.tables.body r).used.contains n = true →
      (∃ s ∈ (rd'.tables.body r).statements, s.action.target? = some n ∨ n ∈ s.action.operands) ∨
        InitializedFrom src t (lines ++ [line]) r n := by
    intro hstatements hused
    rcases ih hused with ⟨s, hs, hmentioned⟩ | ⟨k, rd₀, D, name, t', haccepted, huse⟩
    · exact .inl ⟨s, hstatements.subset hs, hmentioned⟩
    · exact .inr ⟨k, rd₀, D, name, t', haccepted.concat line, huse⟩
  cases heffect with
  | unchanged tables =>
    rw [tables] at hn hearlier ⊢
    exact hearlier (List.prefix_refl _) hn
  | declared accepts =>
    rcases (contains_used_of_declare accepts.declare_eq).1 hn with hn | huse
    · exact hearlier ((grows_of_declare accepts.declare_eq).body r).statements hn
    · exact .inr ⟨_, rd, _, _, _, accepted_last hrun accepts, huse⟩
  | @read r' s reads tables =>
    by_cases hr : r = r'
    · subst hr
      rw [tables, body_setBody_self] at hn hearlier ⊢
      rw [Body.record_statements] at hearlier ⊢
      rcases (Body.contains_used_record _ _ _).1 hn with htarget | hoperand | hn
      · exact .inl ⟨s, by simp, .inl htarget⟩
      · exact .inl ⟨s, by simp, .inr hoperand⟩
      · exact hearlier (List.prefix_append _ _) hn
    · rw [tables, body_setBody_ne _ hr] at hn hearlier ⊢
      exact hearlier (List.prefix_refl _) hn

/-- What the initializer of an accepted declaration mentions is used in the end. -/
theorem InitializedFrom.contains_used (h : InitializedFrom src t lines r n)
    (hrun : ({ tables := t } : Reader).run src 1 lines = .ok rd) :
    (rd.tables.body r).used.contains n = true := by
  obtain ⟨k, rd₀, D, name, t', haccepted, huse⟩ := h
  obtain ⟨line, -, haccepts⟩ := haccepted.line
  exact ((haccepted.grows hrun).body r).used n
    ((contains_used_of_declare haccepts.declare_eq).2 (.inr huse))

/-- What was recorded for a statement is what it mentioned and its routine had declared. -/
theorem ReadFrom.mentionedBy_iff {xs : List Statement} {s : Statement} {b : Body}
    (h : ReadFrom src t 1 lines r xs s b) :
    MentionedBy src t lines r xs.length s n ↔
      s.action.target? = some n ∨ n ∈ s.action.operands := by
  obtain ⟨b₁, -, -, hreads, hnamed⟩ := h.exists_body
  simp only [MentionedBy, hnamed, hreads.mem_operands_iff, Statement.mentions, List.mem_append,
    Option.mem_toList]
  constructor
  · rintro ⟨htarget | hoperand, hknown⟩
    · exact .inl htarget
    · exact .inr ⟨hoperand, hknown⟩
  · rintro (htarget | ⟨hoperand, hknown⟩)
    · exact ⟨.inl htarget, Option.isSome_iff_exists.1 (hreads.contains_target htarget)⟩
    · exact ⟨.inr hoperand, hknown⟩

/-- What a statement mentioned when it was read is used in the end. -/
theorem ReadFrom.contains_used {xs : List Statement} {s : Statement} {b : Body}
    (h : ReadFrom src t 1 lines r xs s b) (hn : MentionedBy src t lines r xs.length s n) :
    b.used.contains n = true := by
  have hrecorded := h.mentionedBy_iff.1 hn
  obtain ⟨rd, line, -, -, -, -, hhistory⟩ := h
  exact Body.contains_used_of_history hhistory
    ((Body.contains_used_record _ _ _).2 (or_assoc.1 (.inl hrecorded)))

end Reader

/-! ### Descriptions -/

namespace Tables

open Reader

variable {src : Source} {text : Text} {comments : List Text} {t : Tables}

/-- **A routine uses exactly what it mentions.** A name counts as used if a statement of the routine
mentioned it and the routine had declared it, or if it was in the initializer of an accepted
declaration, of a local or a parameter, and some target had declared it; and in no other case. -/
theorem used_iff (h : withBuiltins.readDescription src text = .ok (comments, t)) (r : Routine)
    (n : Name) : (t.body r).used.contains n = true ↔
      (∃ i s, (t.body r).statements[i]? = some s ∧
          MentionedBy src withBuiltins (Text.lines text) r i s n) ∨
        InitializedFrom src withBuiltins (Text.lines text) r n := by
  obtain ⟨rd, hrun, rfl⟩ := exists_run_of_readDescription h
  have hread := fun {i s} ↦
    readFrom_of_getElem? (i := i) (s := s) hrun (withBuiltins_statements r)
  constructor
  · intro hn
    refine (exists_use_of_run hrun (by rw [withBuiltins_used]; rfl) hn).imp_left ?_
    rintro ⟨s, hs, hmentioned⟩
    obtain ⟨i, hi⟩ := List.mem_iff_getElem?.1 hs
    obtain ⟨xs, rfl, hfrom⟩ := hread hi
    exact ⟨_, s, hi, hfrom.mentionedBy_iff.2 hmentioned⟩
  · rintro (⟨i, s, hi, hmentioned⟩ | hinitialized)
    · obtain ⟨xs, rfl, hfrom⟩ := hread hi
      exact hfrom.contains_used hmentioned
    · exact hinitialized.contains_used hrun

theorem used_iff_sharedText : ∃ comments t,
    withBuiltins.readDescription sharedSource sharedText = .ok (comments, t) ∧
      ((∃ i s, (t.body .decode).statements[i]? = some s ∧
          MentionedBy sharedSource withBuiltins (Text.lines sharedText) .decode i s ['N']) ∨
        InitializedFrom sharedSource withBuiltins (Text.lines sharedText) .decode ['N']) := by
  obtain ⟨comments, t, hread, -, -, -, hused⟩ := exists_tables_of_sharedText
  exact ⟨comments, t, hread, (used_iff hread .decode ['N']).1 hused⟩

end Tables

end RankMetric
