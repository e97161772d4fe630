import RankMetric.Proofs.Compilation

/-!
# How deep a routine goes

The generated text of `decode` has a loop over documents and in it one over terms, that of `post`
only the first. So there is a level beyond which nothing in a routine may go, `Routine.deepest`.

No check anywhere holds levels below it. It is an invariant of all that can happen to a body
(`Body.Within`): a description declares at level 2 at most, a statement takes the levels of what it
reads, an assignment raises its target to the level of a statement, and propagation hands on levels
that are there. What the built-ins bring is the only fact on data (`Builtin.level_le_deepest`): the
one built-in that changes with the term is not seen by `post`.

* `Body.Within.history`: every history of a body keeps the invariant.
* `Metric.within_of_compile`: it holds of both bodies of a compiled metric.
-/

namespace RankMetric

open Relation

/-- The narrowest loop that the generated text of a routine has. -/
def Routine.deepest : Routine → Level
  | .decode => .perTerm
  | .post => .perDocument

theorem Routine.perDocument_le_deepest (r : Routine) : .perDocument ≤ r.deepest := by
  cases r <;> decide

theorem Routine.deepest_le_perTerm (r : Routine) : r.deepest ≤ .perTerm := by
  cases r <;> decide

/-! ### An invariant of bodies -/

namespace Body

/-- No quantity and no statement of a body is above a level. -/
structure Within (l : Level) (b : Body) : Prop where
  quantities : ∀ n q, b.quantities.get? n = some q → q.level ≤ l
  statements : ∀ s ∈ b.statements, s.level ≤ l

variable {b b' : Body} {l : Level} {q : Quantity} {s : Statement}

theorem Within.mono {l' : Level} (h : b.Within l) (hl : l ≤ l') : b.Within l' where
  quantities n q hq := (h.quantities n q hq).trans hl
  statements s hs := (h.statements s hs).trans hl

theorem Within.gain (h : b.Within l) (hq : q.level ≤ l) (ns : List Name) :
    (b.gain q ns).Within l where
  quantities n p hp := by
    rw [get?_gain] at hp
    split at hp
    · obtain rfl := Option.some.inj hp
      exact hq
    · exact h.quantities n p hp
  statements := h.statements

/-- A statement is at the level of something that it reads, if it reads anything. -/
theorem Within.level_le (h : b.Within l) (hs : b.Reads s) : s.level ≤ l := by
  rw [hs.level_eq, Quantity.joinLevels, Level.join_le_iff]
  intro k hk
  obtain ⟨q, hq, rfl⟩ := List.mem_map.1 hk
  exact h.quantities _ q (Quantities.mem_namedBy.1 hq).2

theorem Within.record (h : b.Within l) (hs : b.Reads s) : (b.record s).Within l where
  quantities n p hp := by
    rw [get?_record] at hp
    split at hp
    · obtain ⟨q, hq, rfl⟩ := Option.map_eq_some_iff.1 hp
      exact max_le (h.quantities n q hq) (h.level_le hs)
    · exact h.quantities n p hp
  statements u hu := by
    rw [record_statements, List.mem_append, List.mem_singleton] at hu
    rcases hu with hu | rfl
    · exact h.statements u hu
    · exact h.level_le hs

/-- **No history leads beyond a level** that the body was within, unless it is that of the body's
own declarations. -/
theorem Within.history (h : b.Within l) (hl : .perDocument ≤ l)
    (hb : ReflTransGen Change b b') : b'.Within l := by
  induction hb with
  | refl => exact h
  | tail _ hstep ih =>
    cases hstep with
    | gain ns _ hq => exact ih.gain (hq.level_le.trans hl) ns
    | read hs => exact ih.record hs

end Body

/-! ### The built-ins -/

/-- A routine sees no built-in that changes in a loop it does not have. -/
theorem Builtin.level_le_deepest {b : Builtin} (hb : b ∈ Builtin.all) {r : Routine}
    (hr : .routine r ∈ b.scopes) : b.level ≤ r.deepest := by
  have hall : ∀ b ∈ Builtin.all, b.level ≤ .perTerm ∧
      (b.decodeOnly = false → b.level ≤ .perDocument) := by decide +kernel
  obtain ⟨hdecode, hpost⟩ := hall b hb
  cases r with
  | decode => exact hdecode
  | post =>
    refine hpost (Bool.eq_false_iff.2 fun honly ↦ ?_)
    rw [Builtin.scopes, if_pos honly] at hr
    simp at hr

namespace Tables

variable {t t' : Tables} {r : Routine} {l : Level}

theorem within_declare {file raw : Text} {targets : List Scope} {line : Int} {level : Level}
    {attributes : Name → Attributes} {name : Name}
    (h : t.declare file targets raw line level attributes = .ok (name, t'))
    (ht : (t.body r).Within l) (hlevel : .routine r ∈ targets → level ≤ l) :
    (t'.body r).Within l := by
  obtain ⟨q, ns, hq, -, hbody⟩ := body_declare h
  rw [(hbody r).1]
  split
  · next hmem => exact ht.gain (hq.trans_le (hlevel hmem)) ns
  · exact ht

/-- The built-ins of a routine are within its loops. -/
theorem withBuiltins_within (r : Routine) : (withBuiltins.body r).Within r.deepest := by
  have hempty : (empty.body r).Within r.deepest := by
    cases r <;> exact ⟨fun n q hq ↦ (nomatch hq), fun s hs ↦ (nomatch hs)⟩
  refine of_reached_foldlM (P := fun t ↦ (t.body r).Within r.deepest) ?_ hempty
  intro b hb t t' ht hdeclare
  obtain ⟨name, hdeclare⟩ := declare_of_declareBuiltin hdeclare
  exact within_declare hdeclare ht (Builtin.level_le_deepest hb)

/-- A description leads to no level beyond that of its own declarations. -/
theorem within_of_readDescription {src : Source} {text : Text} {comments : List Text}
    (h : t.readDescription src text = .ok (comments, t')) (ht : (t.body r).Within l)
    (hl : .perDocument ≤ l) : (t'.body r).Within l :=
  ht.history hl (history_of_readDescription h r)

end Tables

/-! ### Propagation -/

/-- Propagation hands on levels that are there. -/
theorem Propagation.level_apply_le {p : Propagation} {ss : List Statement} {l : Level}
    (h : ∀ s ∈ ss, s.level ≤ l) : ∀ s ∈ p.apply ss, s.level ≤ l := by
  intro s hs
  obtain ⟨i, hi⟩ := List.mem_iff_getElem?.1 hs
  obtain ⟨x, hx, hlevel⟩ := (isGreatest_level_apply hi).1
  exact hlevel.symm.trans_le (h x hx.mem)

/-- **Everything in a compiled metric is within the loops of its routine.** -/
theorem Metric.within_of_compile {src : Source} {p : Propagation} {text : Text} {m : Metric}
    (h : compile src p text = .ok m) (r : Routine) : (m.body r).Within r.deepest := by
  obtain ⟨comments, t, hread, rfl⟩ := readDescription_of_compile h
  have ht := Tables.within_of_readDescription hread (Tables.withBuiltins_within r)
    r.perDocument_le_deepest
  refine ⟨?_, ?_⟩
  · rw [body_ofTables_quantities]
    exact ht.quantities
  · rw [body_ofTables_statements]
    exact Propagation.level_apply_le ht.statements

end RankMetric
