import Mathlib.Logic.Relation
import RankMetric.Declaration
import RankMetric.Proofs.StatementReading

/-!
# The history of a body

Two things can happen to the body of a routine while a description is read: it gains a quantity, or
a statement is read off it (`Body.Change`). A history is a run of changes. This module says what a
history keeps, whatever its length and order, and knows nothing of lines, places or errors.

* `get?_of_history`: the statements only grow, and a quantity is raised by the assignments to it and
  by nothing else. In particular no quantity is lost, replaced or lowered.
* `exists_reading`: every statement has a moment in the history at which it was read, and its own
  record is the next change. `exists_gain` says the same of a quantity that is new.
* `le_level_of_assigned`: what was assigned to stays declared, at least at the level of the
  assignment. It needs the other two and no induction of its own.
* `read_order_le_of_history`: a statement runs at least at the level of every earlier assignment to
  what it reads.

`Tables.body_declare` is the bridge to declarations: a declaration changes each of its targets by
one gain, also if a target is named twice (`gain_gain`).
-/

namespace RankMetric

open Relation

/-- A member of a list with one more member is the last, or it was a member before. -/
theorem cases_of_concat_eq {α : Type} {l xs ys : List α} {a x : α}
    (h : l ++ [a] = xs ++ x :: ys) : (l = xs ∧ a = x) ∨ ∃ zs, l = xs ++ x :: zs := by
  rcases List.eq_nil_or_concat ys with rfl | ⟨zs, z, rfl⟩
  · obtain ⟨hl, ha⟩ := List.append_inj' h rfl
    exact .inl ⟨hl, List.singleton_inj.1 ha⟩
  · rw [List.concat_eq_append, ← List.cons_append, ← List.append_assoc] at h
    exact .inr ⟨zs, (List.append_inj' h rfl).1⟩

/-! ### Gaining a quantity -/

namespace NameSet

/-- A set of names is determined by its members. -/
theorem ext_contains {u v : NameSet} (h : ∀ n, u.contains n = v.contains n) : u = v := by
  have hget : ∀ (w : NameSet) n, w.get? n = if w.contains n = true then some n else none := by
    intro w n
    rw [NameIndex.contains]
    cases hw : w.get? n with
    | none => rfl
    | some k => simpa using NameIndex.name_of_get? hw
  exact NameIndex.ext_get? fun n ↦ by rw [hget, hget, h]

end NameSet

namespace Body

/-- The body with one more quantity, some names used by its declaration. -/
def gain (b : Body) (q : Quantity) (ns : List Name) : Body :=
  { b.useAll ns with quantities := b.quantities.insert q }

theorem get?_gain (b : Body) (q : Quantity) (ns : List Name) (n : Name) :
    (b.gain q ns).quantities.get? n = if q.name = n then some q else b.quantities.get? n :=
  NameIndex.get?_insert b.quantities q n

theorem contains_used_gain (b : Body) (q : Quantity) (ns : List Name) (n : Name) :
    (b.gain q ns).used.contains n = (ns.contains n || b.used.contains n) :=
  NameSet.contains_insertAll b.used ns n

/-- Gaining a quantity twice is gaining it once. -/
theorem gain_gain (b : Body) (q : Quantity) (ns : List Name) :
    (b.gain q ns).gain q ns = b.gain q ns := by
  have hq : ((b.gain q ns).gain q ns).quantities = (b.gain q ns).quantities := by
    refine NameIndex.ext_get? fun n ↦ ?_
    rw [get?_gain, get?_gain]
    split <;> rfl
  have hu : ((b.gain q ns).gain q ns).used = (b.gain q ns).used := by
    refine NameSet.ext_contains fun n ↦ ?_
    rw [contains_used_gain, contains_used_gain]
    cases ns.contains n <;> rfl
  exact congrArg₂ (fun qs us ↦ (⟨qs, us, b.statements⟩ : Body)) hq hu

end Body

namespace Tables

variable {t t' : Tables} {targets : List Scope} {r : Routine}

/-- Entering a quantity in some scopes makes each routine among them gain it, and leaves the others
alone. -/
theorem body_foldl_insert (q : Quantity) (ns : List Name) (targets : List Scope) (t : Tables) :
    (targets.foldl (fun t s ↦ (t.useAll s ns).insert s q) t).body r =
      if Scope.routine r ∈ targets then (t.body r).gain q ns else t.body r := by
  induction targets generalizing t with
  | nil => rfl
  | cons s targets ih =>
    have hself : (((t.useAll (.routine r) ns).insert (.routine r) q).body r) =
        (t.body r).gain q ns := by
      simp [insert, setQuantities, quantities, useAll, Body.gain]
    have hne : s ≠ .routine r → ((t.useAll s ns).insert s q).body r = t.body r := by
      intro hs
      cases s with
      | params => cases r <;> rfl
      | routine r' =>
        have hr : r ≠ r' := fun h ↦ hs (h ▸ rfl)
        simp [insert, setQuantities, useAll, body_setBody_ne _ hr]
    rw [List.foldl_cons, ih]
    by_cases hs : s = .routine r
    · subst hs
      rw [hself]
      split
      · rw [Body.gain_gain, if_pos List.mem_cons_self]
      · rw [if_pos List.mem_cons_self]
    · rw [hne hs]
      simp [Ne.symm hs]

/-- **A declaration is one gain in each of its targets**, of a quantity that is new there and has
the level and the line it is declared with. -/
theorem body_declare {file raw : Text} {line : Int} {level : Level} {attributes : Name → Attributes}
    {name : Name} (h : t.declare file targets raw line level attributes = .ok (name, t')) :
    ∃ q ns, q.level = level ∧ q.line = line ∧ ∀ r, t'.body r =
      (if Scope.routine r ∈ targets then (t.body r).gain q ns else t.body r) ∧
      (Scope.routine r ∈ targets → (t.body r).quantities.contains q.name = false) := by
  obtain ⟨d, -, hknown, -, -, rfl⟩ := declare_eq_ok_iff.1 h
  obtain ⟨reads, home, hresolve⟩ :=
    t.exists_resolveContribution_eq targets (d.quantity line level (attributes d.name))
  refine ⟨_, d.mentions.filter (t.knows targets), ?_, ?_,
    fun r ↦ ⟨body_foldl_insert (t.resolveContribution targets _) _ _ _, fun hr ↦ ?_⟩⟩
  · rw [hresolve]
    rfl
  · rw [hresolve]
    rfl
  · rw [hresolve]
    exact Bool.eq_false_iff.2 (List.any_eq_false.1 hknown _ hr)

end Tables

/-! ### Changes and histories -/

/-- What a description can declare: no built-in, and nothing that changes within a document. -/
structure Quantity.Declarable (q : Quantity) : Prop where
  level_le : q.level ≤ .perDocument
  line_ne : q.line ≠ builtinLine

/-- What can happen to a body: it gains a quantity that is new, or a statement is read off it. -/
inductive Body.Change (b : Body) : Body → Prop
  | gain {q : Quantity} (ns : List Name) (h : b.quantities.contains q.name = false)
      (hq : q.Declarable) : Change b (b.gain q ns)
  | read {s : Statement} (h : b.Reads s) : Change b (b.record s)

/-- The highest level of the assignments to a name among some statements. -/
def assignedLevel (n : Name) (ss : List Statement) : Level :=
  Level.join ((ss.filter fun s ↦ s.action.target? == some n).map Statement.level)

@[simp] theorem assignedLevel_nil (n : Name) : assignedLevel n [] = .constant := rfl

theorem assignedLevel_append (n : Name) (ss ts : List Statement) :
    assignedLevel n (ss ++ ts) = max (assignedLevel n ss) (assignedLevel n ts) := by
  simp [assignedLevel, Level.join_append]

theorem assignedLevel_singleton (n : Name) (s : Statement) :
    assignedLevel n [s] = if s.action.target? = some n then s.level else .constant := by
  unfold assignedLevel
  split
  · next h => simp [h, Level.constant_le]
  · next h => simp [h]

theorem assignedLevel_le_iff {n : Name} {ss : List Statement} {l : Level} :
    assignedLevel n ss ≤ l ↔ ∀ s ∈ ss, s.action.target? = some n → s.level ≤ l := by
  simp only [assignedLevel, Level.join_le_iff, List.forall_mem_map, List.mem_filter, beq_iff_eq,
    and_imp]

namespace Quantity

theorem raise_constant (q : Quantity) : q.raise .constant = q := by
  rw [raise, max_eq_left (Level.constant_le _)]

theorem raise_raise (q : Quantity) (l l' : Level) : (q.raise l).raise l' = q.raise (max l l') := by
  simp [raise, max_assoc]

end Quantity

namespace Body

/-- The level of a name, if it is declared. -/
def levelOf (b : Body) (n : Name) : Option Level :=
  (b.quantities.get? n).map Quantity.level

variable {b b' : Body} {s : Statement} {xs ys : List Statement}

theorem levelOf_eq_some_iff {n : Name} {l : Level} :
    b.levelOf n = some l ↔ ∃ q, b.quantities.get? n = some q ∧ q.level = l :=
  Option.map_eq_some_iff

theorem levelOf_of_get? {n : Name} {q : Quantity} (h : b.quantities.get? n = some q) :
    b.levelOf n = some q.level :=
  levelOf_eq_some_iff.2 ⟨q, h, rfl⟩

/-- **What a history keeps**: the statements grow at the end, and every quantity is raised by the
assignments to it and otherwise left as it was. -/
theorem get?_of_history (h : ReflTransGen Change b b') :
    ∃ ss, b'.statements = b.statements ++ ss ∧ ∀ n q, b.quantities.get? n = some q →
      b'.quantities.get? n = some (q.raise (assignedLevel n ss)) := by
  induction h with
  | refl => exact ⟨[], by simp, fun n q hq ↦ by rw [assignedLevel_nil, q.raise_constant, hq]⟩
  | tail _ hstep ih =>
    obtain ⟨ss, hss, hget⟩ := ih
    cases hstep with
    | @gain p ns hnew _ =>
      refine ⟨ss, hss, fun n q hq ↦ ?_⟩
      -- the quantity gained is new, so it is not the one that `n` names
      have hne : p.name ≠ n := by
        rintro rfl
        rw [NameIndex.contains, hget _ q hq] at hnew
        cases hnew
      rw [get?_gain, if_neg hne, hget n q hq]
    | @read s hs =>
      refine ⟨ss ++ [s], by rw [record_statements, hss, List.append_assoc], fun n q hq ↦ ?_⟩
      rw [get?_record, hget n q hq, assignedLevel_append, assignedLevel_singleton]
      split
      · rw [Option.map_some, Quantity.raise_raise]
      · rw [max_eq_left (Level.constant_le _)]

/-- A history keeps the names that are used. -/
theorem contains_used_of_history (h : ReflTransGen Change b b') {n : Name}
    (hn : b.used.contains n = true) : b'.used.contains n = true := by
  induction h with
  | refl => exact hn
  | tail _ hstep ih =>
    cases hstep with
    | gain ns _ _ => rw [contains_used_gain, ih, Bool.or_true]
    | read _ => exact (contains_used_record _ _ _).2 (.inr (.inr ih))

/-- **Every statement was read at some moment**, when the statements before it were those read so
far, and its record is the next change. -/
theorem exists_reading (h : ReflTransGen Change b b')
    (hs : b'.statements = b.statements ++ xs ++ s :: ys) :
    ∃ b₁, ReflTransGen Change b b₁ ∧ b₁.statements = b.statements ++ xs ∧ b₁.Reads s ∧
      ReflTransGen Change (b₁.record s) b' := by
  induction h generalizing ys with
  | refl =>
    have hlen := congrArg List.length hs
    simp at hlen
  | @tail b₁ b₂ hrun hstep ih =>
    cases hstep with
    | gain ns hnew hq =>
      obtain ⟨c, hc, hxs, hreads, hrest⟩ := ih hs
      exact ⟨c, hc, hxs, hreads, hrest.tail (.gain ns hnew hq)⟩
    | @read s' hread =>
      rw [record_statements] at hs
      rcases cases_of_concat_eq hs with ⟨hxs, rfl⟩ | ⟨zs, hinit⟩
      · exact ⟨b₁, hrun, hxs, hread, .refl⟩
      · obtain ⟨c, hc, hxs, hreads, hrest⟩ := ih hinit
        exact ⟨c, hc, hxs, hreads, hrest.tail (.read hread)⟩

/-- **Every quantity that is new in a history was declared at some moment**, by a line of the
description, and its gain is the next change. -/
theorem exists_gain {n : Name} (h : ReflTransGen Change b b')
    (hb : b.quantities.contains n = false) (hb' : b'.quantities.contains n = true) :
    ∃ c q ns, ReflTransGen Change b c ∧ q.name = n ∧ q.Declarable ∧
      ReflTransGen Change (c.gain q ns) b' := by
  induction h with
  | refl => cases hb.symm.trans hb'
  | @tail b₁ b₂ hrun hstep ih =>
    cases hn : b₁.quantities.contains n with
    | true =>
      obtain ⟨c, q, ns, hc, hname, hq, hrest⟩ := ih hn
      exact ⟨c, q, ns, hc, hname, hq, hrest.tail hstep⟩
    | false =>
      cases hstep with
      | @gain q ns _ hq =>
        refine ⟨b₁, q, ns, hrun, ?_, hq, .refl⟩
        by_contra hne
        rw [NameIndex.contains, get?_gain, if_neg hne, ← NameIndex.contains, hn] at hb'
        cases hb'
      | read _ =>
        rw [contains_record, hn] at hb'
        cases hb'

/-- A history keeps which of the declared names belong to constant built-ins. -/
theorem isFixed_of_history {n : Name} (h : ReflTransGen Change b b')
    (hn : b.quantities.contains n = true) : b'.isFixed n = b.isFixed n := by
  obtain ⟨q, hq⟩ := Option.isSome_iff_exists.1 hn
  obtain ⟨ss, -, hget⟩ := get?_of_history h
  rw [isFixed, isFixed, hget n q hq, hq]
  rfl

/-- The target of a statement is declared. -/
theorem Reads.contains_target {n : Name} (h : b.Reads s) (hn : s.action.target? = some n) :
    b.quantities.contains n = true := by
  obtain ⟨-, -, -, -, -, hknown, -⟩ := h.recognised.exists_tokens hn
  exact hknown

/-- After a statement was read, its target is declared at least at its level. -/
theorem le_level_of_target {t : Name} (hreads : b.Reads s) (ht : s.action.target? = some t)
    (h : ReflTransGen Change (b.record s) b') :
    ∃ q, b'.quantities.get? t = some q ∧ s.level ≤ q.level := by
  obtain ⟨q, hq⟩ := Option.isSome_iff_exists.1 (hreads.contains_target ht)
  obtain ⟨ss, -, hget⟩ := get?_of_history h
  have hrecord : (b.record s).quantities.get? t = some (q.raise s.level) := by
    rw [get?_record, if_pos ht, hq, Option.map_some]
  exact ⟨_, hget t _ hrecord, (le_max_right _ _).trans (le_max_left _ _)⟩

/-- **What was assigned to stays declared**, at least at the level of the assignment. -/
theorem le_level_of_assigned {n : Name} (h : ReflTransGen Change b b')
    (hb' : b'.statements = b.statements ++ xs) (hs : s ∈ xs) (hn : s.action.target? = some n) :
    ∃ q, b'.quantities.get? n = some q ∧ s.level ≤ q.level := by
  obtain ⟨ys, zs, rfl⟩ := List.append_of_mem hs
  rw [← List.append_assoc] at hb'
  obtain ⟨c, -, -, hreads, hrest⟩ := exists_reading h hb'
  exact le_level_of_target hreads hn hrest

/-- A statement reaches a level exactly if a quantity that it reads has it. -/
theorem Reads.le_level_iff {l : Level} (h : b.Reads s) :
    l ≤ s.level ↔ l = .constant ∨
      ∃ n ∈ s.operandTokens, ∃ q, b.quantities.get? n = some q ∧ l ≤ q.level := by
  rw [h.level_eq, Quantity.joinLevels, Level.le_join_iff]
  refine or_congr_right ⟨?_, ?_⟩
  · rintro ⟨k, hk, hle⟩
    obtain ⟨q, hq, rfl⟩ := List.mem_map.1 hk
    obtain ⟨hn, hget⟩ := Quantities.mem_namedBy.1 hq
    exact ⟨q.name, hn, q, hget, hle⟩
  · rintro ⟨n, hn, q, hq, hle⟩
    obtain rfl := NameIndex.name_of_get? hq
    exact ⟨q.level, List.mem_map_of_mem (Quantities.mem_namedBy.2 ⟨hn, hq⟩), hle⟩

/-- A statement runs at least at the level of each quantity it reads. -/
theorem Reads.level_le {n : Name} {q : Quantity} (h : b.Reads s) (hn : n ∈ s.operandTokens)
    (hq : b.quantities.get? n = some q) : q.level ≤ s.level :=
  h.le_level_iff.2 (.inr ⟨n, hn, q, hq, le_rfl⟩)

/-- **Statements in the order of reading run in the order of their levels**: if one assigns to a
name and a later one reads it, the later one has no lower level. -/
theorem read_order_le_of_history (h : ReflTransGen Change b b') (hb : b.statements = []) :
    b'.statements.Pairwise fun s s' ↦ ∀ t, s.action.target? = some t → t ∈ s'.operandTokens →
      s.level ≤ s'.level := by
  induction h with
  | refl =>
    rw [hb]
    exact .nil
  | @tail b₁ b₂ hrun hstep ih =>
    cases hstep with
    | gain ns _ _ => exact ih
    | @read s' hread =>
      rw [record_statements, List.pairwise_append]
      refine ⟨ih, List.pairwise_singleton _ _, fun s hs s'' hs'' t ht hmem ↦ ?_⟩
      obtain rfl := List.mem_singleton.1 hs''
      -- the target of the earlier statement has kept its level since
      have hb₁ : b₁.statements = b.statements ++ b₁.statements := by rw [hb, List.nil_append]
      obtain ⟨q, hq, hle⟩ := le_level_of_assigned hrun hb₁ hs ht
      exact hle.trans (hread.level_le hmem hq)

end Body

end RankMetric
