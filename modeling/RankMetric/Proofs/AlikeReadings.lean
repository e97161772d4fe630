import RankMetric.Proofs.LoopDepth
import RankMetric.Proofs.ReaderSteps

/-!
# Two readings side by side

Two descriptions that differ in one place are read line by line beside each other from there on.
This module says that what was alike stays alike: the same declarations are accepted, the same lines
are assignments, and the same names are used.

How much is alike is a `View`. By the full view two quantities are the same but for the lines they
are declared on, and statements agree in their levels, their tokens and what they do. By names alone
levels are left out and statements are only counted. A level decides about one thing besides other
levels, whether a quantity can be read, and no quantity of a description is an accumulator
(`Body.Within.readable`). That is why readings that are alike by names alone fail alike too.

* `Tables.Alike.declare`: a line that can be declared in one can be declared in the other.
* `Body.Alike.assigned`, `Body.Alike.evaluated`: statements with the same tokens are read alike. By
  names alone those are that mention the same names (`Body.Alike.record_names`).
* `Reader.Alike.step`, `Reader.Alike.run`: so are lines, one and many.
* `Tables.readLines_of_alike`: if two descriptions are alike up to some place and have the same
  lines after it, one is accepted if the other is.
-/

namespace RankMetric

open Text

/-! ### Views -/

/-- What two readings are compared by. -/
inductive View where
  /-- Everything but the lines on which it stands. -/
  | full
  /-- What is declared and used, at any level, and the number of statements. -/
  | names

/-- What a view shows of a level. -/
def View.level : View → Level → Level
  | full, l => l
  | names, _ => .constant

theorem View.level_max (v : View) (l k : Level) :
    v.level (max l k) = max (v.level l) (v.level k) := by
  cases v <;> simp [View.level]

theorem View.level_join (v : View) (ls : List Level) :
    v.level (Level.join ls) = Level.join (ls.map v.level) := by
  induction ls with
  | nil => cases v <;> rfl
  | cons l ls ih => rw [Level.join_cons, v.level_max, ih, List.map_cons, Level.join_cons]

/-! ### Quantities -/

namespace Quantity

/-- What a view shows of a quantity. -/
def seen (v : View) (q : Quantity) : Quantity :=
  { q with
    line := bif q.isBuiltin then builtinLine else 0
    level := v.level q.level }

variable {v : View} {q q' : Quantity}

theorem seen_name (v : View) (q : Quantity) : (q.seen v).name = q.name := rfl

theorem name_eq_of_seen (h : q.seen v = q'.seen v) : q.name = q'.name :=
  (congrArg Quantity.name h :)

theorem isBuiltin_seen (v : View) (q : Quantity) : (q.seen v).isBuiltin = q.isBuiltin := by
  rw [seen, isBuiltin]
  cases hq : q.isBuiltin <;> rfl

theorem isFixed_eq_of_seen (h : q.seen v = q'.seen v) :
    (q.isBuiltin && q.isConst) = (q'.isBuiltin && q'.isConst) := by
  have hconst : q.isConst = q'.isConst := (congrArg Quantity.isConst h :)
  rw [← isBuiltin_seen v q, ← isBuiltin_seen v q', h, hconst]

/-- What a contribution reads is seen and does not change what else is seen. -/
theorem seen_reading (h : q.seen v = q'.seen v) (ns : List Name) (home : Option Routine) :
    ({ q with contributionReads := ns, contributionHome := home } : Quantity).seen v =
      ({ q' with contributionReads := ns, contributionHome := home } : Quantity).seen v :=
  (congrArg (fun p : Quantity ↦ { p with contributionReads := ns, contributionHome := home }) h :)

theorem seen_raise (v : View) (q : Quantity) (l : Level) :
    (q.raise l).seen v = (q.seen v).raise (v.level l) := by
  simp only [seen, raise, v.level_max]
  rfl

end Quantity

namespace Quantities

variable {v : View} {qs qs' : Quantities}

/-- Whether a view shows the same of two scopes. -/
def Alike (v : View) (qs qs' : Quantities) : Prop :=
  ∀ n, (qs.get? n).map (Quantity.seen v) = (qs'.get? n).map (Quantity.seen v)

theorem Alike.refl (v : View) (qs : Quantities) : qs.Alike v qs :=
  fun _ ↦ rfl

theorem Alike.contains (h : qs.Alike v qs') (n : Name) : qs.contains n = qs'.contains n := by
  rw [NameIndex.contains, NameIndex.contains, ← Option.isSome_map, h n, Option.isSome_map]

theorem Alike.insert {q q' : Quantity} (h : qs.Alike v qs') (hq : q.seen v = q'.seen v) :
    Alike v (NameIndex.insert qs q) (NameIndex.insert qs' q') := by
  intro n
  rw [NameIndex.get?_insert, NameIndex.get?_insert, Quantity.name_eq_of_seen hq]
  split
  · exact congrArg some hq
  · exact h n

/-- Tokens name the same in both. -/
theorem Alike.map_namedBy (h : qs.Alike v qs') (ts : List Text) :
    (qs.namedBy ts).map (Quantity.seen v) = (qs'.namedBy ts).map (Quantity.seen v) := by
  rw [namedBy, namedBy, List.map_filterMap, List.map_filterMap]
  exact congrArg (fun f ↦ ts.filterMap f) (funext h)

theorem Alike.map_name_namedBy (h : qs.Alike v qs') (ts : List Text) :
    (qs.namedBy ts).map Quantity.name = (qs'.namedBy ts).map Quantity.name := by
  have hname := congrArg (List.map Quantity.name) (h.map_namedBy ts)
  rwa [List.map_map, List.map_map] at hname

theorem Alike.level_joinLevels (h : qs.Alike v qs') (ts : List Text) :
    v.level (Quantity.joinLevels (qs.namedBy ts)) =
      v.level (Quantity.joinLevels (qs'.namedBy ts)) := by
  have hlevel := congrArg (List.map Quantity.level) (h.map_namedBy ts)
  rw [List.map_map, List.map_map] at hlevel
  rw [Quantity.joinLevels, Quantity.joinLevels, v.level_join, v.level_join, List.map_map,
    List.map_map]
  exact congrArg Level.join hlevel

end Quantities

/-! ### Statements and bodies -/

namespace Statement

/-- What was read as a statement: its level, its tokens and what it does. -/
def reading (s : Statement) : Level × List Text × Action :=
  (s.level, s.tokens, s.action)

/-- What a view shows of a statement. -/
def seen : View → Statement → Option (Level × List Text × Action)
  | .full, s => some s.reading
  | .names, _ => none

theorem seen_eq {v : View} {s s' : Statement} (hlevel : v.level s.level = v.level s'.level)
    (htokens : s.tokens = s'.tokens) (haction : s.action = s'.action) : s.seen v = s'.seen v := by
  cases v with
  | full =>
    rw [seen, seen, reading, reading, htokens, haction]
    exact congrArg (fun l ↦ some (l, s'.tokens, s'.action)) hlevel
  | names => rfl

end Statement

/-- Whether two assignments are the same but for the blanks between their tokens and the lines on
which they began. -/
structure Assignment.Alike (a a' : Assignment) : Prop where
  target : a.target = a'.target
  operator : a.operator = a'.operator
  tokens : a.tokens.map Token.text = a'.tokens.map Token.text
  text : tokenTexts a.text = tokenTexts a'.text

theorem Assignment.Alike.withLine (a : Assignment) (n : Nat) :
    a.Alike { a with line := n } :=
  ⟨rfl, rfl, rfl, rfl⟩

namespace Body

/-- Whether a view shows the same of two bodies. -/
structure Alike (v : View) (b b' : Body) : Prop where
  quantities : b.quantities.Alike v b'.quantities
  used : b.used = b'.used
  statements : b.statements.map (Statement.seen v) = b'.statements.map (Statement.seen v)

variable {v : View} {b b' : Body} {s s' : Statement} {a a' : Assignment}

theorem Alike.refl (v : View) (b : Body) : b.Alike v b :=
  ⟨.refl v _, rfl, rfl⟩

theorem Alike.isFixed (h : b.Alike v b') (n : Name) : b.isFixed n = b'.isFixed n := by
  have hget := h.quantities n
  rw [Body.isFixed, Body.isFixed]
  cases hq : b.quantities.get? n with
  | none =>
    rw [hq] at hget
    rw [Option.map_eq_none_iff.1 hget.symm]
  | some q =>
    rw [hq] at hget
    obtain ⟨q', hq', hseen⟩ := Option.map_eq_some_iff.1 hget.symm
    rw [hq', Option.any_some, Option.any_some, Quantity.isFixed_eq_of_seen hseen]

/-- **Statements that are seen to be the same are recorded alike.** -/
theorem Alike.record (h : b.Alike v b') (hlevel : v.level s.level = v.level s'.level)
    (htokens : s.tokens = s'.tokens) (haction : s.action = s'.action) :
    (b.record s).Alike v (b'.record s') where
  quantities n := by
    rw [get?_record, get?_record, ← haction]
    split
    · rw [Option.map_map, Option.map_map]
      have hraise : ∀ s : Statement, Quantity.seen v ∘ Quantity.raise s.level =
          Quantity.raise (v.level s.level) ∘ Quantity.seen v :=
        fun s ↦ funext fun q ↦ q.seen_raise v s.level
      rw [hraise, hraise, ← Option.map_map, ← Option.map_map, h.quantities n, hlevel]
    · exact h.quantities n
  used := by
    refine NameSet.ext_contains fun n ↦ Bool.eq_iff_iff.2 ?_
    rw [contains_used_record, contains_used_record, haction, h.used]
  statements := by
    rw [record_statements, record_statements, List.map_append, List.map_append, h.statements]
    exact congrArg (fun x ↦ _ ++ [x]) (Statement.seen_eq hlevel htokens haction)

/-- By names alone it does not matter which of the names that a statement mentions is its target. -/
theorem Alike.record_names (h : b.Alike .names b')
    (hnames : ∀ n, (s.action.target? = some n ∨ n ∈ s.action.operands) ↔
      (s'.action.target? = some n ∨ n ∈ s'.action.operands)) :
    (b.record s).Alike .names (b'.record s') where
  quantities n := by
    have hraise : ∀ (b : Body) (s : Statement),
        ((b.record s).quantities.get? n).map (Quantity.seen .names) =
          (b.quantities.get? n).map (Quantity.seen .names) := by
      intro b s
      rw [get?_record]
      split
      · rw [Option.map_map]
        refine congrArg (fun f ↦ (b.quantities.get? n).map f) (funext fun q ↦ ?_)
        exact (q.seen_raise .names s.level).trans (Quantity.raise_constant _)
      · rfl
    rw [hraise, hraise, h.quantities n]
  used := by
    refine NameSet.ext_contains fun n ↦ Bool.eq_iff_iff.2 ?_
    rw [contains_used_record, contains_used_record, ← or_assoc, ← or_assoc, hnames, h.used]
  statements := by
    rw [record_statements, record_statements, List.map_append, List.map_append, h.statements]
    rfl

/-- Complete assignments with the same tokens are read alike. -/
theorem Alike.assigned (h : b.Alike v b') (ha : a.Alike a') :
    (b.record (b.assigned a)).Alike v (b'.record (b'.assigned a')) := by
  refine h.record ?_ ?_ ?_
  · simp only [Body.assigned, Quantities.named_eq_namedBy, ← ha.tokens]
    exact h.quantities.level_joinLevels _
  · simp only [Body.assigned, Statement.tokens, tokenTexts_trim, ha.text]
  · simp only [Body.assigned, Quantities.named_eq_namedBy, ← ha.tokens, ha.target, ha.operator,
      h.quantities.map_name_namedBy]

/-- A line that is no assignment is read alike. -/
theorem Alike.evaluated (h : b.Alike v b') (n n' : Nat) (text : Text) :
    (b.record (b.evaluated n text)).Alike v (b'.record (b'.evaluated n' text)) := by
  refine h.record ?_ rfl ?_
  · simp only [Body.evaluated, Quantities.named_eq_namedBy]
    exact h.quantities.level_joinLevels _
  · simp only [Body.evaluated, Quantities.named_eq_namedBy, h.quantities.map_name_namedBy]

theorem Alike.remark (h : b.Alike v b') (n n' : Nat) (text : Text) :
    (b.remark n text).Alike v (b'.remark n' text) where
  quantities := h.quantities
  used := h.used
  statements := by
    rw [Body.remark, Body.remark, push_statements, push_statements, List.map_append,
      List.map_append, h.statements]
    exact congrArg (fun x ↦ _ ++ [x]) (Statement.seen_eq rfl rfl rfl)

theorem Alike.begin?_eq (h : b.Alike v b') {n : Nat} (n' : Nat) {text : Text} :
    Assignment.begin? b'.quantities n' text =
      (Assignment.begin? b.quantities n text).map fun a ↦ { a with line := n' } := by
  unfold Assignment.begin?
  split
  · rw [h.quantities.contains]
    split <;> rfl
  · rfl

/-- Below the level of accumulators everything can be read. -/
theorem Within.readable (h : b.Within .perTerm) (ts : List Token) : b.Readable ts := by
  intro q hq
  rw [Quantities.named_eq_namedBy] at hq
  have hle := h.quantities _ q (Quantities.mem_namedBy.1 hq).2
  refine Bool.eq_false_iff.2 fun hwrite ↦ ?_
  rw [beq_iff_eq.1 hwrite] at hle
  exact absurd hle (by decide)

end Body

/-! ### Declarations -/

namespace Tables

/-- Whether a view shows the same of two tables. -/
structure Alike (v : View) (t t' : Tables) : Prop where
  params : t.params.Alike v t'.params
  body : ∀ r, (t.body r).Alike v (t'.body r)

variable {v : View} {t t' t₁ : Tables} {targets : List Scope}

theorem Alike.refl (v : View) (t : Tables) : t.Alike v t :=
  ⟨.refl v _, fun _ ↦ .refl v _⟩

theorem Alike.quantities (h : t.Alike v t') (s : Scope) :
    (t.quantities s).Alike v (t'.quantities s) := by
  cases s with
  | params => exact h.params
  | routine r => exact (h.body r).quantities

theorem Alike.setBody {b b' : Body} (h : t.Alike v t') (r : Routine) (hb : b.Alike v b') :
    (t.setBody r b).Alike v (t'.setBody r b') where
  params := by
    rw [params_setBody, params_setBody]
    exact h.params
  body r' := by
    by_cases hr : r' = r
    · rw [hr, body_setBody_self, body_setBody_self]
      exact hb
    · rw [body_setBody_ne _ hr, body_setBody_ne _ hr]
      exact h.body r'

/-- Entering a quantity in one scope keeps tables alike. -/
theorem Alike.insert {q q' : Quantity} (h : t.Alike v t') (ns : List Name) (s : Scope)
    (hq : q.seen v = q'.seen v) :
    ((t.useAll s ns).insert s q).Alike v ((t'.useAll s ns).insert s q') := by
  cases s with
  | params =>
    refine ⟨h.params.insert hq, fun r ↦ ?_⟩
    cases r
    · exact h.body .decode
    · exact h.body .post
  | routine r =>
    have hentered : ∀ (t : Tables) (q : Quantity),
        (t.useAll (.routine r) ns).insert (.routine r) q = t.setBody r ((t.body r).gain q ns) := by
      intro t q
      cases r <;> rfl
    rw [hentered, hentered]
    refine h.setBody r ⟨(h.body r).quantities.insert hq, ?_, (h.body r).statements⟩
    exact congrArg (fun u : NameSet ↦ u.insertAll ns) (h.body r).used

theorem Alike.knows (h : t.Alike v t') (targets : List Scope) (n : Name) :
    t.knows targets n = t'.knows targets n := by
  rw [Tables.knows, Tables.knows]
  exact congrArg (fun f ↦ targets.any f) (funext fun s ↦ (h.quantities s).contains n)

theorem Alike.resolveContribution {q q' : Quantity} (h : t.Alike v t') (targets : List Scope)
    (hq : q.seen v = q'.seen v) :
    (t.resolveContribution targets q).seen v = (t'.resolveContribution targets q').seen v := by
  have hcontribution : q.contribution = q'.contribution := (congrArg Quantity.contribution hq :)
  have hreads : ∀ (s : Scope) (words : List Name),
      (words.filter fun w ↦ w == q.name || (t.quantities s).contains w) =
        words.filter fun w ↦ w == q'.name || (t'.quantities s).contains w := by
    intro s words
    rw [Quantity.name_eq_of_seen hq]
    exact congrArg (fun f ↦ words.filter fun w ↦ w == q'.name || f w)
      (funext (h.quantities s).contains)
  unfold Tables.resolveContribution
  split
  · next first text hfirst htext =>
    rw [hcontribution] at htext
    dsimp only
    rw [hreads]
    split
    · next first' text' hfirst' htext' =>
      obtain rfl := Option.some.inj (hfirst.symm.trans hfirst')
      obtain rfl := Option.some.inj (htext.symm.trans htext')
      exact Quantity.seen_reading hq _ _
    · next hnone => exact (hnone first text hfirst htext).elim
  · next hnone =>
    rw [hcontribution] at hnone
    split
    · next first text hfirst htext => exact (hnone first text hfirst htext).elim
    · exact hq

theorem Alike.enter {q q' : Quantity} (h : t.Alike v t') (targets : List Scope)
    (d : DeclarationLine) (hq : q.seen v = q'.seen v) :
    (t.enter targets d q).Alike v (t'.enter targets d q') := by
  have hknown : d.mentions.filter (t.knows targets) = d.mentions.filter (t'.knows targets) :=
    congrArg (fun f ↦ d.mentions.filter f) (funext (h.knows targets))
  have hresolved := h.resolveContribution targets hq
  rw [Tables.enter, Tables.enter, hknown]
  -- what is entered has been determined by now, so the scopes can be gone through one by one
  clear hknown
  generalize d.mentions.filter (t'.knows targets) = ns
  generalize t.resolveContribution targets q = p at hresolved ⊢
  generalize t'.resolveContribution targets q' = p' at hresolved ⊢
  induction targets generalizing t t' with
  | nil => exact h
  | cons s targets ih => exact ih (h.insert ns s hresolved)

/-- **A line that can be declared in one can be declared in the other.** -/
theorem Alike.declare {file raw : Text} {line line' : Int} {level : Level}
    {attributes : Name → Attributes} {name : Name} (h : t.Alike v t')
    (hline : (line == builtinLine) = (line' == builtinLine))
    (hd : t.declare file targets raw line level attributes = .ok (name, t₁)) :
    ∃ t₁', t'.declare file targets raw line' level attributes = .ok (name, t₁') ∧
      t₁.Alike v t₁' := by
  obtain ⟨d, hread, hknown, hterminated, rfl, rfl⟩ := declare_eq_ok_iff.1 hd
  rw [h.knows] at hknown
  refine ⟨_, declare_eq_ok_iff.2 ⟨d, hread, hknown, hterminated, rfl, rfl⟩, h.enter targets d ?_⟩
  simp only [DeclarationLine.quantity, Quantity.seen, Quantity.isBuiltin, hline]

end Tables

/-! ### The reader -/

/-- A place with another line on which an open assignment began. -/
def Place.startingAt (n : Nat) : Place → Place
  | .assignment r a => .assignment r { a with line := n }
  | p => p

/-- Whether a description may end at a place does not depend on the line. -/
theorem Place.startingAt_eq_outside_iff (p : Place) (n : Nat) :
    p.startingAt n = .outside ↔ p = .outside := by
  cases p <;> simp [startingAt]

namespace Reader

/-- Whether a view shows the same of two readers, whatever their comments. -/
structure Alike (v : View) (rd rd' : Reader) : Prop where
  tables : rd.tables.Alike v rd'.tables
  place : ∃ n, rd'.place = rd.place.startingAt n

variable {v : View} {src : Source} {rd rd' rd₁ : Reader} {r : Routine} {n : Nat} {line : Text}
  {lines : List Text} {a : Assignment}

theorem Alike.settled {b b' : Body} (h : rd.Alike v rd') (hb : b.Alike v b') :
    (rd.settled r b).Alike v (rd'.settled r b') :=
  ⟨h.tables.setBody r hb, 0, rfl⟩

/-- An assignment that is complete can be read if its target is not fixed. -/
theorem advance_of_isComplete (hcomplete : a.isComplete = true)
    (hfixed : (rd.tables.body r).isFixed a.target = false)
    (hreadable : (rd.tables.body r).Readable a.tokens) :
    rd.advance src r a =
      .ok (rd.settled r ((rd.tables.body r).record ((rd.tables.body r).assigned a))) := by
  rw [advance, if_pos hcomplete, Body.assign_eq_ok_iff.2 ⟨hfixed, hreadable, rfl⟩]
  rfl

/-- An assignment that is not complete stays open. -/
theorem advance_of_not_isComplete (hcomplete : a.isComplete = false) :
    rd.advance src r a = .ok { rd with place := .assignment r a } :=
  if_neg (by simp [hcomplete])

/-- Going on with an assignment is alike in both. -/
theorem Alike.advance (h : rd.Alike v rd') (hwithin : (rd'.tables.body r).Within .perTerm)
    (n : Nat) (hadvance : rd.advance src r a = .ok rd₁) :
    ∃ rd₁', rd'.advance src r { a with line := n } = .ok rd₁' ∧ rd₁.Alike v rd₁' := by
  cases hcomplete : a.isComplete with
  | true =>
    rw [Reader.advance, if_pos hcomplete] at hadvance
    obtain ⟨b, hb, rfl⟩ := eq_settled_of_settle hadvance
    obtain ⟨hfixed, -, rfl⟩ := Body.assign_eq_ok_iff.1 hb
    rw [(h.tables.body r).isFixed] at hfixed
    refine ⟨_, advance_of_isComplete (a := { a with line := n }) hcomplete hfixed
      (hwithin.readable _), h.settled ((h.tables.body r).assigned (.withLine a n))⟩
  | false =>
    rw [advance_of_not_isComplete hcomplete] at hadvance
    obtain rfl := Except.ok.inj hadvance
    exact ⟨_, advance_of_not_isComplete (a := { a with line := n }) hcomplete,
      h.tables, n, rfl⟩

/-- A declaration is alike in both. -/
theorem Alike.proceed {targets : List Scope} {text : Text} {level : Level}
    {attributes : Name → Attributes} {place : Place} (h : rd.Alike v rd')
    (hplace : ∃ k, place = place.startingAt k) (n' : Nat)
    (hproceed : rd.proceed place (rd.tables.declare src.file targets text n level attributes) =
      .ok rd₁) :
    ∃ rd₁', rd'.proceed place (rd'.tables.declare src.file targets text n' level attributes) =
      .ok rd₁' ∧ rd₁.Alike v rd₁' := by
  cases hd : rd.tables.declare src.file targets text n level attributes with
  | error e =>
    rw [hd] at hproceed
    cases hproceed
  | ok p =>
    obtain ⟨name, t₁⟩ := p
    rw [hd] at hproceed
    obtain rfl := Except.ok.inj hproceed
    have hnat : ∀ k : Nat, ((k : Int) == builtinLine) = false :=
      fun k ↦ beq_false_of_ne (by rw [builtinLine]; omega)
    have hline : ((n : Int) == builtinLine) = ((n' : Int) == builtinLine) := by rw [hnat, hnat]
    obtain ⟨t₁', hd', htables⟩ := h.tables.declare hline hd
    rw [hd']
    exact ⟨_, rfl, htables, hplace⟩

theorem Alike.stepOuter (h : rd.Alike v rd') (n' : Nat)
    (hstep : rd.stepOuter src n line = .ok rd₁) :
    ∃ rd₁', rd'.stepOuter src n' line = .ok rd₁' ∧ rd₁.Alike v rd₁' := by
  unfold Reader.stepOuter at hstep ⊢
  split at hstep
  · obtain rfl := Except.ok.inj hstep
    refine ⟨_, rfl, ?_, ?_⟩
    · split <;> split <;> exact h.tables
    · obtain ⟨k, hk⟩ := h.place
      refine ⟨k, ?_⟩
      split <;> split <;> exact hk
  · exact h.proceed ⟨0, rfl⟩ n' hstep
  · obtain rfl := Except.ok.inj hstep
    exact ⟨_, rfl, h.tables, 0, rfl⟩
  · cases hstep

theorem Alike.stepStatement (h : rd.Alike v rd') (hwithin : (rd'.tables.body r).Within .perTerm)
    (n' : Nat) (hstep : rd.stepStatement src r n line = .ok rd₁) :
    ∃ rd₁', rd'.stepStatement src r n' line = .ok rd₁' ∧ rd₁.Alike v rd₁' := by
  unfold Reader.stepStatement at hstep ⊢
  dsimp only at hstep ⊢
  split at hstep
  · obtain rfl := Except.ok.inj hstep
    exact ⟨_, rfl, h.tables, 0, rfl⟩
  · obtain rfl := Except.ok.inj hstep
    exact ⟨_, rfl, h.tables, 0, rfl⟩
  · next text _ =>
    obtain ⟨b, hb, rfl⟩ := eq_settled_of_settle hstep
    obtain rfl := Except.ok.inj hb
    exact ⟨_, rfl, h.settled ((h.tables.body r).remark n n' text)⟩
  · rw [(h.tables.body r).begin?_eq (n := n) n']
    split at hstep
    · next a ha =>
      rw [ha]
      exact h.advance hwithin n' hstep
    · next hnone =>
      rw [hnone]
      obtain ⟨b, hb, rfl⟩ := eq_settled_of_settle hstep
      obtain ⟨-, rfl⟩ := Body.evaluate_eq_ok_iff.1 hb
      refine ⟨rd'.settled r _, ?_, h.settled ((h.tables.body r).evaluated n n' line)⟩
      rw [Option.map_none]
      dsimp only
      rw [Body.evaluate_eq_ok_iff.2 ⟨hwithin.readable _, rfl⟩]
      rfl

/-- **A line is read alike by both.** -/
theorem Alike.step (h : rd.Alike v rd') (hwithin : ∀ r, (rd'.tables.body r).Within .perTerm)
    (n' : Nat) (hstep : rd.step src n line = .ok rd₁) :
    ∃ rd₁', rd'.step src n' line = .ok rd₁' ∧ rd₁.Alike v rd₁' := by
  obtain ⟨k, hk⟩ := h.place
  unfold Reader.step at hstep ⊢
  rw [hk]
  cases hplace : rd.place with
  | outside =>
    rw [hplace] at hstep
    exact h.stepOuter (lineNumber n') hstep
  | statements r =>
    rw [hplace] at hstep
    exact h.stepStatement (hwithin r) (lineNumber n') hstep
  | assignment r a =>
    rw [hplace] at hstep
    exact h.advance (hwithin r) k hstep
  | declarations r =>
    rw [hplace] at hstep
    dsimp only [Place.startingAt] at hstep ⊢
    unfold stepDeclaration at hstep ⊢
    split at hstep
    · obtain rfl := Except.ok.inj hstep
      exact ⟨_, rfl, h.tables, 0, rfl⟩
    · obtain rfl := Except.ok.inj hstep
      exact ⟨_, rfl, h⟩
    · obtain rfl := Except.ok.inj hstep
      exact ⟨_, rfl, h⟩
    · split at hstep
      · next hword =>
        rw [if_pos hword]
        exact h.proceed ⟨0, rfl⟩ (lineNumber n') hstep
      · next hword =>
        rw [if_neg hword]
        exact h.stepStatement (hwithin r) (lineNumber n') hstep

/-- At the same position a line does the same with the same comments. -/
theorem Alike.comments_of_step {rd₁' : Reader} (h : rd.Alike v rd')
    (hcomments : rd.comments = rd'.comments) (hstep : rd.step src n line = .ok rd₁)
    (hstep' : rd'.step src n line = .ok rd₁') : rd₁.comments = rd₁'.comments := by
  obtain ⟨k, hk⟩ := h.place
  rw [Reader.comments_of_step hstep, Reader.comments_of_step hstep', commentsAfter, commentsAfter,
    hk, hcomments]
  cases rd.place <;> rfl

/-- **Lines are read alike by both**, whatever their positions. -/
theorem Alike.run (h : rd.Alike v rd') (hcoherent : rd'.Coherent)
    (hwithin : ∀ r, (rd'.tables.body r).Within .perTerm) (n' : Nat)
    (hrun : rd.run src n lines = .ok rd₁) :
    ∃ rd₁', rd'.run src n' lines = .ok rd₁' ∧ rd₁.Alike v rd₁' := by
  induction lines generalizing rd rd' n n' with
  | nil =>
    obtain rfl := Except.ok.inj hrun
    exact ⟨rd', rfl, h⟩
  | cons line lines ih =>
    obtain ⟨rd₂, hstep, hrest⟩ := exists_of_bind_eq_ok hrun
    obtain ⟨rd₂', hstep', halike⟩ := h.step hwithin n' hstep
    have heffect := effect_of_step hcoherent hstep'
    obtain ⟨rd₁', hrest', hlast⟩ := ih halike heffect.coherent
      (fun r ↦ (hwithin r).history (by decide) (heffect.history r)) (n' + 1) hrest
    exact ⟨rd₁', by rw [Reader.run, hstep']; exact hrest', hlast⟩

/-- At the same positions lines do the same with the same comments. -/
theorem Alike.comments_of_run {rd₁' : Reader} (h : rd.Alike v rd')
    (hcomments : rd.comments = rd'.comments) (hcoherent : rd'.Coherent)
    (hwithin : ∀ r, (rd'.tables.body r).Within .perTerm) (hrun : rd.run src n lines = .ok rd₁)
    (hrun' : rd'.run src n lines = .ok rd₁') : rd₁.comments = rd₁'.comments := by
  induction lines generalizing rd rd' n with
  | nil =>
    obtain rfl := Except.ok.inj hrun
    obtain rfl := Except.ok.inj hrun'
    exact hcomments
  | cons line lines ih =>
    obtain ⟨rd₂, hstep, hrest⟩ := exists_of_bind_eq_ok hrun
    obtain ⟨rd₂', hstep', hrest'⟩ := exists_of_bind_eq_ok hrun'
    obtain ⟨rd₃, hstep₃, halike⟩ := h.step hwithin n hstep
    obtain rfl := Except.ok.inj (hstep₃.symm.trans hstep')
    have heffect := effect_of_step hcoherent hstep'
    exact ih halike (h.comments_of_step hcomments hstep hstep') heffect.coherent
      (fun r ↦ (hwithin r).history (by decide) (heffect.history r)) hrest hrest'

end Reader

/-- No built-in is an accumulator. -/
theorem Tables.withBuiltins_within_perTerm (r : Routine) :
    (withBuiltins.body r).Within .perTerm :=
  (withBuiltins_within r).mono r.deepest_le_perTerm

/-- **Descriptions that are alike up to some place and the same after it** are accepted alike, and
with the same comments if they had the same number of lines up to there and the same comments. -/
theorem Tables.readLines_of_alike {v : View} {src : Source} {t t₁ : Tables} {comments : List Text}
    {ls ls' rest : List Text} {rd rd' : Reader} (ht : ∀ r, (t.body r).Within .perTerm)
    (hrun : ({ tables := t } : Reader).run src 1 ls = .ok rd)
    (hrun' : ({ tables := t } : Reader).run src 1 ls' = .ok rd') (h : rd.Alike v rd')
    (hread : t.readLines src (ls ++ rest) = .ok (comments, t₁)) :
    ∃ comments' t₁', t.readLines src (ls' ++ rest) = .ok (comments', t₁') ∧ t₁.Alike v t₁' ∧
      (ls'.length = ls.length → rd.comments = rd'.comments → comments' = comments) := by
  obtain ⟨last, hlast, hend, rfl, rfl⟩ := readLines_eq_ok_iff.1 hread
  rw [Reader.run_append, hrun] at hlast
  obtain ⟨hcoherent, hhistory⟩ := Reader.history_of_run (Reader.coherent_top t) hrun'
  have hwithin := fun r ↦ (ht r).history (by decide) (hhistory r)
  obtain ⟨last', hlast', halike⟩ := h.run hcoherent hwithin (1 + ls'.length) hlast
  obtain ⟨k, hk⟩ := halike.place
  refine ⟨_, last'.tables, readLines_eq_ok_iff.2 ⟨last', ?_, ?_, rfl, rfl⟩, halike.tables, ?_⟩
  · rw [Reader.run_append, hrun']
    exact hlast'
  · rw [hk]
    exact (Place.startingAt_eq_outside_iff _ k).2 hend
  · intro hlength hcomments
    rw [hlength] at hlast'
    rw [h.comments_of_run hcomments hcoherent hwithin hlast hlast']

end RankMetric
