import RankMetric.Builtin
import RankMetric.Description
import RankMetric.Proofs.DeclarationVerdicts

/-!
# Tables only grow

Tables are changed by declarations and by reading descriptions, and either may fail, a description
also in the middle of a routine. Whatever happens, nothing that was in the tables is lost
(`Tables.Grows`): a quantity keeps all its fields but the level, the level does not fall, a name
that was used stays used, and the statements of a routine grow at the end.

The proof follows a failure as well as a success. What a computation has made of the tables is
`Tables.reached`, and of a body `Body.reached`, in either case, so there is one lemma for each
function of the reader and none of them asks how the function ended.

* `Body.grows_evaluate`, `Body.grows_assign`: reading a statement lets a body grow, also if an
  operand in its middle cannot be read.
* `Tables.exists_get?_of_declare`: a line that is declared is new to all its targets, so it takes
  the place of nothing.
* `Reader.grows_step`, `Reader.grows_run`: one line, and then many.
* `Tables.grows_foldl_after`: any calls, one after the other.
-/

namespace RankMetric

/-! ### What it is to grow -/

namespace Quantities

/-- Every quantity stays, with all fields but the level, and the level does not fall. -/
def StaysIn (q q' : Quantities) : Prop :=
  ∀ n x, q.get? n = some x →
    ∃ x', q'.get? n = some x' ∧ x.level ≤ x'.level ∧ x' = { x with level := x'.level }

variable {q q' q'' : Quantities}

theorem StaysIn.refl (q : Quantities) : q.StaysIn q :=
  fun _ x hx ↦ ⟨x, hx, le_rfl, rfl⟩

theorem StaysIn.trans (h : q.StaysIn q') (h' : q'.StaysIn q'') : q.StaysIn q'' := by
  intro n x hx
  obtain ⟨x', hx', hle, heq⟩ := h n x hx
  obtain ⟨x'', hx'', hle', heq'⟩ := h' n x' hx'
  refine ⟨x'', hx'', hle.trans hle', ?_⟩
  rw [heq', heq]

end Quantities

/-- A body has what another had, and perhaps more. -/
structure Body.Grows (b b' : Body) : Prop where
  quantities : b.quantities.StaysIn b'.quantities
  used : ∀ n, b.used.contains n = true → b'.used.contains n = true
  statements : b.statements <+: b'.statements

/-- Tables have what others had, and perhaps more. -/
structure Tables.Grows (t t' : Tables) : Prop where
  params : t.params.StaysIn t'.params
  body : ∀ r, (t.body r).Grows (t'.body r)

namespace Body

variable {b b' b'' : Body}

theorem Grows.refl (b : Body) : b.Grows b :=
  ⟨.refl _, fun _ h ↦ h, List.prefix_refl _⟩

theorem Grows.trans (h : b.Grows b') (h' : b'.Grows b'') : b.Grows b'' :=
  ⟨h.quantities.trans h'.quantities, fun n hn ↦ h'.used n (h.used n hn),
    h.statements.trans h'.statements⟩

theorem grows_useAll (b : Body) (ns : List Name) : b.Grows (b.useAll ns) where
  quantities := .refl _
  used n hn := by rw [useAll, NameSet.contains_insertAll, hn, Bool.or_true]
  statements := List.prefix_refl _

theorem grows_use (b : Body) (n : Name) : b.Grows (b.use n) where
  quantities := .refl _
  used k hk := by rw [use, NameIndex.contains_insert, hk, Bool.or_true]
  statements := List.prefix_refl _

theorem grows_push (b : Body) (s : Statement) : b.Grows (b.push s) :=
  ⟨.refl _, fun _ h ↦ h, List.prefix_append _ _⟩

theorem grows_raise (b : Body) (n : Name) (l : Level) : b.Grows (b.raise n l) where
  quantities k x hx := by
    rw [get?_raise, hx]
    split
    · exact ⟨x.raise l, rfl, le_max_left _ _, rfl⟩
    · exact ⟨x, rfl, le_rfl, rfl⟩
  used k hk := by rwa [raise_used]
  statements := by simp

/-! ### Statements -/

/-- What has become of a body, also if a statement could not be read. -/
def reached : Except StatementFault Body → Body
  | .ok b => b
  | .error (_, b) => b

/-- What is done with operands comes on top of recording them, and they are recorded up to the first
that cannot be read. -/
theorem grows_readOperands_bind (b : Body) (ts : List Token)
    {f : List Quantity × Body → Except StatementFault Body}
    (hf : ∀ p : List Quantity × Body, p.2.Grows (reached (f p))) :
    b.Grows (reached (b.readOperands ts >>= f)) := by
  unfold readOperands
  dsimp only
  split
  · exact b.grows_useAll _
  · exact (b.grows_useAll _).trans (hf (_, b.useAll _))

theorem grows_evaluate (b : Body) (n : Nat) (text : Text) :
    b.Grows (reached (b.evaluate n text)) :=
  b.grows_readOperands_bind _ fun p ↦ p.2.grows_push _

theorem grows_assign (b : Body) (a : Assignment) : b.Grows (reached (b.assign a)) := by
  unfold assign
  split
  · exact .refl b
  · exact b.grows_readOperands_bind _ fun p ↦
      ((p.2.grows_use _).trans (grows_raise _ _ _)).trans (grows_push _ _)

end Body

/-! ### Declarations -/

namespace Tables

variable {t t' t'' : Tables}

theorem Grows.refl (t : Tables) : t.Grows t :=
  ⟨.refl _, fun _ ↦ .refl _⟩

theorem Grows.trans (h : t.Grows t') (h' : t'.Grows t'') : t.Grows t'' :=
  ⟨h.params.trans h'.params, fun r ↦ (h.body r).trans (h'.body r)⟩

/-- If a body grows, the tables do. -/
theorem grows_setBody (t : Tables) (r : Routine) {b : Body} (h : (t.body r).Grows b) :
    t.Grows (t.setBody r b) where
  params := by
    rw [params_setBody]
    exact .refl _
  body r' := by
    by_cases hr : r' = r
    · subst hr
      rw [body_setBody_self]
      exact h
    · rw [body_setBody_ne _ hr]
      exact .refl _

variable {targets : List Scope} {file raw : Text} {line : Int} {level : Level}
  {attributes : Name → Attributes} {n : Name}

/-- **A declaration puts one quantity of the given level into its targets**, under a name that is
new there. All else is answered as before. -/
theorem exists_get?_of_declare
    (h : t.declare file targets raw line level attributes = .ok (n, t')) :
    ∃ q, q.level = level ∧ (∀ s ∈ targets, (t.quantities s).get? n = none) ∧
      ∀ s m, (t'.quantities s).get? m =
        if s ∈ targets ∧ m = n then some q else (t.quantities s).get? m := by
  obtain ⟨-, q, -, -, -, -, hlevel, hunknown, hget⟩ := exists_record_of_declare h
  exact ⟨q, hlevel, hunknown, hget⟩

/-- A name that a scope knows after a declaration was known before, or it is the one declared. -/
theorem contains_of_declare (h : t.declare file targets raw line level attributes = .ok (n, t'))
    {s : Scope} {m : Name} (hm : (t'.quantities s).contains m = true) :
    (t.quantities s).contains m = true ∨ s ∈ targets ∧ m = n := by
  obtain ⟨q, -, -, hget⟩ := exists_get?_of_declare h
  rw [NameIndex.contains, hget] at hm
  split at hm
  · next hdeclared => exact .inr hdeclared
  · exact .inl hm

/-- **A line that is declared takes the place of nothing**: its name is new to all its targets. -/
theorem grows_of_declare (h : t.declare file targets raw line level attributes = .ok (n, t')) :
    t.Grows t' := by
  obtain ⟨q, -, hunknown, hget⟩ := exists_get?_of_declare h
  have hstays : ∀ s, (t.quantities s).StaysIn (t'.quantities s) := by
    intro s m x hx
    refine ⟨x, ?_, le_rfl, rfl⟩
    rw [hget, if_neg, hx]
    rintro ⟨hs, rfl⟩
    cases (hunknown s hs).symm.trans hx
  have hdeclared := declared_of_declare h
  exact ⟨hstays .params, fun r ↦ ⟨hstays (.routine r), hdeclared.used r,
    (hdeclared.statements r).symm ▸ List.prefix_refl _⟩⟩

end Tables

/-! ### Descriptions -/

namespace Reader

variable {src : Source} {rd : Reader} {r : Routine} {n : Nat} {line text : Text}

/-- The tables that were reached, also if the reader has stopped. -/
def reached (x : Except Halted Reader) : Tables :=
  Tables.reached (x.map Reader.tables)

/-- What is done next comes on top of what has been reached. -/
theorem grows_bind {α : Type} {t : Tables} {x : Except Halted Reader}
    {f : Reader → Except Halted α} {g : α → Tables} (hx : t.Grows (reached x))
    (hf : ∀ rd : Reader, rd.tables.Grows (Tables.reached ((f rd).map g))) :
    t.Grows (Tables.reached ((x >>= f).map g)) := by
  cases x with
  | error e => exact hx
  | ok rd => exact hx.trans (hf rd)

/-- A fault in a statement leaves what has become of the body. -/
theorem reached_settle (src : Source) (rd : Reader) (r : Routine) (n : Nat) (text : Text)
    (res : Except StatementFault Body) :
    reached (rd.settle src r n text res) = rd.tables.setBody r (Body.reached res) := by
  cases res <;> rfl

theorem grows_settle {res : Except StatementFault Body}
    (h : (rd.tables.body r).Grows (Body.reached res)) :
    rd.tables.Grows (reached (rd.settle src r n text res)) := by
  rw [reached_settle]
  exact rd.tables.grows_setBody r h

theorem grows_proceed {place : Place} {x : Except DescriptionError (Name × Tables)}
    (h : ∀ name t, x = .ok (name, t) → rd.tables.Grows t) :
    rd.tables.Grows (reached (rd.proceed place x)) := by
  cases x with
  | error e => exact .refl _
  | ok p => exact h p.1 p.2 rfl

theorem grows_advance (a : Assignment) : rd.tables.Grows (reached (rd.advance src r a)) := by
  unfold advance
  split
  · exact grows_settle (Body.grows_assign _ a)
  · exact .refl _

theorem grows_stepOuter : rd.tables.Grows (reached (rd.stepOuter src n line)) := by
  unfold stepOuter
  split
  · show rd.tables.Grows (Reader.tables _)
    split <;> exact .refl _
  · exact grows_proceed fun _ _ ↦ Tables.grows_of_declare
  · exact .refl _
  · exact .refl _

theorem grows_stepStatement : rd.tables.Grows (reached (rd.stepStatement src r n line)) := by
  unfold stepStatement
  dsimp only
  split
  · exact .refl _
  · exact .refl _
  · exact grows_settle (Body.grows_push _ _)
  · split
    · exact grows_advance _
    · exact grows_settle (Body.grows_evaluate _ _ _)

theorem grows_stepDeclaration : rd.tables.Grows (reached (rd.stepDeclaration src r n line)) := by
  unfold stepDeclaration
  split
  · exact .refl _
  · exact .refl _
  · exact .refl _
  · split
    · exact grows_proceed fun _ _ ↦ Tables.grows_of_declare
    · exact grows_stepStatement

/-- **One line lets the tables grow**, whether it can be read or not. -/
theorem grows_step (src : Source) (rd : Reader) (n : Nat) (line : Text) :
    rd.tables.Grows (reached (rd.step src n line)) := by
  unfold step
  split
  · exact grows_stepOuter
  · exact grows_stepDeclaration
  · exact grows_stepStatement
  · exact grows_advance _

/-- **Any lines let the tables grow**, also if one of them cannot be read. -/
theorem grows_run (src : Source) (rd : Reader) (n : Nat) (lines : List Text) :
    rd.tables.Grows (reached (rd.run src n lines)) := by
  induction lines generalizing rd n with
  | nil => exact .refl _
  | cons line lines ih => exact grows_bind (grows_step src rd n line) fun rd' ↦ ih rd' (n + 1)

theorem grows_finish (src : Source) (rd : Reader) (n : Nat) :
    rd.tables.Grows (reached (rd.finish src n)) := by
  unfold finish
  split <;> exact .refl _

end Reader

namespace Tables

/-- Reading a description lets the tables grow, also if it has an error. -/
theorem grows_readLines (t : Tables) (src : Source) (ls : List Text) :
    t.Grows (reached ((t.readLines src ls).map Prod.snd)) := by
  refine Reader.grows_bind (Reader.grows_run src { tables := t } 1 ls) fun rd ↦ ?_
  exact Reader.grows_bind (Reader.grows_finish src rd ls.length) fun rd' ↦ .refl _

/-! ### Calls -/

/-- A call that may change tables. -/
inductive Call where
  /-- Declare a line in some scopes. The attributes may depend on the name. -/
  | declare (file : Text) (targets : List Scope) (raw : Text) (line : Int) (level : Level)
      (attributes : Name → Attributes)
  /-- Read a description. -/
  | readDescription (src : Source) (text : Text)

/-- The tables after a call, whether it has succeeded or failed. -/
def after (t : Tables) : Call → Tables
  | .declare file targets raw line level attributes =>
    match t.declare file targets raw line level attributes with
    | .ok (_, t') => t'
    | .error _ => t
  | .readDescription src text => reached ((t.readDescription src text).map Prod.snd)

theorem grows_after (t : Tables) (c : Call) : t.Grows (t.after c) := by
  cases c with
  | declare file targets raw line level attributes =>
    rw [after]
    split
    · next t' hdeclare => exact grows_of_declare hdeclare
    · exact .refl t
  | readDescription src text => exact t.grows_readLines src (Text.lines text)

/-- **Tables only grow**, over any calls one after the other, of which each may succeed or fail: no
quantity is lost, moved or overwritten, no level falls, no used name is forgotten, and no statement
is changed. -/
theorem grows_foldl_after (t : Tables) (calls : List Call) : t.Grows (calls.foldl after t) := by
  induction calls generalizing t with
  | nil => exact .refl t
  | cons c calls ih => exact (t.grows_after c).trans (ih (t.after c))

end Tables

end RankMetric
