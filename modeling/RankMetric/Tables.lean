import RankMetric.Quantity
import RankMetric.Statement

/-!
# Tables

The tables of a compilation hold three scopes: the parameters, and one for each routine. A routine
has a body: its quantities, the set of names it uses, and its statements. Parameters have no used
set and no statements.

Every change goes through one body or one scope, and the lemmas `body_setBody_self` and
`body_setBody_ne` say that the other body is left alone.
-/

namespace RankMetric

/-- The scopes that a quantity can be declared in. -/
inductive Scope where
  | params
  | routine (r : Routine)
  deriving DecidableEq, Repr

/-- The routine of a scope, if it is one of a routine. -/
def Scope.routine? : Scope → Option Routine
  | params => none
  | routine r => some r

/-! ### The body of a routine -/

/-- The quantities of a routine, the names it uses and its statements. -/
structure Body where
  quantities : Quantities := .empty
  used : NameSet := .empty
  statements : List Statement := []
  deriving DecidableEq

namespace Body

/-- Record that a name is used. -/
def use (b : Body) (n : Name) : Body :=
  { b with used := b.used.insert n }

/-- Record that each of some names is used. -/
def useAll (b : Body) (ns : List Name) : Body :=
  { b with used := b.used.insertAll ns }

/-- Add a statement at the end. -/
def push (b : Body) (s : Statement) : Body :=
  { b with statements := b.statements ++ [s] }

/-- Raise the level of the quantity with a given name, if there is one. -/
def raise (b : Body) (n : Name) (l : Level) : Body :=
  match b.quantities.get? n with
  | none => b
  | some q => { b with quantities := b.quantities.insert (q.raise l) }

/-- The quantities that the body uses, built-ins first and then by line, and those of one line by
name. -/
def usedQuantities (b : Body) : List Quantity :=
  Quantity.sortByLine (b.used.toList.filterMap b.quantities.get?)

/-! ### What each change leaves alone -/

@[simp] theorem use_quantities (b : Body) (n : Name) : (b.use n).quantities = b.quantities := rfl

@[simp] theorem use_statements (b : Body) (n : Name) : (b.use n).statements = b.statements := rfl

@[simp] theorem useAll_quantities (b : Body) (ns : List Name) :
    (b.useAll ns).quantities = b.quantities := rfl

@[simp] theorem useAll_statements (b : Body) (ns : List Name) :
    (b.useAll ns).statements = b.statements := rfl

@[simp] theorem push_quantities (b : Body) (s : Statement) :
    (b.push s).quantities = b.quantities := rfl

@[simp] theorem push_used (b : Body) (s : Statement) : (b.push s).used = b.used := rfl

@[simp] theorem push_statements (b : Body) (s : Statement) :
    (b.push s).statements = b.statements ++ [s] := rfl

@[simp] theorem raise_used (b : Body) (n : Name) (l : Level) : (b.raise n l).used = b.used := by
  unfold raise
  split <;> rfl

@[simp] theorem raise_statements (b : Body) (n : Name) (l : Level) :
    (b.raise n l).statements = b.statements := by
  unfold raise
  split <;> rfl

/-- After a quantity was raised, its name answers with the raised quantity and every other name as
before. -/
theorem get?_raise (b : Body) (n k : Name) (l : Level) :
    (b.raise n l).quantities.get? k =
      if k = n then (b.quantities.get? k).map (Quantity.raise l) else b.quantities.get? k := by
  unfold raise
  cases h : b.quantities.get? n with
  | none =>
    by_cases hk : k = n
    · subst hk
      simp [h]
    · simp [hk]
  | some q =>
    have hq : q.name = n := NameIndex.name_of_get? h
    by_cases hk : k = n
    · subst hk
      simp [NameIndex.get?_insert, h, hq]
    · simp [NameIndex.get?_insert, hq, hk, Ne.symm hk]

/-- The statements of a given level, in order. -/
def statementsAt (b : Body) (l : Level) : List Statement :=
  b.statements.filter fun s ↦ s.level == l

end Body

/-! ### All scopes together -/

/-- The parameters and the bodies of both routines. -/
structure Tables where
  params : Quantities := .empty
  decode : Body := {}
  post : Body := {}
  deriving DecidableEq

namespace Tables

/-- Tables without a quantity. -/
def empty : Tables := {}

/-- The body of a routine. -/
def body (t : Tables) : Routine → Body
  | .decode => t.decode
  | .post => t.post

/-- Replace the body of a routine. -/
def setBody (t : Tables) (r : Routine) (b : Body) : Tables :=
  match r with
  | .decode => { t with decode := b }
  | .post => { t with post := b }

@[simp] theorem body_setBody_self (t : Tables) (r : Routine) (b : Body) :
    (t.setBody r b).body r = b := by
  cases r <;> rfl

theorem body_setBody_ne (t : Tables) {r r' : Routine} (h : r' ≠ r) (b : Body) :
    (t.setBody r b).body r' = t.body r' := by
  cases r <;> cases r' <;> simp_all [body, setBody]

@[simp] theorem params_setBody (t : Tables) (r : Routine) (b : Body) :
    (t.setBody r b).params = t.params := by
  cases r <;> rfl

@[simp] theorem setBody_body (t : Tables) (r : Routine) : t.setBody r (t.body r) = t := by
  cases r <;> rfl

/-- The quantities of a scope. -/
def quantities (t : Tables) : Scope → Quantities
  | .params => t.params
  | .routine r => (t.body r).quantities

/-- Replace the quantities of a scope. -/
def setQuantities (t : Tables) (s : Scope) (q : Quantities) : Tables :=
  match s with
  | .params => { t with params := q }
  | .routine r => t.setBody r { t.body r with quantities := q }

/-- Add a quantity to a scope, in place of one with its name. -/
def insert (t : Tables) (s : Scope) (q : Quantity) : Tables :=
  t.setQuantities s ((t.quantities s).insert q)

/-- Raise the level of the quantity with a given name in a scope, if there is one. -/
def raise (t : Tables) (s : Scope) (n : Name) (l : Level) : Tables :=
  match (t.quantities s).get? n with
  | none => t
  | some q => t.insert s (q.raise l)

/-- Record that each of some names is used in a scope. Parameters keep no such record. -/
def useAll (t : Tables) (s : Scope) (ns : List Name) : Tables :=
  match s with
  | .params => t
  | .routine r => t.setBody r ((t.body r).useAll ns)

end Tables

end RankMetric
