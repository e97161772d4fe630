import RankMetric.Text.Basic

/-!
# Levels

The level of a quantity or a statement is the narrowest loop in which it can change. Levels are
numbered from 1 to 6 and ordered by their numbers; the join of two levels is the greater. Nothing is
below `constant` (`Level.constant_le`), so the join of no levels is `constant` (`Level.join`).
-/

namespace RankMetric

/-- The narrowest loop in which a quantity can change. -/
inductive Level where
  /-- The same for the whole collection: computed once a call. -/
  | constant
  /-- Changes with the document, in the outer loop. -/
  | perDocument
  /-- Changes with the term within a document, in the inner loop. -/
  | perTerm
  /-- Changes with the offset of a term; kept in reserve. -/
  | perOffset
  /-- Changes with the attribute of a term; kept in reserve. -/
  | perAttribute
  /-- A running total that can be written and never read. -/
  | accumulator
  deriving DecidableEq, Repr

namespace Level

/-- The number of a level. -/
def toNat : Level → Nat
  | constant => 1
  | perDocument => 2
  | perTerm => 3
  | perOffset => 4
  | perAttribute => 5
  | accumulator => 6

/-- The level with a given number. -/
def ofNat? : Nat → Option Level
  | 1 => some constant
  | 2 => some perDocument
  | 3 => some perTerm
  | 4 => some perOffset
  | 5 => some perAttribute
  | 6 => some accumulator
  | _ => none

/-- The text of a level is its number. -/
def text (l : Level) : Text :=
  Text.ofNat l.toNat

/-- Whether a quantity of this level can be written and never read. -/
def isWriteOnly (l : Level) : Bool :=
  l == accumulator

/-! ### Order -/

instance : LE Level := ⟨fun a b ↦ a.toNat ≤ b.toNat⟩

instance : LT Level := ⟨fun a b ↦ a.toNat < b.toNat⟩

instance (a b : Level) : Decidable (a ≤ b) := inferInstanceAs (Decidable (a.toNat ≤ b.toNat))

instance (a b : Level) : Decidable (a < b) := inferInstanceAs (Decidable (a.toNat < b.toNat))

instance : Max Level := ⟨fun a b ↦ if a ≤ b then b else a⟩

theorem toNat_inj {a b : Level} : a.toNat = b.toNat ↔ a = b :=
  ⟨fun h ↦ by cases a <;> cases b <;> simp_all [toNat], congrArg toNat⟩

/-- Nothing is below `constant`. -/
theorem constant_le (a : Level) : constant ≤ a := by
  cases a <;> decide

@[simp] theorem toNat_max (a b : Level) : (max a b).toNat = max a.toNat b.toNat := by
  cases a <;> cases b <;> rfl

/-- The greatest of some levels, and `constant` if there is none. -/
def join (ls : List Level) : Level :=
  ls.foldr max constant

@[simp] theorem join_nil : join [] = constant := rfl

@[simp] theorem join_cons (l : Level) (ls : List Level) : join (l :: ls) = max l (join ls) := rfl

end Level

end RankMetric
