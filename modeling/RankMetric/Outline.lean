import RankMetric.Statement

/-!
# Outlines

An outline shows how a list of lines nests into blocks. It is a list of nodes, each of them a plain
line or a block of an opening line, an inner outline and, unless the list ends first, a closing
line. Instead of a list type and a tree type there is one type: every constructor but `nil` carries
the outline that follows its node.

`Outline.ofList` builds the outline of a list from the right end. The closing lines that have not
met their opening lines wait on a stack, each with the outline that follows it. Those that wait at
the end are stray and become plain lines at the outermost level. `toList_ofList` says that reading
the outline in order gives the list back.
-/

namespace RankMetric

/-- How lines nest into blocks. -/
inductive Outline (α : Type) where
  | nil
  | line (a : α) (rest : Outline α)
  | block (opening : α) (inner : Outline α) (closing : Option α) (rest : Outline α)
  deriving DecidableEq, Repr

namespace Outline

variable {α β : Type}

/-- The lines in order. -/
def toList : Outline α → List α
  | nil => []
  | line a rest => a :: rest.toList
  | block o inner c rest => o :: inner.toList ++ c.toList ++ rest.toList

/-- One outline after the other. -/
def append : Outline α → Outline α → Outline α
  | nil, r => r
  | line a rest, r => line a (rest.append r)
  | block o inner c rest, r => block o inner c (rest.append r)

@[simp] theorem toList_append (l r : Outline α) : (l.append r).toList = l.toList ++ r.toList := by
  induction l with
  | nil => rfl
  | line a rest ih => simp [append, toList, ih]
  | block o inner c rest _ ih => simp [append, toList, ih]

/-! ### Building an outline -/

/-- An outline in the making, of the lines from some place to the end of the list. -/
structure Draft (α : Type) where
  /-- The outline up to the first waiting closing line. -/
  here : Outline α := .nil
  /-- The closing lines that wait for their opening lines, each with what follows it. -/
  waiting : List (α × Outline α) := []

namespace Draft

/-- Put a line in front. -/
def add (shape : α → Shape) (a : α) (d : Draft α) : Draft α :=
  match shape a with
  | .plain => { d with here := .line a d.here }
  | .closing => { here := .nil, waiting := (a, d.here) :: d.waiting }
  | .opening =>
    match d.waiting with
    | [] => { here := .block a d.here none .nil }
    | (c, after) :: ws => { here := .block a d.here (some c) after, waiting := ws }

/-- The outline in which the closing lines that still wait are plain lines. -/
def close (d : Draft α) : Outline α :=
  d.here.append (d.waiting.foldr (fun (c, after) r ↦ .line c (after.append r)) .nil)

/-- The lines of a draft in order. -/
def toList (d : Draft α) : List α :=
  d.here.toList ++ d.waiting.flatMap fun (c, after) ↦ c :: after.toList

theorem toList_add (shape : α → Shape) (a : α) (d : Draft α) :
    (d.add shape a).toList = a :: d.toList := by
  unfold add
  split
  · simp [toList, Outline.toList]
  · simp [toList, Outline.toList]
  · split
    · next h => simp [toList, Outline.toList, h]
    · next h => simp [toList, Outline.toList, h]

theorem toList_close (d : Draft α) : d.close.toList = d.toList := by
  obtain ⟨here, waiting⟩ := d
  simp only [close, toList, toList_append]
  congr 1
  induction waiting with
  | nil => rfl
  | cons w ws ih => simp [Outline.toList, ih]

end Draft

/-- The outline of a list of lines whose shapes are given. -/
def ofList (shape : α → Shape) (l : List α) : Outline α :=
  (l.foldr (Draft.add shape) {}).close

/-- Reading the outline of a list in order gives the list back. -/
theorem toList_ofList (shape : α → Shape) (l : List α) : (ofList shape l).toList = l := by
  have h : (l.foldr (Draft.add shape) {}).toList = l := by
    induction l with
    | nil => rfl
    | cons a l ih => rw [List.foldr_cons, Draft.toList_add, ih]
  rw [ofList, Draft.toList_close, h]

/-! ### Changing the lines -/

/-- Change every line and keep the nesting. -/
def map (f : α → β) : Outline α → Outline β
  | nil => nil
  | line a rest => line (f a) (rest.map f)
  | block o inner c rest => block (f o) (inner.map f) (c.map f) (rest.map f)

theorem toList_map (f : α → β) (l : Outline α) : (l.map f).toList = l.toList.map f := by
  induction l with
  | nil => rfl
  | line a rest ih => simp [map, toList, ih]
  | block o inner c rest ih₁ ih₂ => cases c <;> simp [map, toList, ih₁, ih₂]

/-- The lines of a block. -/
def blockLines (o : α) (inner : Outline α) (c : Option α) : List α :=
  o :: inner.toList ++ c.toList

/-- Change every line of an outermost block by what all lines of the block determine. Lines outside
all blocks stay. -/
def mapBlocks (f : List α → α → α) : Outline α → Outline α
  | nil => nil
  | line a rest => line a (rest.mapBlocks f)
  | block o inner c rest =>
    let g := f (blockLines o inner c)
    block (g o) (inner.map g) (c.map g) (rest.mapBlocks f)

end Outline

end RankMetric
