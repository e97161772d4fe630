import RankMetric.Text.Basic

/-!
# Names and indexes by name

Names are ordered by code points, which is the order of their UTF-8 bytes. `Name.before` is a strict
total order: `before_irrefl`, `before_trans` and `eq_of_not_before` are its laws.

A `NameIndex` holds values that carry a name, at most one for each name, in the order of their
names. The order is part of the type, so an index is determined by what it answers
(`NameIndex.ext_get?`), and `get?_insert` says all there is to know of adding a value. The indexes
of the library are the quantities of a scope, the set of names that a routine uses (each name being
its own name), and the replacements of a substitution.
-/

namespace RankMetric

/-- A name is a text. -/
abbrev Name := Text

namespace Name

/-- The order of names: by the first code point that differs, and a front part of a name before the
name. -/
def before : Name → Name → Bool
  | _, [] => false
  | [], _ :: _ => true
  | c :: s, d :: t => c.toNat < d.toNat || (c == d && before s t)

theorem before_irrefl (s : Name) : before s s = false := by
  induction s with
  | nil => rfl
  | cons c s ih => simp [before, ih]

theorem before_trans {s t u : Name} (h₁ : before s t) (h₂ : before t u) : before s u := by
  induction s generalizing t u with
  | nil =>
    cases u with
    | nil => cases t <;> simp [before] at h₂
    | cons e u => rfl
  | cons c s ih =>
    cases t with
    | nil => simp [before] at h₁
    | cons d t =>
      cases u with
      | nil => simp [before] at h₂
      | cons e u =>
        simp only [before, Bool.or_eq_true, decide_eq_true_eq, Bool.and_eq_true, beq_iff_eq] at *
        rcases h₁ with h₁ | ⟨rfl, h₁⟩ <;> rcases h₂ with h₂ | ⟨rfl, h₂⟩
        · exact .inl (Nat.lt_trans h₁ h₂)
        · exact .inl h₁
        · exact .inl h₂
        · exact .inr ⟨rfl, ih h₁ h₂⟩

theorem before_asymm {s t : Name} (h : before s t) : before t s = false := by
  cases hts : before t s with
  | false => rfl
  | true => simpa [before_irrefl] using before_trans h hts

/-- Two names neither of which is before the other are one name. -/
theorem eq_of_not_before {s t : Name} (h₁ : before s t = false) (h₂ : before t s = false) :
    s = t := by
  induction s generalizing t with
  | nil => cases t with
    | nil => rfl
    | cons d t => simp [before] at h₁
  | cons c s ih => cases t with
    | nil => simp [before] at h₂
    | cons d t =>
      simp only [before, Bool.or_eq_false_iff, decide_eq_false_iff_not, Bool.and_eq_false_iff,
        beq_eq_false_iff_ne, ne_eq] at h₁ h₂
      have hcd : c = d := Char.toNat_inj.1 (by omega)
      subst hcd
      simp only [not_true_eq_false, false_or] at h₁ h₂
      rw [ih h₁.2 h₂.2]

end Name

/-- Values in the order of their names, at most one for each name. -/
structure NameIndex {α : Type} (name : α → Name) where
  /-- The values in the order of their names. -/
  toList : List α
  /-- Each value stands before those with a later name. -/
  ordered : toList.Pairwise fun a b ↦ (name a).before (name b)

namespace NameIndex

variable {α : Type} {name : α → Name}

theorem eq_of_toList_eq {m m' : NameIndex name} (h : m.toList = m'.toList) : m = m' := by
  cases m; cases m'; cases h; rfl

instance [DecidableEq α] : DecidableEq (NameIndex name) := fun m m' ↦
  decidable_of_iff (m.toList = m'.toList) ⟨eq_of_toList_eq, fun h ↦ h ▸ rfl⟩

/-- The index without values. -/
def empty : NameIndex name :=
  ⟨[], .nil⟩

instance : Inhabited (NameIndex name) := ⟨empty⟩

/-- The value with a given name. -/
def get? (m : NameIndex name) (n : Name) : Option α :=
  m.toList.find? fun a ↦ name a == n

/-- Whether there is a value with a given name. -/
def contains (m : NameIndex name) (n : Name) : Bool :=
  (m.get? n).isSome

/-- The names in order. -/
def names (m : NameIndex name) : List Name :=
  m.toList.map name

/-! ### Adding a value -/

/-- Put a value at its place in a list ordered by name, instead of one that has its name. -/
def insertInto (name : α → Name) (a : α) : List α → List α
  | [] => [a]
  | b :: l =>
    if name a = name b then a :: l
    else if (name a).before (name b) then a :: b :: l
    else b :: insertInto name a l

theorem mem_insertInto {a x : α} {l : List α} (h : x ∈ insertInto name a l) : x = a ∨ x ∈ l := by
  induction l with
  | nil => simpa [insertInto] using h
  | cons b l ih =>
    rw [insertInto] at h
    split at h
    · rcases List.mem_cons.1 h with rfl | h
      · exact .inl rfl
      · exact .inr (List.mem_cons_of_mem _ h)
    · split at h
      · exact List.mem_cons.1 h
      · rcases List.mem_cons.1 h with rfl | h
        · exact .inr List.mem_cons_self
        · exact (ih h).imp_right (List.mem_cons_of_mem _)

theorem ordered_insertInto {a : α} {l : List α}
    (h : l.Pairwise fun a b ↦ (name a).before (name b)) :
    (insertInto name a l).Pairwise fun a b ↦ (name a).before (name b) := by
  induction l with
  | nil => simp [insertInto]
  | cons b l ih =>
    obtain ⟨hb, hl⟩ := List.pairwise_cons.1 h
    rw [insertInto]
    split
    · next hab => exact List.pairwise_cons.2 ⟨fun x hx ↦ hab ▸ hb x hx, hl⟩
    · next hne =>
      split
      · next hab =>
        refine List.pairwise_cons.2 ⟨fun x hx ↦ ?_, h⟩
        rcases List.mem_cons.1 hx with rfl | hx
        · exact hab
        · exact Name.before_trans hab (hb x hx)
      · next hab =>
        refine List.pairwise_cons.2 ⟨fun x hx ↦ ?_, ih hl⟩
        rcases mem_insertInto hx with rfl | hx
        · cases hba : (name b).before (name x) with
          | true => rfl
          | false =>
            exact absurd (Name.eq_of_not_before (by simpa using hab) hba) hne
        · exact hb x hx

/-- Add a value, in place of one that has its name. -/
def insert (m : NameIndex name) (a : α) : NameIndex name :=
  ⟨insertInto name a m.toList, ordered_insertInto m.ordered⟩

/-- The index of the values of a list. Of two with one name the later stays. -/
def ofList (l : List α) : NameIndex name :=
  l.foldl insert empty

/-! ### What an index answers -/

@[simp] theorem get?_empty (n : Name) : (empty : NameIndex name).get? n = none := rfl

theorem find?_insertInto (a : α) {l : List α}
    (h : l.Pairwise fun a b ↦ (name a).before (name b)) (n : Name) :
    (insertInto name a l).find? (fun b ↦ name b == n) =
      if name a = n then some a else l.find? fun b ↦ name b == n := by
  induction l with
  | nil => by_cases hn : name a = n <;> simp [insertInto, hn]
  | cons b l ih =>
    obtain ⟨hb, hl⟩ := List.pairwise_cons.1 h
    rw [insertInto]
    split
    · next hab =>
      by_cases hn : name a = n
      · simp [hn]
      · simp [hn, ← hab]
    · next hab =>
      split
      · by_cases hn : name a = n <;> simp [List.find?_cons, hn]
      · rw [List.find?_cons, ih hl]
        by_cases hbn : name b = n
        · simp [hbn, show name a ≠ n from fun h ↦ hab (h.trans hbn.symm)]
        · have hf : (name b == n) = false := by simpa using hbn
          simp [hf]

/-- After a value was added, its name answers with it and every other name as before. -/
theorem get?_insert (m : NameIndex name) (a : α) (n : Name) :
    (m.insert a).get? n = if name a = n then some a else m.get? n :=
  find?_insertInto a m.ordered n

theorem name_of_get? {m : NameIndex name} {n : Name} {a : α} (h : m.get? n = some a) :
    name a = n := by
  simpa using List.find?_some h

theorem mem_of_get? {m : NameIndex name} {n : Name} {a : α} (h : m.get? n = some a) :
    a ∈ m.toList :=
  List.mem_of_find?_eq_some h

theorem contains_insert (m : NameIndex name) (a : α) (n : Name) :
    (m.insert a).contains n = (name a == n || m.contains n) := by
  by_cases h : name a = n <;> simp [contains, get?_insert, h]

private theorem get?_of_mem_ordered {l : List α}
    (h : l.Pairwise fun a b ↦ (name a).before (name b)) {a : α} (ha : a ∈ l) :
    l.find? (fun b ↦ name b == name a) = some a := by
  induction l with
  | nil => simp at ha
  | cons b l ih =>
    obtain ⟨hb, hl⟩ := List.pairwise_cons.1 h
    rcases List.mem_cons.1 ha with rfl | ha
    · simp
    · have hne : name b ≠ name a := fun e ↦ by
        simpa [e, Name.before_irrefl] using hb a ha
      simp [beq_eq_false_iff_ne.2 hne, ih hl ha]

/-- A value of the index is what its name answers with. -/
theorem get?_of_mem {m : NameIndex name} {a : α} (ha : a ∈ m.toList) :
    m.get? (name a) = some a :=
  get?_of_mem_ordered m.ordered ha

theorem mem_toList_iff {m : NameIndex name} {a : α} : a ∈ m.toList ↔ m.get? (name a) = some a :=
  ⟨get?_of_mem, mem_of_get?⟩

private theorem eq_of_same_members {l l' : List α}
    (h : l.Pairwise fun a b ↦ (name a).before (name b))
    (h' : l'.Pairwise fun a b ↦ (name a).before (name b))
    (hmem : ∀ a, a ∈ l ↔ a ∈ l') : l = l' := by
  induction l generalizing l' with
  | nil =>
    cases l' with
    | nil => rfl
    | cons b l' => simpa using hmem b
  | cons a l ih =>
    obtain ⟨ha, hl⟩ := List.pairwise_cons.1 h
    cases l' with
    | nil => simpa using hmem a
    | cons b l' =>
      obtain ⟨hb, hl'⟩ := List.pairwise_cons.1 h'
      have hab : a = b := by
        rcases List.mem_cons.1 ((hmem a).1 List.mem_cons_self) with e | h₁
        · exact e
        · rcases List.mem_cons.1 ((hmem b).2 List.mem_cons_self) with e | h₂
          · exact e.symm
          · simpa [Name.before_asymm (hb a h₁)] using ha b h₂
      subst hab
      congr 1
      refine ih hl hl' fun x ↦ ⟨fun hx ↦ ?_, fun hx ↦ ?_⟩
      · rcases List.mem_cons.1 ((hmem x).1 (List.mem_cons_of_mem _ hx)) with rfl | h₁
        · simpa [Name.before_irrefl] using ha x hx
        · exact h₁
      · rcases List.mem_cons.1 ((hmem x).2 (List.mem_cons_of_mem _ hx)) with rfl | h₁
        · simpa [Name.before_irrefl] using hb x hx
        · exact h₁

/-- An index is determined by what it answers. -/
theorem ext_get? {m m' : NameIndex name} (h : ∀ n, m.get? n = m'.get? n) : m = m' :=
  eq_of_toList_eq <| eq_of_same_members m.ordered m'.ordered fun a ↦ by
    rw [mem_toList_iff, mem_toList_iff, h]

end NameIndex

/-- A set of names, in order. -/
abbrev NameSet := NameIndex (id : Name → Name)

namespace NameSet

/-- Add every name of a list. -/
def insertAll (u : NameSet) (ns : List Name) : NameSet :=
  ns.foldl NameIndex.insert u

/-- After a list was added, the set has the names of the list and those it had before. -/
theorem contains_insertAll (u : NameSet) (ns : List Name) (n : Name) :
    (u.insertAll ns).contains n = (ns.contains n || u.contains n) := by
  induction ns generalizing u with
  | nil => simp [insertAll]
  | cons m ns ih =>
    show (NameSet.insertAll (u.insert m) ns).contains n = _
    rw [ih, NameIndex.contains_insert, List.contains_cons, id, Bool.beq_comm]
    cases n == m <;> cases ns.contains n <;> rfl

end NameSet

end RankMetric
