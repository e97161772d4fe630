import Mathlib.Data.List.Forall2
import Mathlib.Order.Bounds.Basic
import RankMetric.Propagation
import RankMetric.Proofs.LevelOrder

/-!
# Levels after propagation

Propagation changes the levels of statements and nothing else, and it only raises them
(`Propagation.lifts_apply`). What remains to be said is how far.

* Under `heuristic` a line without a brace of its own keeps its level (`keeps_byNeighbours`). A pass
  raises lines of one shape, so this holds of each pass, whatever the lines around are. What the two
  passes make of the other lines is told by `TakesByNeighbours`: a line gets the highest level of
  the lines that a chain of braces leads to.
* Under `blockTree` line `i` gets the highest level in the outermost block that has it
  (`getElem?_byBlocks`). The block is `blockAt ss i`, and it is the line alone if the line is in no
  block. The proof is one induction on the outline, for any way to change the lines of a block that
  leaves a line alone when it is the whole block (`getElem?_toList_mapBlocks`).

So under either strategy a line has the greatest of the levels that it takes from lines of the list
(`isGreatest_level_apply`), and no level comes from elsewhere.
-/

namespace RankMetric

/-! ### Lifted statements -/

namespace Statement

/-- The second statement is the first at a level that is no lower. -/
def Lifts (s s' : Statement) : Prop :=
  ∃ l, s' = s.raise l

variable {s s' s'' : Statement}

theorem raise_eq_self {l : Level} (h : l ≤ s.level) : s.raise l = s := by
  rw [raise, max_eq_left h]

theorem Lifts.refl (s : Statement) : s.Lifts s :=
  ⟨.constant, (raise_eq_self (Level.constant_le _)).symm⟩

theorem Lifts.trans (h : s.Lifts s') (h' : s'.Lifts s'') : s.Lifts s'' := by
  obtain ⟨l, rfl⟩ := h
  obtain ⟨l', rfl⟩ := h'
  exact ⟨max l l', by simp [raise, max_assoc]⟩

theorem lifts_raise (s : Statement) (l : Level) : s.Lifts (s.raise l) :=
  ⟨l, rfl⟩

theorem Lifts.level_le (h : s.Lifts s') : s.level ≤ s'.level := by
  obtain ⟨l, rfl⟩ := h
  exact le_max_left _ _

theorem Lifts.text_eq (h : s.Lifts s') : s'.text = s.text := by
  obtain ⟨l, rfl⟩ := h
  rfl

theorem Lifts.action_eq (h : s.Lifts s') : s'.action = s.action := by
  obtain ⟨l, rfl⟩ := h
  rfl

theorem Lifts.shape_eq (h : s.Lifts s') : s'.shape = s.shape := by
  rw [shape, h.text_eq, shape]

/-- A raised statement keeps its level or has the one it was raised to. -/
theorem level_raise_eq (s : Statement) (l : Level) :
    (s.raise l).level = s.level ∨ (s.raise l).level = l :=
  (le_total l s.level).imp max_eq_left max_eq_right

/-- A text without braces neither opens nor closes a block. -/
theorem shape_eq_plain (hopening : '{' ∉ s.text) (hclosing : '}' ∉ s.text) :
    s.shape = .plain := by
  have ho : s.text.contains '{' = false := by simpa using hopening
  have hc : s.text.contains '}' = false := by simpa using hclosing
  rw [shape, Shape.ofText, ho, hc]

end Statement

/-! ### Lists related member by member -/

section Forall₂

open List (Forall₂)

variable {α : Type} {P Q R S : α → α → Prop} {l l' l'' : List α}

theorem forall₂_comp (hPQ : ∀ {a b c}, P a b → Q b c → R a c) (h : Forall₂ P l l')
    (h' : Forall₂ Q l' l'') : Forall₂ R l l'' := by
  induction h generalizing l'' with
  | nil =>
    cases h'
    exact .nil
  | cons hab _ ih =>
    cases h' with
    | cons hbc h' => exact .cons (hPQ hab hbc) (ih h')

theorem exists_getElem?_of_forall₂ (h : Forall₂ P l l') {i : Nat} {b : α} (hb : l'[i]? = some b) :
    ∃ a, l[i]? = some a ∧ P a b := by
  induction h generalizing i with
  | nil => cases hb
  | @cons a b' l l' hab _ ih =>
    cases i with
    | zero =>
      obtain rfl := Option.some.inj hb
      exact ⟨a, rfl, hab⟩
    | succ i => exact ih hb

theorem exists_getElem?_of_lt_length (h : Forall₂ P l l') {i : Nat} (hi : i < l.length) :
    ∃ b, l'[i]? = some b :=
  ⟨_, List.getElem?_eq_getElem (h.length_eq ▸ hi)⟩

theorem exists_of_mem_forall₂ (h : Forall₂ P l l') {b : α} (hb : b ∈ l') : ∃ a ∈ l, P a b := by
  obtain ⟨i, hi⟩ := List.mem_iff_getElem?.1 hb
  obtain ⟨a, ha, hab⟩ := exists_getElem?_of_forall₂ h hi
  exact ⟨a, List.mem_of_getElem? ha, hab⟩

/-- What holds between earlier and later members of one list holds, in the form it takes there,
between those of the other. -/
theorem pairwise_of_forall₂ (hRS : ∀ {a a' b b'}, P a a' → P b b' → R a b → S a' b')
    (h : Forall₂ P l l') (hl : l.Pairwise R) : l'.Pairwise S := by
  induction h with
  | nil => exact .nil
  | cons hab h ih =>
    obtain ⟨hfirst, hrest⟩ := List.pairwise_cons.1 hl
    refine List.pairwise_cons.2 ⟨fun b hb ↦ ?_, ih hrest⟩
    obtain ⟨a, ha, hab'⟩ := exists_of_mem_forall₂ h hb
    exact hRS hab hab' (hfirst a ha)

end Forall₂

namespace Propagation

open List (Forall₂)

variable {s s' s'' : Statement}

/-! ### Raising by neighbours -/

/-- A statement is lifted, and not at all if it neither opens nor closes a block. -/
def Keeps (s s' : Statement) : Prop :=
  s.Lifts s' ∧ (s.shape = .plain → s' = s)

theorem Keeps.trans (h : Keeps s s') (h' : Keeps s' s'') : Keeps s s'' := by
  refine ⟨h.1.trans h'.1, fun hs ↦ ?_⟩
  obtain rfl := h.2 hs
  exact h'.2 hs

/-- Raising a line that opens or closes a block keeps the others. -/
theorem keeps_ite (s : Statement) (l : Level) {k : Shape} (hk : k ≠ .plain) :
    Keeps s (if s.shape = k then s.raise l else s) := by
  split
  · next h => exact ⟨s.lifts_raise l, fun hs ↦ absurd (h.symm.trans hs) hk⟩
  · exact ⟨.refl s, fun _ ↦ rfl⟩

theorem keeps_liftClosing (l : Level) (ss : List Statement) :
    Forall₂ Keeps ss (liftClosing l ss) := by
  induction ss generalizing l with
  | nil => exact .nil
  | cons s ss ih => exact .cons (keeps_ite s l (by decide)) (ih _)

theorem keeps_liftOpening (ss : List Statement) : Forall₂ Keeps ss (liftOpening ss) := by
  induction ss with
  | nil => exact .nil
  | cons s ss ih => exact .cons (keeps_ite s _ (by decide)) ih

/-- **Raising by neighbours keeps every line that neither opens nor closes a block.** -/
theorem keeps_byNeighbours (ss : List Statement) : Forall₂ Keeps ss (byNeighbours ss) :=
  forall₂_comp (fun h h' ↦ h.trans h') (keeps_liftClosing .constant ss) (keeps_liftOpening _)

/-! ### The lines that a neighbour's level comes from -/

variable {ss : List Statement} {x : Statement} {i : Nat}

/-- The level of line `i`, and `constant` where there is no such line. -/
def levelAt (ss : List Statement) (i : Nat) : Level :=
  (ss[i]?.map Statement.level).getD .constant

theorem levelAt_of_getElem? (h : ss[i]? = some s) : levelAt ss i = s.level := by
  rw [levelAt, h]
  rfl

/-- The forward pass looks one line back, at the level that it gave to that line. -/
theorem getElem?_liftClosing_succ (l : Level) (ss : List Statement) (i : Nat) :
    (liftClosing l ss)[i + 1]? = ss[i + 1]?.map fun s ↦
      if s.shape = .closing then s.raise (levelAt (liftClosing l ss) i) else s := by
  induction ss generalizing l i with
  | nil => rfl
  | cons s ss ih =>
    rw [liftClosing, List.getElem?_cons_succ, List.getElem?_cons_succ]
    cases i with
    | zero => cases ss <;> rfl
    | succ i => exact ih _ i

/-- The backward pass looks one line ahead, at the level that it gave to that line. -/
theorem getElem?_liftOpening (ss : List Statement) (i : Nat) :
    (liftOpening ss)[i]? = ss[i]?.map fun s ↦
      if s.shape = .opening then s.raise (levelAt (liftOpening ss) (i + 1)) else s := by
  induction ss generalizing i with
  | nil => rfl
  | cons s ss ih =>
    rw [liftOpening]
    cases i with
    | zero =>
      have hhead : ∀ ss : List Statement, headLevel ss = levelAt ss 0 := fun ss ↦ by
        cases ss <;> rfl
      rw [hhead]
      rfl
    | succ i => exact ih i

/-- Line `i` takes the level of the line `x` when levels are raised by neighbours: it is that line,
or it closes a block and the line before it takes the level of `x`, or it opens one and the line
after it does. -/
inductive TakesByNeighbours (ss : List Statement) : Nat → Statement → Prop
  | own {i : Nat} {s : Statement} (h : ss[i]? = some s) : TakesByNeighbours ss i s
  | before {i : Nat} {s x : Statement} (h : ss[i + 1]? = some s) (hs : s.shape = .closing)
      (hx : TakesByNeighbours ss i x) : TakesByNeighbours ss (i + 1) x
  | after {i : Nat} {s x : Statement} (h : ss[i]? = some s) (hs : s.shape = .opening)
      (hx : TakesByNeighbours ss (i + 1) x) : TakesByNeighbours ss i x

theorem TakesByNeighbours.mem (h : TakesByNeighbours ss i x) : x ∈ ss := by
  induction h with
  | own h => exact List.mem_of_getElem? h
  | before _ _ _ ih => exact ih
  | after _ _ _ ih => exact ih

theorem TakesByNeighbours.lt_length (h : TakesByNeighbours ss i x) : i < ss.length := by
  cases h with
  | own h => exact (List.getElem?_eq_some_iff.1 h).1
  | before h _ _ => exact (List.getElem?_eq_some_iff.1 h).1
  | after h _ _ => exact (List.getElem?_eq_some_iff.1 h).1

/-- After the forward pass a line has the level of a line whose level it takes. -/
theorem exists_takes_liftClosing (h : (liftClosing .constant ss)[i]? = some s') :
    ∃ x, TakesByNeighbours ss i x ∧ x.level = s'.level := by
  induction i generalizing s' with
  | zero =>
    cases ss with
    | nil => cases h
    | cons s ss =>
      obtain rfl := Option.some.inj h
      refine ⟨s, .own rfl, ?_⟩
      split
      · exact (max_eq_left (Level.constant_le _)).symm
      · rfl
  | succ i ih =>
    rw [getElem?_liftClosing_succ, Option.map_eq_some_iff] at h
    obtain ⟨s, hs, rfl⟩ := h
    split
    · next hclosing =>
      obtain ⟨hi, -⟩ := List.getElem?_eq_some_iff.1 hs
      obtain ⟨u, hu⟩ :=
        exists_getElem?_of_lt_length (keeps_liftClosing .constant ss) (Nat.lt_of_succ_lt hi)
      rw [levelAt_of_getElem? hu]
      rcases s.level_raise_eq u.level with hown | htaken
      · exact ⟨s, .own hs, hown.symm⟩
      · obtain ⟨x, hx, hlevel⟩ := ih hu
        exact ⟨x, .before hs hclosing hx, hlevel.trans htaken.symm⟩
    · exact ⟨s, .own hs, rfl⟩

theorem getElem?_byNeighbours (ss : List Statement) (i : Nat) :
    (byNeighbours ss)[i]? = (liftClosing .constant ss)[i]?.map fun s ↦
      if s.shape = .opening then s.raise (levelAt (byNeighbours ss) (i + 1)) else s :=
  getElem?_liftOpening _ i

/-- After both passes a line has the level of a line whose level it takes. The induction goes from
the end of the list, as the backward pass does. -/
theorem exists_takes_byNeighbours (h : (byNeighbours ss)[i]? = some s') :
    ∃ x, TakesByNeighbours ss i x ∧ x.level = s'.level := by
  induction hn : ss.length - i generalizing i s' with
  | zero =>
    obtain ⟨s, hs, -⟩ := exists_getElem?_of_forall₂ (keeps_byNeighbours ss) h
    have hi := (List.getElem?_eq_some_iff.1 hs).1
    omega
  | succ n ih =>
    rw [getElem?_byNeighbours, Option.map_eq_some_iff] at h
    obtain ⟨u, hu, rfl⟩ := h
    obtain ⟨s, hs, hlifts, -⟩ := exists_getElem?_of_forall₂ (keeps_liftClosing .constant ss) hu
    split
    · next hopening =>
      cases hnext : (byNeighbours ss)[i + 1]? with
      | none =>
        rw [levelAt, hnext, Option.map_none, Option.getD_none,
          Statement.raise_eq_self (Level.constant_le _)]
        exact exists_takes_liftClosing hu
      | some v =>
        rw [levelAt_of_getElem? hnext]
        rcases u.level_raise_eq v.level with hown | htaken
        · rw [hown]
          exact exists_takes_liftClosing hu
        · obtain ⟨x, hx, hlevel⟩ := ih hnext (by omega)
          exact ⟨x, .after hs (hlifts.shape_eq ▸ hopening) hx, hlevel.trans htaken.symm⟩
    · exact exists_takes_liftClosing hu

/-- After both passes no line is below a line whose level it takes. -/
theorem le_level_byNeighbours (hx : TakesByNeighbours ss i x)
    (h : (byNeighbours ss)[i]? = some s') : x.level ≤ s'.level := by
  induction hx generalizing s' with
  | own hs =>
    obtain ⟨s, hs', hkeeps⟩ := exists_getElem?_of_forall₂ (keeps_byNeighbours ss) h
    obtain rfl := Option.some.inj (hs.symm.trans hs')
    exact hkeeps.1.level_le
  | @before i s x hs hclosing hx ih =>
    have hraised : s' = s.raise (levelAt (liftClosing .constant ss) i) := by
      rw [getElem?_byNeighbours, getElem?_liftClosing_succ, hs, Option.map_some, Option.map_some,
        if_pos hclosing, Statement.raise_shape, hclosing, if_neg (by decide)] at h
      exact (Option.some.inj h).symm
    obtain ⟨v, hv⟩ := exists_getElem?_of_lt_length (keeps_byNeighbours ss) hx.lt_length
    have hle := ih hv
    rw [getElem?_byNeighbours, Option.map_eq_some_iff] at hv
    obtain ⟨u, hu, rfl⟩ := hv
    have hbefore : u.level ≤ s'.level := by
      rw [hraised, levelAt_of_getElem? hu]
      exact le_max_right _ _
    -- if the line before was raised by the backward pass, then by this very line
    split at hle
    · rw [levelAt_of_getElem? h] at hle
      exact hle.trans (max_le hbefore le_rfl)
    · exact hle.trans hbefore
  | @after i s x hs hopening hx ih =>
    obtain ⟨u, hu⟩ := exists_getElem?_of_lt_length (keeps_byNeighbours ss) hx.lt_length
    rw [getElem?_byNeighbours, Option.map_eq_some_iff] at h
    obtain ⟨v, hv, rfl⟩ := h
    obtain ⟨w, hw, hlifts, -⟩ := exists_getElem?_of_forall₂ (keeps_liftClosing .constant ss) hv
    obtain rfl := Option.some.inj (hs.symm.trans hw)
    rw [if_pos (hlifts.shape_eq.trans hopening), levelAt_of_getElem? hu]
    exact (ih hu).trans (le_max_right _ _)

end Propagation

/-! ### Raising by blocks -/

namespace Outline

variable {α : Type}

/-- The lines of the outermost block that has line `i` in it, or the line alone if no block has. -/
def nodeAt : Outline α → Nat → List α
  | nil, _ => []
  | line a _, 0 => [a]
  | line _ rest, i + 1 => rest.nodeAt i
  | block o inner c rest, i =>
    if i < (blockLines o inner c).length then blockLines o inner c
    else rest.nodeAt (i - (blockLines o inner c).length)

theorem nodeAt_of_lt {o : α} {inner : Outline α} {c : Option α} {i : Nat}
    (h : i < (blockLines o inner c).length) (rest : Outline α) :
    (block o inner c rest).nodeAt i = blockLines o inner c :=
  if_pos h

theorem nodeAt_length_add (o : α) (inner : Outline α) (c : Option α) (rest : Outline α) (i : Nat) :
    (block o inner c rest).nodeAt ((blockLines o inner c).length + i) = rest.nodeAt i := by
  rw [nodeAt, if_neg (Nat.not_lt.2 (Nat.le_add_right _ i)), Nat.add_sub_cancel_left]

theorem toList_block (o : α) (inner : Outline α) (c : Option α) (rest : Outline α) :
    (block o inner c rest).toList = blockLines o inner c ++ rest.toList := rfl

theorem getElem?_toList_length_add (o : α) (inner : Outline α) (c : Option α) (rest : Outline α)
    (i : Nat) :
    (block o inner c rest).toList[(blockLines o inner c).length + i]? = rest.toList[i]? := by
  rw [toList_block, List.getElem?_append_right (Nat.le_add_right _ i), Nat.add_sub_cancel_left]

/-- A line is one of the lines of its block. -/
theorem mem_nodeAt (l : Outline α) {i : Nat} {a : α} (h : l.toList[i]? = some a) :
    a ∈ l.nodeAt i := by
  induction l generalizing i with
  | nil => cases h
  | line b rest ih =>
    cases i with
    | zero =>
      obtain rfl := Option.some.inj h
      exact List.mem_singleton.2 rfl
    | succ i => exact ih h
  | block o inner c rest _ ih =>
    rw [toList_block, List.getElem?_append] at h
    rw [nodeAt]
    split
    · next hi =>
      rw [if_pos hi] at h
      exact List.mem_of_getElem? h
    · next hi =>
      rw [if_neg hi] at h
      exact ih h

/-- The lines of a block are lines of the outline. -/
theorem mem_toList_of_mem_nodeAt (l : Outline α) {i : Nat} {a : α} (h : a ∈ l.nodeAt i) :
    a ∈ l.toList := by
  induction l generalizing i with
  | nil => cases h
  | line b rest ih =>
    cases i with
    | zero =>
      obtain rfl := List.mem_singleton.1 h
      exact List.mem_cons_self
    | succ i => exact List.mem_cons_of_mem _ (ih h)
  | block o inner c rest _ ih =>
    rw [nodeAt] at h
    rw [toList_block, List.mem_append]
    split at h
    · exact .inl h
    · exact .inr (ih h)

/-- **What happens to one line** when the lines of each outermost block are changed: it is changed
by its own block, also if it is in no block, provided that such a line stays. -/
theorem getElem?_toList_mapBlocks {f : List α → α → α} (hf : ∀ a, f [a] a = a) (l : Outline α)
    (i : Nat) : (l.mapBlocks f).toList[i]? = l.toList[i]?.map (f (l.nodeAt i)) := by
  induction l generalizing i with
  | nil => rfl
  | line a rest ih =>
    cases i with
    | zero => exact congrArg some (hf a).symm
    | succ i => exact ih i
  | block o inner c rest _ ih =>
    have hblock : ((block o inner c rest).mapBlocks f).toList =
        (blockLines o inner c).map (f (blockLines o inner c)) ++ (rest.mapBlocks f).toList := by
      cases c <;> simp [mapBlocks, toList, blockLines, toList_map]
    rw [hblock, toList_block, List.getElem?_append, List.getElem?_append, List.length_map, nodeAt]
    -- line `i` is in this block, or it is a line of the rest
    split
    · rw [List.getElem?_map]
    · exact ih _

end Outline

namespace Propagation

/-- The lines of the outermost block that has statement `i` in it, or the statement alone if no
block has. -/
def blockAt (ss : List Statement) (i : Nat) : List Statement :=
  (Outline.ofList Statement.shape ss).nodeAt i

variable {ss : List Statement} {s s' : Statement} {i : Nat}

theorem mem_blockAt (h : ss[i]? = some s) : s ∈ blockAt ss i := by
  refine Outline.mem_nodeAt _ ?_
  rw [Outline.toList_ofList]
  exact h

theorem mem_of_mem_blockAt (h : s ∈ blockAt ss i) : s ∈ ss := by
  have hmem := Outline.mem_toList_of_mem_nodeAt _ h
  rwa [Outline.toList_ofList] at hmem

theorem raiseToJoin_singleton (s : Statement) : raiseToJoin [s] s = s := by
  refine Statement.raise_eq_self (Level.join_le_iff.2 fun l hl ↦ ?_)
  exact (List.mem_singleton.1 hl).le

/-- **Raising by blocks raises a statement to the highest level in its block.** -/
theorem getElem?_byBlocks (ss : List Statement) (i : Nat) :
    (byBlocks ss)[i]? = ss[i]?.map (raiseToJoin (blockAt ss i)) := by
  rw [byBlocks, Outline.getElem?_toList_mapBlocks raiseToJoin_singleton, Outline.toList_ofList]
  rfl

theorem byBlocks_eq_mapIdx (ss : List Statement) :
    byBlocks ss = ss.mapIdx fun i ↦ raiseToJoin (blockAt ss i) :=
  List.ext_getElem? fun i ↦ by rw [getElem?_byBlocks, List.getElem?_mapIdx]

theorem level_raiseToJoin (h : s ∈ ss) :
    (raiseToJoin ss s).level = Level.join (ss.map Statement.level) :=
  max_eq_right (Level.le_join (List.mem_map_of_mem h))

theorem lifts_byBlocks (ss : List Statement) : List.Forall₂ Statement.Lifts ss (byBlocks ss) := by
  have hlen : (byBlocks ss).length = ss.length := by rw [byBlocks_eq_mapIdx, List.length_mapIdx]
  refine List.forall₂_iff_get.2 ⟨hlen.symm, fun i h h' ↦ ?_⟩
  have hget := getElem?_byBlocks ss i
  rw [List.getElem?_eq_getElem h, List.getElem?_eq_getElem h'] at hget
  exact ⟨_, Option.some.inj hget⟩

/-- The lines whose levels line `i` takes: by neighbours those that a chain of braces leads to, and
by blocks those of its outermost block. -/
def Takes : Propagation → List Statement → Nat → Statement → Prop
  | heuristic, ss, i, x => TakesByNeighbours ss i x
  | blockTree, ss, i, x => x ∈ blockAt ss i

theorem Takes.mem {p : Propagation} {x : Statement} (h : p.Takes ss i x) : x ∈ ss := by
  cases p with
  | heuristic => exact TakesByNeighbours.mem h
  | blockTree => exact mem_of_mem_blockAt h

/-- **The level of a line after propagation is the greatest of those that it takes.** -/
theorem isGreatest_level_apply {p : Propagation} (h : (p.apply ss)[i]? = some s') :
    IsGreatest {l | ∃ x, p.Takes ss i x ∧ x.level = l} s'.level := by
  cases p with
  | heuristic =>
    refine ⟨exists_takes_byNeighbours h, ?_⟩
    rintro l ⟨x, hx, rfl⟩
    exact le_level_byNeighbours hx h
  | blockTree =>
    rw [apply, getElem?_byBlocks, Option.map_eq_some_iff] at h
    obtain ⟨s, hs, rfl⟩ := h
    have hmem := mem_blockAt hs
    have hne : (blockAt ss i).map Statement.level ≠ [] :=
      List.ne_nil_of_mem (List.mem_map_of_mem hmem)
    rw [level_raiseToJoin hmem]
    refine ⟨?_, ?_⟩
    · exact List.mem_map.1 (Level.join_mem hne)
    · rintro l ⟨x, hx, rfl⟩
      exact Level.le_join (List.mem_map_of_mem hx)

/-- A line reaches a level by propagation exactly if a line whose level it takes has it. -/
theorem le_level_apply_iff {p : Propagation} (h : (p.apply ss)[i]? = some s') {l : Level} :
    l ≤ s'.level ↔ ∃ x, p.Takes ss i x ∧ l ≤ x.level := by
  obtain ⟨⟨x, hx, hlevel⟩, hgreatest⟩ := isGreatest_level_apply h
  constructor
  · intro hl
    exact ⟨x, hx, hl.trans_eq hlevel.symm⟩
  · rintro ⟨y, hy, hl⟩
    exact hl.trans (hgreatest ⟨y, hy, rfl⟩)

/-- **Propagation lifts statements and does nothing else.** -/
theorem lifts_apply (p : Propagation) (ss : List Statement) :
    List.Forall₂ Statement.Lifts ss (p.apply ss) := by
  cases p with
  | heuristic => exact (keeps_byNeighbours ss).imp fun _ _ h ↦ h.1
  | blockTree => exact lifts_byBlocks ss

end Propagation

end RankMetric
