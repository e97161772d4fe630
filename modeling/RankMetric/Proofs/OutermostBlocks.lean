import Mathlib.Data.List.Nodup
import RankMetric.Proofs.ListNesting
import RankMetric.Proofs.PropagationClosure

/-!
# Outermost blocks

Raising by blocks is defined on the outline of a list. This module says what it comes to in terms of
the list alone: at which places the lines of each outermost block stand (`Propagation.outermost`),
and what becomes of the level at each place.

* A line in an outermost block gets the highest level in the block, and any other line keeps its own
  (`getElem?_byBlocks_of_mem`, `getElem?_byBlocks_of_notMem`).
* So the lines of each block come to one level, and no list with this property lies between the two
  (`Propagation.EvenBlocks`).
* The blocks may as well be raised one after another, each by the levels that it finds
  (`Propagation.raiseAt`). No two of them share a place, so none changes a level that another one
  looks at, and their order does not matter (`foldl_raiseAt`).

`byBlocks_closed_form` puts these together.
-/

namespace RankMetric

open List (Forall₂)

namespace Outline

variable {α : Type} {o : Outline α} {a : α} {b : List α} {i : Nat}

/-- The lines of each outermost block: its opening line, all that is nested in it, and its closing
line. -/
def outerBlocks : Outline α → List (List α)
  | nil => []
  | line _ rest => rest.outerBlocks
  | block a inner c rest => blockLines a inner c :: rest.outerBlocks

theorem exists_nodeAt_of_mem_outerBlocks (hb : b ∈ o.outerBlocks) : ∃ i, o.nodeAt i = b := by
  induction o with
  | nil => cases hb
  | line a rest ih =>
    obtain ⟨i, hi⟩ := ih hb
    exact ⟨i + 1, hi⟩
  | block a inner c rest _ ih =>
    rcases List.mem_cons.1 hb with rfl | hb
    · exact ⟨0, nodeAt_of_lt (Nat.succ_pos _) rest⟩
    · obtain ⟨i, hi⟩ := ih hb
      exact ⟨(blockLines a inner c).length + i, (nodeAt_length_add a inner c rest i).trans hi⟩

/-- A line is in an outermost block, or it is a node by itself. -/
theorem nodeAt_mem_or_eq (hi : o.toList[i]? = some a) :
    o.nodeAt i ∈ o.outerBlocks ∨ o.nodeAt i = [a] := by
  induction o generalizing i with
  | nil => cases hi
  | line b rest ih =>
    cases i with
    | zero =>
      obtain rfl := Option.some.inj hi
      exact .inr rfl
    | succ i => exact ih hi
  | block b inner c rest _ ih =>
    rw [toList_block, List.getElem?_append] at hi
    rw [nodeAt, outerBlocks]
    split at hi
    · next hlt =>
      rw [if_pos hlt]
      exact .inl List.mem_cons_self
    · next hlt =>
      rw [if_neg hlt]
      exact (ih hi).imp_left (List.mem_cons_of_mem _)

theorem flatten_outerBlocks_sublist (o : Outline α) : o.outerBlocks.flatten.Sublist o.toList := by
  induction o with
  | nil => exact .slnil
  | line a rest ih => exact ih.cons a
  | block a inner c rest _ ih => exact (List.Sublist.refl _).append ih

end Outline

namespace Propagation

variable {ss ss' : List Statement} {s : Statement} {b : List Nat} {bs : List (List Nat)} {i j : Nat}

/-- The places of the lines of each outermost block. -/
def outermost (ss : List Statement) : List (List Nat) :=
  (Outline.places (ss.map Statement.shape)).outerBlocks

/-! ### The level at a place -/

theorem map_levelAt_nodeAt (ss : List Statement) (i : Nat) :
    ((Outline.places (ss.map Statement.shape)).nodeAt i).map (levelAt ss) =
      (blockAt ss i).map Statement.level := by
  have hlines : ((Outline.places (ss.map Statement.shape)).nodeAt i).map (ss[·]?) =
      (blockAt ss i).map some := by
    rw [← Outline.nodeAt_map, Outline.map_places, Outline.nodeAt_map, blockAt]
  have hlevels := congrArg (List.map fun x ↦ (Option.map Statement.level x).getD .constant) hlines
  rwa [List.map_map, List.map_map] at hlevels

theorem toList_places_getElem? (hi : i < ss.length) :
    (Outline.places (ss.map Statement.shape)).toList[i]? = some i := by
  rw [Outline.toList_places, List.getElem?_range (by rwa [List.length_map])]

/-- A line of an outermost block is in no other. -/
theorem nodeAt_places_of_mem (hb : b ∈ outermost ss) (hi : i ∈ b) :
    i < ss.length ∧ (Outline.places (ss.map Statement.shape)).nodeAt i = b := by
  obtain ⟨j, rfl⟩ := Outline.exists_nodeAt_of_mem_outerBlocks hb
  obtain ⟨k, hk, hnode⟩ := Outline.exists_nodeAt_eq _ hi
  rw [Outline.toList_places, List.length_map, List.getElem?_eq_some_iff] at hk
  obtain ⟨hlt, hk⟩ := hk
  obtain rfl : k = i := by rwa [List.getElem_range] at hk
  exact ⟨by simpa using hlt, hnode⟩

/-- **A line of an outermost block gets the highest level in it.** -/
theorem getElem?_byBlocks_of_mem (hb : b ∈ outermost ss) (hi : i ∈ b) :
    (byBlocks ss)[i]? = ss[i]?.map (Statement.raise (Level.join (b.map (levelAt ss)))) := by
  obtain ⟨-, rfl⟩ := nodeAt_places_of_mem hb hi
  rw [getElem?_byBlocks, map_levelAt_nodeAt]
  rfl

/-- **A line outside all blocks keeps its level.** -/
theorem getElem?_byBlocks_of_notMem (h : ∀ b ∈ outermost ss, i ∉ b) :
    (byBlocks ss)[i]? = ss[i]? := by
  rw [getElem?_byBlocks]
  cases hs : ss[i]? with
  | none => rfl
  | some s =>
    have hi : i < ss.length := (List.getElem?_eq_some_iff.1 hs).1
    have hplace := toList_places_getElem? hi
    have hnode : (Outline.places (ss.map Statement.shape)).nodeAt i = [i] :=
      (Outline.nodeAt_mem_or_eq hplace).resolve_left fun hmem ↦
        h _ hmem (Outline.mem_nodeAt _ hplace)
    have hlevels := map_levelAt_nodeAt ss i
    rw [hnode, List.map_singleton, levelAt_of_getElem? hs] at hlevels
    rw [Option.map_some, raiseToJoin, ← hlevels]
    exact congrArg some (Statement.raise_eq_self (Level.join_le_iff.2 (by simp)))

theorem isGreatest_levelAt_byBlocks (hb : b ∈ outermost ss) (hi : i ∈ b) :
    IsGreatest {l | ∃ j ∈ b, levelAt ss j = l} (levelAt (byBlocks ss) i) := by
  have hlevel : levelAt (byBlocks ss) i = Level.join (b.map (levelAt ss)) := by
    obtain ⟨hlt, -⟩ := nodeAt_places_of_mem hb hi
    have hget := getElem?_byBlocks_of_mem hb hi
    rw [List.getElem?_eq_getElem hlt, Option.map_some] at hget
    rw [levelAt_of_getElem? hget, Statement.raise_level, max_eq_right]
    exact Level.le_join (List.mem_map.2 ⟨i, hi, levelAt_of_getElem? (List.getElem?_eq_getElem hlt)⟩)
  have hne : b.map (levelAt ss) ≠ [] := List.ne_nil_of_mem (List.mem_map_of_mem hi)
  rw [hlevel]
  refine ⟨List.mem_map.1 (Level.join_mem hne), ?_⟩
  rintro l ⟨j, hj, rfl⟩
  exact Level.le_join (List.mem_map_of_mem hj)

/-! ### Blocks of one level -/

/-- The second list is the first with statements raised so that the lines of each outermost block
have one level. -/
structure EvenBlocks (ss ss' : List Statement) : Prop where
  lifts : Forall₂ Statement.Lifts ss ss'
  even : ∀ b ∈ outermost ss, ∀ i ∈ b, ∀ j ∈ b, levelAt ss' i = levelAt ss' j

theorem evenBlocks_byBlocks (ss : List Statement) : EvenBlocks ss (byBlocks ss) where
  lifts := lifts_byBlocks ss
  even _ hb _ hi _ hj :=
    (isGreatest_levelAt_byBlocks hb hi).unique (isGreatest_levelAt_byBlocks hb hj)

theorem levelAt_le_of_lifts (h : Forall₂ Statement.Lifts ss ss') (i : Nat) :
    levelAt ss i ≤ levelAt ss' i := by
  cases hs : ss[i]? with
  | none =>
    rw [levelAt, hs]
    exact Level.constant_le _
  | some s =>
    obtain ⟨s', hs', hlifts⟩ := getElem?_of_forall₂ h hs
    rw [levelAt_of_getElem? hs, levelAt_of_getElem? hs']
    exact hlifts.level_le

/-- **No fewer levels will do.** -/
theorem EvenBlocks.lifts_byBlocks (h : EvenBlocks ss ss') :
    Forall₂ Statement.Lifts (byBlocks ss) ss' := by
  have hlength : (byBlocks ss).length = ss'.length :=
    (length_apply .blockTree ss).trans h.lifts.length_eq
  refine forall₂_of_getElem? hlength fun i u u' hu hu' ↦ ?_
  obtain ⟨s, hs, hlifts⟩ := exists_getElem?_of_forall₂ (Propagation.lifts_byBlocks ss) hu
  obtain ⟨s', hs', hlifts'⟩ := getElem?_of_forall₂ h.lifts hs
  obtain rfl := Option.some.inj (hu'.symm.trans hs')
  by_cases hblock : ∃ b ∈ outermost ss, i ∈ b
  · obtain ⟨b, hb, hi⟩ := hblock
    refine hlifts.lifts_of_level_le hlifts' ?_
    obtain ⟨j, hj, hlevel⟩ := (isGreatest_levelAt_byBlocks hb hi).1
    calc
      u.level = levelAt ss j := by rw [hlevel, levelAt_of_getElem? hu]
      _ ≤ levelAt ss' j := levelAt_le_of_lifts h.lifts j
      _ = u'.level := by rw [h.even b hb j hj i hi, levelAt_of_getElem? hu']
  · have hkept : (byBlocks ss)[i]? = ss[i]? :=
      getElem?_byBlocks_of_notMem fun b hb hi ↦ hblock ⟨b, hb, hi⟩
    rw [hu, hs] at hkept
    rwa [Option.some.inj hkept]

/-! ### Raising block after block -/

/-- Raise the statements at some places to the highest level among them. -/
def raiseAt (ss : List Statement) (b : List Nat) : List Statement :=
  ss.mapIdx fun i s ↦ if i ∈ b then s.raise (Level.join (b.map (levelAt ss))) else s

theorem getElem?_raiseAt_of_notMem (hi : i ∉ b) : (raiseAt ss b)[i]? = ss[i]? := by
  rw [raiseAt, List.getElem?_mapIdx]
  simp [hi]

theorem getElem?_raiseAt_of_mem (hi : i ∈ b) :
    (raiseAt ss b)[i]? = ss[i]?.map (Statement.raise (Level.join (b.map (levelAt ss)))) := by
  rw [raiseAt, List.getElem?_mapIdx]
  simp [hi]

theorem getElem?_foldl_raiseAt_of_notMem (h : ∀ b ∈ bs, i ∉ b) :
    (bs.foldl raiseAt ss)[i]? = ss[i]? := by
  induction bs generalizing ss with
  | nil => rfl
  | cons b bs ih =>
    obtain ⟨hb, hbs⟩ := List.forall_mem_cons.1 h
    rw [List.foldl_cons, ih hbs, getElem?_raiseAt_of_notMem hb]

/-- A block is raised by the levels that its lines had at first, whatever has been raised before,
since no other block has a place of it. -/
theorem getElem?_foldl_raiseAt_of_mem (hdisjoint : bs.Pairwise List.Disjoint) (hb : b ∈ bs)
    (hi : i ∈ b) : (bs.foldl raiseAt ss)[i]? =
      ss[i]?.map (Statement.raise (Level.join (b.map (levelAt ss)))) := by
  induction bs generalizing ss with
  | nil => cases hb
  | cons c bs ih =>
    obtain ⟨hc, hbs⟩ := List.pairwise_cons.1 hdisjoint
    rw [List.foldl_cons]
    rcases List.mem_cons.1 hb with rfl | hb
    · have hrest : ∀ d ∈ bs, i ∉ d := fun d hd hid ↦ hc d hd hi hid
      rw [getElem?_foldl_raiseAt_of_notMem hrest, getElem?_raiseAt_of_mem hi]
    · have hkept : ∀ j ∈ b, (raiseAt ss c)[j]? = ss[j]? := fun j hj ↦
        getElem?_raiseAt_of_notMem fun hjc ↦ hc b hb hjc hj
      have hlevels : b.map (levelAt (raiseAt ss c)) = b.map (levelAt ss) :=
        List.map_congr_left fun j hj ↦ by rw [levelAt, hkept j hj, levelAt]
      rw [ih hbs hb, hkept i hi, hlevels]

theorem pairwise_disjoint_outermost (ss : List Statement) :
    (outermost ss).Pairwise List.Disjoint := by
  have hsublist := Outline.flatten_outerBlocks_sublist (Outline.places (ss.map Statement.shape))
  rw [Outline.toList_places] at hsublist
  exact (List.nodup_flatten.1 (hsublist.nodup List.nodup_range)).2

/-- **The blocks may be raised one after another**, in any order. -/
theorem foldl_raiseAt (h : bs.Perm (outermost ss)) : bs.foldl raiseAt ss = byBlocks ss := by
  have hdisjoint : bs.Pairwise List.Disjoint :=
    (h.pairwise_iff List.disjoint_symm).2 (pairwise_disjoint_outermost ss)
  refine List.ext_getElem? fun i ↦ ?_
  by_cases hblock : ∃ b ∈ bs, i ∈ b
  · obtain ⟨b, hb, hi⟩ := hblock
    rw [getElem?_foldl_raiseAt_of_mem hdisjoint hb hi, getElem?_byBlocks_of_mem (h.mem_iff.1 hb) hi]
  · have hnone : ∀ b ∈ bs, i ∉ b := fun b hb hi ↦ hblock ⟨b, hb, hi⟩
    rw [getElem?_foldl_raiseAt_of_notMem hnone,
      getElem?_byBlocks_of_notMem fun b hb ↦ hnone b (h.mem_iff.2 hb)]

/-- **What raising by blocks comes to.** A line in an outermost block gets the highest of the levels
that the lines of the block have, from its opening line to its closing line. Any other line stays as
it is. The result is the least of the lists in which statements are raised so that the lines of each
outermost block have one level, and raising the blocks one after another leads to it as well, in
whatever order they are taken. -/
theorem byBlocks_closed_form (ss : List Statement) :
    (∀ b ∈ outermost ss, ∀ i ∈ b,
        IsGreatest {l | ∃ j ∈ b, levelAt ss j = l} (levelAt (byBlocks ss) i)) ∧
      (∀ i, (∀ b ∈ outermost ss, i ∉ b) → (byBlocks ss)[i]? = ss[i]?) ∧
      EvenBlocks ss (byBlocks ss) ∧
      (∀ ss', EvenBlocks ss ss' → Forall₂ Statement.Lifts (byBlocks ss) ss') ∧
      ∀ bs : List (List Nat), bs.Perm (outermost ss) → bs.foldl raiseAt ss = byBlocks ss :=
  ⟨fun _ hb _ hi ↦ isGreatest_levelAt_byBlocks hb hi, fun _ ↦ getElem?_byBlocks_of_notMem,
    evenBlocks_byBlocks ss, fun _ h ↦ h.lifts_byBlocks, fun _ ↦ foldl_raiseAt⟩

end Propagation

end RankMetric
