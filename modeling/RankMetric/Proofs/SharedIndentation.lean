import Mathlib.Data.List.Forall2
import RankMetric.Text.Indentation

/-!
# The indentation that lines share

Taking the shared indentation from a text should take the longest run of blanks that all its lines
have in common. What is shared is found by a count of bytes, and two lines may have as many bytes of
blanks without having the same blanks: one may begin with a tab and the other with a space, and a
wide blank may be cut in the middle.

* `Text.sharedBlanks` is the longest run of blanks that the lines have in common, as a lower bound
  in the order of front parts (`Text.prefix_sharedBlanks_iff`), and `Text.withoutShared` the text
  without it.
* `Text.dedent?_eq_some_iff`: what the count of bytes does, line by line.
* `Text.sharedIndent_dedent`: nothing is left to be taken a second time.
* `Text.dedent?_eq_withoutShared_iff`: the two agree if and only if one of the lines has an
  indentation that all the others begin with.
-/

namespace RankMetric.Text

variable {s t l l' u v w : Text} {ls : List Text} {n : Nat}

/-! ### Front parts -/

/-- A front part has no more bytes than the text. -/
theorem byteLength_le_of_prefix (h : u <+: v) : byteLength u ≤ byteLength v := by
  obtain ⟨r, rfl⟩ := h
  rw [byteLength_append]
  omega

/-- Of two front parts of a text, the one with no more bytes is a front part of the other. -/
theorem prefix_of_byteLength_le (hu : u <+: l) (hv : v <+: l)
    (hle : byteLength u ≤ byteLength v) : u <+: v := by
  rcases List.prefix_or_prefix_of_prefix hu hv with h | ⟨r, rfl⟩
  · exact h
  · have hr : byteLength r = byteLength [] := by
      rw [byteLength_append] at hle
      rw [byteLength_nil]
      omega
    obtain ⟨rfl, -⟩ : r = [] ∧ [] = r := append_inj_of_byteLength_eq (List.append_nil r) hr
    exact (List.append_nil v).symm ▸ List.prefix_refl v

theorem eq_of_prefix_of_byteLength_eq (h : u <+: v) (hlength : byteLength u = byteLength v) :
    u = v := by
  obtain ⟨r, rfl⟩ := h
  exact (append_inj_of_byteLength_eq (s := r) (t := []) (List.append_nil _).symm hlength).1

/-- The longest front part that two texts share. -/
def commonPrefix : Text → Text → Text
  | c :: s, d :: t => if c = d then c :: commonPrefix s t else []
  | _, _ => []

theorem prefix_commonPrefix_iff : v <+: commonPrefix s t ↔ v <+: s ∧ v <+: t := by
  induction s generalizing t v with
  | nil => simpa [commonPrefix] using fun h : v = [] ↦ h ▸ List.nil_prefix
  | cons c s ih =>
    cases t with
    | nil => simpa [commonPrefix] using fun h : v = [] ↦ h ▸ List.nil_prefix
    | cons d t =>
      cases v with
      | nil => simp
      | cons e v =>
        rw [commonPrefix]
        split
        · next h =>
          subst h
          rw [List.cons_prefix_cons, List.cons_prefix_cons, List.cons_prefix_cons, ih]
          exact and_and_left
        · next h =>
          rw [List.cons_prefix_cons, List.cons_prefix_cons]
          refine iff_of_false (by simp) ?_
          rintro ⟨⟨rfl, -⟩, rfl, -⟩
          exact h rfl

/-- What many texts share with a first one is the longest front part of them all. -/
theorem prefix_foldl_commonPrefix_iff :
    v <+: ls.foldl commonPrefix w ↔ v <+: w ∧ ∀ l ∈ ls, v <+: l := by
  induction ls generalizing w with
  | nil => simp
  | cons l ls ih =>
    rw [List.foldl_cons, ih, prefix_commonPrefix_iff, List.forall_mem_cons, and_assoc]

/-! ### Blanks at the front -/

theorem isBlankText_append : isBlankText (s ++ t) = (isBlankText s && isBlankText t) :=
  List.all_append

theorem isBlankText_of_prefix_leadingBlanks (h : w <+: leadingBlanks l) : isBlankText w = true :=
  List.all_eq_true.2 fun _ hc ↦
    List.all_eq_true.1 (List.all_takeWhile (p := isBlank) (l := l)) _ (h.subset hc)

theorem leadingBlanks_isPrefix (l : Text) : leadingBlanks l <+: l :=
  ⟨trimStart l, leadingBlanks_append_trimStart l⟩

theorem leadingBlanks_trimStart (l : Text) : leadingBlanks (trimStart l) = [] := by
  have hhead := List.head?_dropWhile_not isBlank l
  cases h : trimStart l with
  | nil => rfl
  | cons c r =>
    rw [show l.dropWhile isBlank = c :: r from h] at hhead
    have hc : isBlank c = false := by simpa using hhead
    exact List.takeWhile_cons_of_neg (by simp [hc])

/-! ### What all lines share -/

/-- The lines of a text that are not blank. -/
def codeLines (s : Text) : List Text :=
  (cells s).filter fun l ↦ !isBlankText l

theorem mem_codeLines_iff : l ∈ codeLines s ↔ l ∈ cells s ∧ isBlankText l = false := by
  simp [codeLines]

/-- The longest run of blanks at the front of every line that is not blank. -/
def sharedBlanks (s : Text) : Text :=
  match (codeLines s).map leadingBlanks with
  | [] => []
  | w :: ws => ws.foldl commonPrefix w

/-- **What the lines share** is a lower bound of their indentations, and the greatest one. -/
theorem prefix_sharedBlanks_iff (hne : codeLines s ≠ []) :
    v <+: sharedBlanks s ↔ ∀ l ∈ codeLines s, v <+: leadingBlanks l := by
  obtain ⟨l, ls, hlines⟩ := List.exists_cons_of_ne_nil hne
  rw [sharedBlanks, hlines, List.map_cons]
  dsimp only
  rw [prefix_foldl_commonPrefix_iff, List.forall_mem_cons, List.forall_mem_map]

theorem sharedBlanks_isPrefix (h : l ∈ codeLines s) : sharedBlanks s <+: leadingBlanks l :=
  (prefix_sharedBlanks_iff (List.ne_nil_of_mem h)).1 (List.prefix_refl _) l h

/-- A text without the blanks that its lines share. -/
def withoutShared (s : Text) : Text :=
  joinCells <| (cells s).map fun l ↦ if isBlankText l then l else l.drop (sharedBlanks s).length

/-- The lines of a text without what they share. -/
theorem cells_withoutShared (s : Text) : cells (withoutShared s) =
    (cells s).map fun l ↦ if isBlankText l then l else l.drop (sharedBlanks s).length := by
  refine cells_joinCells (by simp [cells_ne_nil]) (List.forall_mem_map.2 fun l hl ↦ ?_)
  have hfeed := notMem_of_mem_cells hl
  split
  · exact hfeed
  · exact fun h ↦ hfeed (List.mem_of_mem_drop h)

/-! ### The least number of bytes -/

/-- No line that is not blank has fewer bytes of blanks than are taken. -/
theorem sharedIndent_le (h : l ∈ codeLines s) : sharedIndent s ≤ byteLength (leadingBlanks l) := by
  have hmem := List.mem_map_of_mem (f := fun l ↦ byteLength (leadingBlanks l)) h
  cases hmin : ((codeLines s).map fun l ↦ byteLength (leadingBlanks l)).min? with
  | none => rw [List.min?_eq_none_iff.1 hmin] at hmem; cases hmem
  | some n =>
    have hn : sharedIndent s = n := congrArg (·.getD 0) hmin
    exact hn ▸ (List.min?_eq_some_iff.1 hmin).2 _ hmem

/-- And one line has no more. -/
theorem exists_byteLength_eq_sharedIndent (hne : codeLines s ≠ []) :
    ∃ l ∈ codeLines s, byteLength (leadingBlanks l) = sharedIndent s := by
  cases hmin : ((codeLines s).map fun l ↦ byteLength (leadingBlanks l)).min? with
  | none => exact absurd (List.map_eq_nil_iff.1 (List.min?_eq_none_iff.1 hmin)) hne
  | some n =>
    have hn : sharedIndent s = n := congrArg (·.getD 0) hmin
    obtain ⟨l, hl, hlength⟩ := List.mem_map.1 (List.min?_eq_some_iff.1 hmin).1
    exact ⟨l, hl, hlength.trans hn.symm⟩

theorem sharedIndent_of_codeLines_eq_nil (h : codeLines s = []) : sharedIndent s = 0 := by
  show (((codeLines s).map fun l ↦ byteLength (leadingBlanks l)).min?.getD 0) = 0
  rw [h]
  rfl

/-! ### What is cut from a line -/

/-- What taking `n` bytes of indentation makes of a line. -/
inductive LosesIndent (n : Nat) : Text → Text → Prop
  | blank {l : Text} (blank : isBlankText l = true) : LosesIndent n l l
  | code {w l : Text} (blanks : isBlankText w = true) (width : byteLength w = n)
      (code : isBlankText l = false) : LosesIndent n (w ++ l) l

/-- What becomes of a line is told by the line and the number of bytes. -/
theorem LosesIndent.eq_dedentLine (h : LosesIndent n l l') :
    (isBlankText l || isBoundary n l) = true ∧ l' = dedentLine n l := by
  cases h with
  | blank hl => exact ⟨by rw [hl, Bool.true_or], by rw [dedentLine, if_pos hl]⟩
  | @code w _ hw hn hl =>
    have hcode : isBlankText (w ++ l') = false := by rw [isBlankText_append, hl, Bool.and_false]
    refine ⟨?_, ?_⟩
    · rw [hcode, Bool.false_or]
      exact isBoundary_iff.2 ⟨w, List.prefix_append w l', hn⟩
    · rw [dedentLine, if_neg (by simp [hcode]), ← hn, dropBytes_append]

theorem LosesIndent.exists_front (h : LosesIndent n l l') (hl : isBlankText l = false) :
    ∃ w, w ++ l' = l ∧ byteLength w = n := by
  cases h with
  | blank hblank => rw [hblank] at hl; cases hl
  | @code w _ _ hn _ => exact ⟨w, rfl, hn⟩

/-- A line that is not blank is cut within its blanks, since no line has fewer bytes of them. -/
theorem losesIndent_dedentLine (hl : l ∈ cells s)
    (hcut : (isBlankText l || isBoundary (sharedIndent s) l) = true) :
    LosesIndent (sharedIndent s) l (dedentLine (sharedIndent s) l) := by
  rw [dedentLine]
  split
  · next hblank => exact .blank hblank
  · next hcode =>
    rw [Bool.not_eq_true] at hcode
    rw [hcode, Bool.false_or, isBoundary_iff] at hcut
    obtain ⟨w, hprefix, hlength⟩ := hcut
    have hle := sharedIndent_le (mem_codeLines_iff.2 ⟨hl, hcode⟩)
    have hw := isBlankText_of_prefix_leadingBlanks
      (prefix_of_byteLength_le hprefix (leadingBlanks_isPrefix l) (hlength ▸ hle))
    obtain ⟨r, rfl⟩ := hprefix
    rw [isBlankText_append, hw, Bool.true_and] at hcode
    rw [← hlength, dropBytes_append]
    exact .code hw rfl hcode

theorem cells_dedent (s : Text) :
    cells (dedent s) = (cells s).map (dedentLine (sharedIndent s)) := by
  refine cells_joinCells (by simp [cells_ne_nil]) (List.forall_mem_map.2 fun l hl ↦ ?_)
  have hfeed := notMem_of_mem_cells hl
  rw [dedentLine]
  split
  · exact hfeed
  · exact fun h ↦ hfeed ((dropBytes_suffix _ l).subset h)

theorem dedent?_eq_some_iff_isBoundary : dedent? s = some t ↔
    (∀ l ∈ cells s, (isBlankText l || isBoundary (sharedIndent s) l) = true) ∧ dedent s = t := by
  rw [dedent?, Option.ite_none_right_eq_some, Option.some.injEq, List.all_eq_true]

/-- **The cut, line by line.** -/
theorem dedent?_eq_some_iff : dedent? s = some t ↔
    List.Forall₂ (LosesIndent (sharedIndent s)) (cells s) (cells t) := by
  rw [dedent?_eq_some_iff_isBoundary]
  constructor
  · rintro ⟨hall, rfl⟩
    rw [cells_dedent, List.forall₂_map_right_iff, List.forall₂_same]
    exact fun l hl ↦ losesIndent_dedentLine hl (hall l hl)
  · intro h
    have hlines := h.imp fun _ _ hl ↦ hl.eq_dedentLine
    rw [List.forall₂_and_left] at hlines
    obtain ⟨hall, heach⟩ := hlines
    have hmap : cells t = (cells s).map (dedentLine (sharedIndent s)) := by
      rw [← List.forall₂_eq_eq_eq, List.forall₂_map_right_iff]
      exact heach.flip
    exact ⟨hall, by rw [← joinCells_cells (dedent s), cells_dedent, ← hmap, joinCells_cells]⟩

/-! ### A second cut -/

/-- **Nothing is left to be taken.** The line that had the fewest bytes of blanks has none. -/
theorem sharedIndent_dedent (s : Text) : sharedIndent (dedent s) = 0 := by
  by_cases hne : codeLines s = []
  · have hblank : ∀ l ∈ cells s, dedentLine (sharedIndent s) l = l := fun l hl ↦ by
      rw [sharedIndent_of_codeLines_eq_nil hne, dedentLine, dropBytes_zero, ite_self]
    rw [dedent, List.map_congr_left hblank, List.map_id', joinCells_cells,
      sharedIndent_of_codeLines_eq_nil hne]
  · obtain ⟨l, hl, hlength⟩ := exists_byteLength_eq_sharedIndent hne
    obtain ⟨hmem, hcode⟩ := mem_codeLines_iff.1 hl
    have hcut : dedentLine (sharedIndent s) l = trimStart l := by
      rw [dedentLine, if_neg (by simp [hcode]), ← hlength]
      nth_rewrite 2 [← leadingBlanks_append_trimStart l]
      exact dropBytes_append _ _
    have hrest : isBlankText (trimStart l) = false := by
      rw [← leadingBlanks_append_trimStart l, isBlankText_append,
        isBlankText_of_prefix_leadingBlanks (List.prefix_refl _), Bool.true_and] at hcode
      exact hcode
    have hline : trimStart l ∈ codeLines (dedent s) := by
      rw [mem_codeLines_iff, cells_dedent]
      exact ⟨hcut ▸ List.mem_map_of_mem hmem, hrest⟩
    have hle := sharedIndent_le hline
    rw [leadingBlanks_trimStart] at hle
    exact Nat.le_zero.1 hle

/-- A text from which nothing is to be taken is left as it is. -/
theorem dedent?_eq_self (h : sharedIndent s = 0) : dedent? s = some s := by
  rw [dedent?_eq_some_iff, h, List.forall₂_same]
  intro l _
  cases hl : isBlankText l with
  | true => exact .blank hl
  | false => exact .code (w := []) rfl rfl hl

/-! ### Where the two agree -/

/-- Whether a line has an indentation that all the lines begin with, of those that are not blank. -/
def HasOutermost (s : Text) : Prop :=
  codeLines s ≠ [] → ∃ l ∈ codeLines s, ∀ m ∈ codeLines s, leadingBlanks l <+: leadingBlanks m

instance (s : Text) : Decidable (HasOutermost s) :=
  inferInstanceAs (Decidable (_ → _))

/-- The bytes that are counted are those of what the lines share if there is an outermost line. -/
theorem byteLength_sharedBlanks_iff :
    byteLength (sharedBlanks s) = sharedIndent s ↔ HasOutermost s := by
  constructor
  · intro h hne
    obtain ⟨l, hl, hlength⟩ := exists_byteLength_eq_sharedIndent hne
    have heq := eq_of_prefix_of_byteLength_eq (sharedBlanks_isPrefix hl) (h.trans hlength.symm)
    exact ⟨l, hl, fun m hm ↦ heq ▸ sharedBlanks_isPrefix hm⟩
  · intro h
    by_cases hne : codeLines s = []
    · rw [sharedIndent_of_codeLines_eq_nil hne, sharedBlanks, hne]
      rfl
    · obtain ⟨l, hl, hall⟩ := h hne
      obtain ⟨m, hm, hlength⟩ := exists_byteLength_eq_sharedIndent hne
      have hfront : leadingBlanks l <+: sharedBlanks s := (prefix_sharedBlanks_iff hne).2 hall
      have hle := byteLength_le_of_prefix hfront
      have hge := byteLength_le_of_prefix (sharedBlanks_isPrefix hm)
      have hleast := sharedIndent_le hl
      omega

/-- Both take the same from the lines if they take the same number of bytes. -/
theorem dedent?_eq_withoutShared (h : byteLength (sharedBlanks s) = sharedIndent s) :
    dedent? s = some (withoutShared s) := by
  rw [dedent?_eq_some_iff, cells_withoutShared, List.forall₂_map_right_iff, List.forall₂_same]
  intro l hl
  split
  · next hblank => exact .blank hblank
  · next hcode =>
    rw [Bool.not_eq_true] at hcode
    have hshared := sharedBlanks_isPrefix (mem_codeLines_iff.2 ⟨hl, hcode⟩)
    have hblanks := isBlankText_of_prefix_leadingBlanks hshared
    obtain ⟨r, hr⟩ := hshared.trans (leadingBlanks_isPrefix l)
    have hdrop : l.drop (sharedBlanks s).length = r := by rw [← hr, List.drop_left]
    rw [← hr, isBlankText_append, hblanks, Bool.true_and] at hcode
    rw [hdrop]
    nth_rewrite 1 [← hr]
    exact .code hblanks h hcode

theorem byteLength_sharedBlanks (h : dedent? s = some (withoutShared s)) :
    byteLength (sharedBlanks s) = sharedIndent s := by
  by_cases hne : codeLines s = []
  · exact byteLength_sharedBlanks_iff.2 fun hs ↦ absurd hne hs
  · obtain ⟨l, hl⟩ := List.exists_mem_of_ne_nil _ hne
    obtain ⟨hmem, hcode⟩ := mem_codeLines_iff.1 hl
    rw [dedent?_eq_some_iff, cells_withoutShared, List.forall₂_map_right_iff,
      List.forall₂_same] at h
    have hline := h l hmem
    rw [if_neg (by simp [hcode])] at hline
    obtain ⟨w, hw, hlength⟩ := hline.exists_front hcode
    obtain ⟨r, hr⟩ := (sharedBlanks_isPrefix hl).trans (leadingBlanks_isPrefix l)
    have hdrop : l.drop (sharedBlanks s).length = r := by rw [← hr, List.drop_left]
    rw [hdrop, ← hr] at hw
    rw [← List.append_cancel_right hw, hlength]

theorem dedent?_eq_none_iff : dedent? s = none ↔
    ∃ l ∈ codeLines s, ∀ w, w <+: l → byteLength w ≠ sharedIndent s := by
  have hcut : ∀ l, isBoundary (sharedIndent s) l = false ↔
      ∀ w, w <+: l → byteLength w ≠ sharedIndent s := fun l ↦ by
    rw [← Bool.not_eq_true, isBoundary_iff, not_exists]
    exact forall_congr' fun w ↦ not_and
  rw [dedent?, ite_eq_right_iff]
  simp only [reduceCtorEq, imp_false, Bool.not_eq_true, List.all_eq_false, Bool.or_eq_false_iff,
    hcut, mem_codeLines_iff, and_assoc]

/-- **The indentation that is taken is the one that the lines share** if and only if one of the
lines has an indentation that all the others begin with. Whether it is or not, a text that is cut
between characters keeps its lines: a blank line as it is, and any other line without as many bytes
of blanks, and a second cut takes nothing. A text is not cut if a line has no front part of that
many bytes. -/
theorem dedent?_eq_withoutShared_iff (s : Text) :
    (dedent? s = some (withoutShared s) ↔ HasOutermost s) ∧
      (dedent? s = none ↔ ∃ l ∈ codeLines s, ∀ w, w <+: l → byteLength w ≠ sharedIndent s) ∧
      ∀ t, dedent? s = some t →
        List.Forall₂ (LosesIndent (sharedIndent s)) (cells s) (cells t) ∧ dedent? t = some t := by
  refine ⟨?_, dedent?_eq_none_iff, fun t ht ↦ ⟨dedent?_eq_some_iff.1 ht, ?_⟩⟩
  · rw [← byteLength_sharedBlanks_iff]
    exact ⟨byteLength_sharedBlanks, dedent?_eq_withoutShared⟩
  · obtain ⟨-, rfl⟩ := dedent?_eq_some_iff_isBoundary.1 ht
    exact dedent?_eq_self (sharedIndent_dedent s)

/-- A text with an outermost line, a blank line and two indentations. -/
def nestedCode : Text :=
  "    while (i)\n      \t  i--;\n \n    done;".toList

/-- A text with a line that begins with a tab and one that begins with a space. -/
def mixedCode : Text :=
  "\ta;\n b;".toList

/-- A text with a line that begins with a tab and one that begins with a wide blank. -/
def wideCode : Text :=
  "\ta;\n\u2003b;".toList

theorem dedent?_eq_withoutShared_iff_nestedCode :
    dedent? nestedCode = some (withoutShared nestedCode) ∧
      withoutShared nestedCode = "while (i)\n  \t  i--;\n \ndone;".toList ∧
      List.Forall₂ (LosesIndent 4) (cells nestedCode) (cells (withoutShared nestedCode)) ∧
      dedent? (withoutShared nestedCode) = some (withoutShared nestedCode) := by
  obtain ⟨hiff, -, hlines⟩ := dedent?_eq_withoutShared_iff nestedCode
  have hcut := hiff.2 (by decide +kernel)
  obtain ⟨hloses, htwice⟩ := hlines _ hcut
  have hindent : sharedIndent nestedCode = 4 := by decide +kernel
  exact ⟨hcut, by decide +kernel, hindent ▸ hloses, htwice⟩

/-- **Blanks that are not shared can be taken.** From `mixedCode` a tab and a space are taken, and
the cut of `wideCode` falls inside a character. -/
theorem exists_dedent?_ne_withoutShared :
    (∃ s t, dedent? s = some t ∧ withoutShared s = s ∧ t ≠ s) ∧ ∃ s, dedent? s = none :=
  ⟨⟨mixedCode, "a;\nb;".toList, by decide +kernel, by decide +kernel, by decide +kernel⟩,
    wideCode, by decide +kernel⟩

end RankMetric.Text
