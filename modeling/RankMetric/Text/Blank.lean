import RankMetric.Text.Basic

/-!
# Blank characters

`isBlank` is the Unicode property White_Space, twenty-five characters in all. Trimming, the test
for a blank line and the cut into words all go by it.

`leadingBlanks_append_trimStart` says that the part lost at the front is the run `leadingBlanks`,
and `trimEnd_append_blank` that blanks added at the end are lost to trimming. The ends of a text may
be trimmed in either order (`trimStart_trimEnd`), and nothing is lost to trimming twice
(`trimStart_trim`, `trimEnd_trimEnd`).
-/

namespace RankMetric.Text

/-- The Unicode property White_Space. -/
def isBlank (c : Char) : Bool :=
  let n := c.toNat
  (0x9 ≤ n && n ≤ 0xD) || n == 0x20 || n == 0x85 || n == 0xA0 || n == 0x1680 ||
    (0x2000 ≤ n && n ≤ 0x200A) || n == 0x2028 || n == 0x2029 || n == 0x202F || n == 0x205F ||
    n == 0x3000

/-! ### Trimming -/

/-- The run of blanks at the front of a text. -/
def leadingBlanks (s : Text) : Text :=
  s.takeWhile isBlank

/-- A text without the blanks at its front. -/
def trimStart (s : Text) : Text :=
  s.dropWhile isBlank

theorem leadingBlanks_append_trimStart (s : Text) : leadingBlanks s ++ trimStart s = s :=
  List.takeWhile_append_dropWhile

/-- A text without the blanks at its end. -/
def trimEnd : Text → Text
  | [] => []
  | c :: s =>
    match trimEnd s with
    | [] => if isBlank c then [] else [c]
    | d :: t => c :: d :: t

/-- A text without the blanks at its ends. -/
def trim (s : Text) : Text :=
  trimEnd (trimStart s)

/-- Whether a text holds blanks only. -/
def isBlankText (s : Text) : Bool :=
  s.all isBlank

theorem trimEnd_eq_nil_iff {s : Text} : trimEnd s = [] ↔ isBlankText s := by
  induction s with
  | nil => simp [trimEnd, isBlankText]
  | cons c s ih =>
    rw [trimEnd]
    split
    · next h => simp_all [isBlankText]
    · next d t h =>
      have : ¬ isBlankText s := fun hs ↦ by simp [ih.2 hs] at h
      simp_all [isBlankText]

/-- Blanks added at the end are lost to trimming. -/
theorem trimEnd_append_blank (s : Text) {b : Text} (hb : isBlankText b) :
    trimEnd (s ++ b) = trimEnd s := by
  induction s with
  | nil => simpa [trimEnd] using trimEnd_eq_nil_iff.2 hb
  | cons c s ih => simp [trimEnd, ih]

/-- What trimming at the end takes away is blank. -/
theorem exists_trimEnd_append (s : Text) : ∃ b, isBlankText b ∧ trimEnd s ++ b = s := by
  induction s with
  | nil => exact ⟨[], rfl, rfl⟩
  | cons c s ih =>
    obtain ⟨b, hb, hs⟩ := ih
    rw [trimEnd]
    split
    · next h =>
      rw [h, List.nil_append] at hs
      subst hs
      split
      · next hc => exact ⟨c :: b, by simp [isBlankText, hc] at hb ⊢; exact hb, rfl⟩
      · exact ⟨b, hb, rfl⟩
    · next d t h => exact ⟨b, hb, by rw [← hs, h, List.cons_append]⟩

theorem trimEnd_trimEnd (s : Text) : trimEnd (trimEnd s) = trimEnd s := by
  obtain ⟨b, hb, hs⟩ := exists_trimEnd_append s
  rw [← trimEnd_append_blank (trimEnd s) hb, hs]

theorem trimEnd_isPrefix (s : Text) : trimEnd s <+: s := by
  obtain ⟨b, -, hs⟩ := exists_trimEnd_append s
  exact ⟨b, hs⟩

theorem trim_isInfix (s : Text) : trim s <:+: s :=
  (trimEnd_isPrefix (trimStart s)).isInfix.trans (List.dropWhile_suffix isBlank).isInfix

/-- What is left of a text after trimming is not lost to what is added. -/
theorem trimEnd_isPrefix_append (s t : Text) : trimEnd s <+: trimEnd (trimEnd s ++ t) := by
  obtain ⟨b, hb, hs⟩ := exists_trimEnd_append (trimEnd s ++ t)
  rcases List.append_eq_append_iff.1 hs with ⟨c, hlonger, hblank⟩ | ⟨c, hshorter, -⟩
  · -- if it were longer, it would end with a blank
    have hc : isBlankText c := by
      rw [hblank, isBlankText, List.all_append, Bool.and_eq_true] at hb
      exact hb.1
    have hsame := congrArg trimEnd hlonger
    rw [trimEnd_trimEnd, trimEnd_append_blank _ hc, trimEnd_trimEnd] at hsame
    exact hsame ▸ List.prefix_refl _
  · exact ⟨c, hshorter.symm⟩

section

variable {c : Char}

theorem trimStart_cons_of_isBlank (hc : isBlank c = true) (s : Text) :
    trimStart (c :: s) = trimStart s :=
  List.dropWhile_cons_of_pos hc

theorem trimStart_cons_of_not_isBlank (hc : isBlank c = false) (s : Text) :
    trimStart (c :: s) = c :: s :=
  List.dropWhile_cons_of_neg (by simp [hc])

theorem trimEnd_cons_of_not_isBlank (hc : isBlank c = false) (s : Text) :
    trimEnd (c :: s) = c :: trimEnd s := by
  rw [trimEnd]
  split
  · next h => rw [if_neg (by simp [hc]), h]
  · next d t h => rw [h]

/-- A text that ends with a character that is not blank is not trimmed at its end. -/
theorem trimEnd_concat (hc : isBlank c = false) (s : Text) : trimEnd (s ++ [c]) = s ++ [c] := by
  induction s with
  | nil => exact trimEnd_cons_of_not_isBlank hc []
  | cons d s ih =>
    obtain ⟨e, t, he⟩ := List.exists_cons_of_ne_nil (show s ++ [c] ≠ [] by simp)
    rw [List.cons_append, trimEnd, ih, he]

/-- What is left after trimming at the end does not end with a blank. -/
theorem not_isBlank_of_mem_getLast?_trimEnd {s : Text} (h : c ∈ (trimEnd s).getLast?) :
    isBlank c = false := by
  obtain ⟨r, hr⟩ := List.getLast?_eq_some_iff.1 h
  refine Bool.eq_false_iff.2 fun hblank ↦ ?_
  have htrim := trimEnd_append_blank r (b := [c]) (by simp [isBlankText, hblank])
  rw [← hr, trimEnd_trimEnd, hr] at htrim
  have hle := (trimEnd_isPrefix r).length_le
  rw [← htrim, List.length_append, List.length_singleton] at hle
  omega

/-- The ends of a text may be trimmed in either order. -/
theorem trimStart_trimEnd (s : Text) : trimStart (trimEnd s) = trim s := by
  induction s with
  | nil => rfl
  | cons c s ih =>
    cases hc : isBlank c with
    | true =>
      rw [trim, trimStart_cons_of_isBlank hc]
      show _ = trim s
      rw [← ih, trimEnd, if_pos hc]
      split
      · next h => rw [h]
      · next d t h => rw [h, trimStart_cons_of_isBlank hc]
    | false =>
      rw [trim, trimStart_cons_of_not_isBlank hc, trimEnd_cons_of_not_isBlank hc,
        trimStart_cons_of_not_isBlank hc]

/-- What is left after trimming does not begin with a blank. -/
theorem not_isBlank_of_trim_eq_cons {s t : Text} (h : trim s = c :: t) : isBlank c = false := by
  have hstart : (trimEnd s).dropWhile isBlank = c :: t := (trimStart_trimEnd s).trans h
  have hhead := List.head?_dropWhile_not isBlank (trimEnd s)
  rw [hstart] at hhead
  simpa using hhead

theorem trimStart_trim (s : Text) : trimStart (trim s) = trim s := by
  cases htrim : trim s with
  | nil => rfl
  | cons c t => exact trimStart_cons_of_not_isBlank (not_isBlank_of_trim_eq_cons htrim) t

/-- A blank in front of a trimmed text is lost to trimming, and nothing else is. -/
theorem trim_cons_of_isBlank (hc : isBlank c = true) (s : Text) : trim (c :: trim s) = trim s := by
  rw [trim, trimStart_cons_of_isBlank hc, trimStart_trim, trim, trimEnd_trimEnd]

theorem trim_append_blank (s : Text) {b : Text} (hb : isBlankText b) : trim (s ++ b) = trim s := by
  rw [← trimStart_trimEnd, trimEnd_append_blank s hb, trimStart_trimEnd]

theorem mem_of_mem_trim {s : Text} (h : c ∈ trim s) : c ∈ s := by
  obtain ⟨b, -, hs⟩ := exists_trimEnd_append (trimStart s)
  refine (List.dropWhile_suffix isBlank).subset ?_
  show c ∈ trimStart s
  rw [← hs]
  exact List.mem_append_left b h

end

/-! ### Words -/

/-- The words of a text: its maximal runs of characters that are not blank. -/
def words (s : Text) : List Text :=
  (s.splitBy fun c d ↦ isBlank c == isBlank d).filter fun w ↦ !isBlankText w

end RankMetric.Text
