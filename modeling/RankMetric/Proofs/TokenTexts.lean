import Mathlib.Data.List.SplitBy
import RankMetric.Text.Token

/-!
# The significant tokens of a text

What a line means depends on the texts of its tokens alone, blanks left out: `tokenTexts`. Offsets
differ when a line stands in a longer text, token texts do not, and that is what this module shows.

* `tokenTexts_append_blank`: a blank between two texts keeps their tokens apart, so the tokens of
  the whole are those of the parts.
* `tokenTexts_trim`: blanks at the ends of a text bear no token.

Both rest on how a character in front of a text changes its runs (`runs_cons_of_joins`,
`runs_cons_of_not_joins`): it joins the first run or begins one of its own.
-/

namespace RankMetric

open Text

variable {c d e : Char} {s t b : Text}

/-! ### A character in front of a text -/

/-- The runs of a text join to the text. -/
theorem flatten_runs (s : Text) : (runs s).flatten = s :=
  List.flatten_splitBy _ _

theorem exists_runs_cons (c : Char) (s : Text) : ∃ r rs, runs (c :: s) = (c :: r) :: rs := by
  have hflat := flatten_runs (c :: s)
  have hnil : [] ∉ runs (c :: s) := List.nil_notMem_splitBy _ _
  rcases h : runs (c :: s) with - | ⟨- | ⟨a, r⟩, rs⟩
  · simp [h] at hflat
  · simp [h] at hnil
  · rw [h, List.flatten_cons, List.cons_append, List.cons.injEq] at hflat
    exact ⟨r, rs, by rw [hflat.1]⟩

/-- A character of the class of the next one joins the first run. -/
theorem runs_cons_of_joins {r : Text} {rs : List Text} (h : TokenClass.joins c d = true)
    (hr : runs (d :: s) = (d :: r) :: rs) : runs (c :: d :: s) = (c :: d :: r) :: rs := by
  obtain ⟨hflat, hnil, hchain, hlast⟩ := List.splitBy_eq_iff.1 hr
  refine List.splitBy_eq_iff.2 ⟨by simp [hflat], by simpa using hnil, fun m hm ↦ ?_, ?_⟩
  · rcases List.mem_cons.1 hm with rfl | hm
    · exact List.isChain_cons_cons.2 ⟨h, hchain _ List.mem_cons_self⟩
    · exact hchain m (List.mem_cons_of_mem _ hm)
  · cases rs with
    | nil => exact List.isChain_singleton _
    | cons q rs =>
      obtain ⟨⟨hr', hq, hjoin⟩, hrest⟩ := List.isChain_cons_cons.1 hlast
      exact List.isChain_cons_cons.2 ⟨⟨by simp, hq, by simpa using hjoin⟩, hrest⟩

/-- A character of another class begins a run of its own. -/
theorem runs_cons_of_not_joins (h : TokenClass.joins c d = false) :
    runs (c :: d :: s) = [c] :: runs (d :: s) :=
  List.splitBy_append_cons (l := [c]) s (by simpa using h)

theorem ofChar_eq_space_iff : TokenClass.ofChar c = .space ↔ isBlank c := by
  rw [TokenClass.ofChar]
  cases isBlank c <;> cases isOperatorChar c <;> by_cases h : c = ';' <;> simp [h]

theorem ofChar_eq_terminator_iff : TokenClass.ofChar c = .terminator ↔ c = ';' := by
  constructor
  · intro h
    rw [TokenClass.ofChar] at h
    by_cases hc : c = ';'
    · exact hc
    · cases hb : isBlank c <;> cases ho : isOperatorChar c <;> simp [hb, ho, hc] at h
  · rintro rfl
    rfl

theorem joins_of_isBlank (hc : isBlank c) (hd : isBlank d) : TokenClass.joins c d = true := by
  rw [TokenClass.joins, ofChar_eq_space_iff.2 hc, ofChar_eq_space_iff.2 hd]
  rfl

theorem not_joins_of_isBlank_ne (h : isBlank c ≠ isBlank d) : TokenClass.joins c d = false := by
  have hne : TokenClass.ofChar c ≠ TokenClass.ofChar d := by
    intro heq
    have hiff : isBlank c ↔ isBlank d := by
      rw [← ofChar_eq_space_iff, ← ofChar_eq_space_iff, heq]
    exact h (Bool.eq_iff_iff.2 hiff)
  rw [TokenClass.joins, beq_false_of_ne hne, Bool.false_and]

/-! ### Token texts -/

/-- The texts of the tokens that are not blank. -/
def tokenTexts (s : Text) : List Text :=
  (significant s).map Token.text

/-- Of runs that are given places, those that are not blank keep their texts. -/
theorem map_text_filter_place (offset : Nat) (rs : List Text) :
    ((place offset rs).filter fun t ↦ !t.isSpace).map Token.text =
      rs.filter fun r ↦ TokenClass.ofRun r != .space := by
  induction rs generalizing offset with
  | nil => rfl
  | cons r rs ih =>
    rw [place, List.filter_cons, List.filter_cons, Token.isSpace, bne]
    split <;> simp [ih]

/-- The token texts are the runs that are not blank. -/
theorem tokenTexts_eq_filter (s : Text) :
    tokenTexts s = (runs s).filter fun r ↦ TokenClass.ofRun r != .space :=
  map_text_filter_place 0 (runs s)

theorem ofRun_bne_space (c : Char) (r : Text) :
    (TokenClass.ofRun (c :: r) != .space) = !isBlank c := by
  rw [TokenClass.ofRun, Bool.eq_iff_iff, bne_iff_ne, ne_eq, ofChar_eq_space_iff]
  simp

/-- A blank in front bears no token. -/
theorem tokenTexts_cons_of_isBlank (hc : isBlank c) (s : Text) :
    tokenTexts (c :: s) = tokenTexts s := by
  rw [tokenTexts_eq_filter, tokenTexts_eq_filter]
  cases s with
  | nil => exact List.filter_cons_of_neg (by simp [ofRun_bne_space, hc])
  | cons d s =>
    cases hd : isBlank d with
    | true =>
      obtain ⟨r, rs, hr⟩ := exists_runs_cons d s
      simp [runs_cons_of_joins (joins_of_isBlank hc hd) hr, hr, ofRun_bne_space, hc, hd]
    | false =>
      have hj : TokenClass.joins c d = false := not_joins_of_isBlank_ne (by simp [hc, hd])
      simp [runs_cons_of_not_joins hj, ofRun_bne_space, hc]

theorem tokenTexts_singleton (hc : isBlank c = false) : tokenTexts [c] = [[c]] := by
  simp [tokenTexts_eq_filter, runs, List.splitBy, List.splitBy.loop, ofRun_bne_space, hc]

/-- A character that is not blank begins a token if it does not join the next one. -/
theorem tokenTexts_cons_of_not_joins (hc : isBlank c = false)
    (hj : TokenClass.joins c d = false) :
    tokenTexts (c :: d :: s) = [c] :: tokenTexts (d :: s) := by
  simp [tokenTexts_eq_filter, runs_cons_of_not_joins hj, ofRun_bne_space, hc]

/-- A character that is not blank and joins the next one is put in front of the first token. -/
theorem tokenTexts_cons_of_joins (hc : isBlank c = false) (hj : TokenClass.joins c d = true) :
    ∃ r rs, tokenTexts (d :: s) = (d :: r) :: rs ∧
      tokenTexts (c :: d :: s) = (c :: d :: r) :: rs := by
  obtain ⟨r, rs, hr⟩ := exists_runs_cons d s
  have hd : isBlank d = false := by
    cases hd : isBlank d with
    | false => rfl
    | true => simp [not_joins_of_isBlank_ne (c := c) (d := d) (by simp [hc, hd])] at hj
  refine ⟨r, rs.filter fun r ↦ TokenClass.ofRun r != .space, ?_, ?_⟩
  · simp [tokenTexts_eq_filter, hr, ofRun_bne_space, hd]
  · simp [tokenTexts_eq_filter, runs_cons_of_joins hj hr, ofRun_bne_space, hc]

theorem exists_tokenTexts_cons (hc : isBlank c = false) (s : Text) :
    ∃ r rs, tokenTexts (c :: s) = (c :: r) :: rs := by
  obtain ⟨r, rs, hr⟩ := exists_runs_cons c s
  refine ⟨r, rs.filter fun r ↦ TokenClass.ofRun r != .space, ?_⟩
  rw [tokenTexts_eq_filter, hr, List.filter_cons_of_pos (by simp [ofRun_bne_space, hc])]

/-- The tokens of a text join to its characters that are not blank. -/
theorem flatten_tokenTexts (s : Text) : (tokenTexts s).flatten = s.filter fun c ↦ !isBlank c := by
  induction s with
  | nil => rfl
  | cons c s ih =>
    cases hc : isBlank c with
    | true => rw [tokenTexts_cons_of_isBlank hc, ih, List.filter_cons_of_neg (by simp [hc])]
    | false =>
      rw [List.filter_cons_of_pos (by simp [hc]), ← ih]
      cases s with
      | nil =>
        rw [tokenTexts_singleton hc]
        rfl
      | cons d s =>
        cases hj : TokenClass.joins c d with
        | false =>
          rw [tokenTexts_cons_of_not_joins hc hj]
          rfl
        | true =>
          obtain ⟨r, rs, hpart, hwhole⟩ := tokenTexts_cons_of_joins (s := s) hc hj
          rw [hpart, hwhole]
          rfl

/-- The class of a token is that of its text. -/
theorem cls_of_mem_tokenize {x : Token} {line : Text} (h : x ∈ tokenize line) :
    x.cls = .ofRun x.text := by
  have hplace : ∀ (offset : Nat) (rs : List Text), ∀ x ∈ place offset rs,
      x.cls = .ofRun x.text := by
    intro offset rs
    induction rs generalizing offset with
    | nil => simp [place]
    | cons r rs ih =>
      intro x hx
      rcases List.mem_cons.1 hx with rfl | hx
      · rfl
      · exact ih _ x hx
  exact hplace 0 _ x h

theorem cls_of_mem_significant {x : Token} {line : Text} (h : x ∈ significant line) :
    x.cls = .ofRun x.text :=
  cls_of_mem_tokenize (List.mem_of_mem_filter h)

/-! ### Texts with blanks between and around them -/

/-- **A blank keeps tokens apart**: the tokens of two texts with a blank between them are the tokens
of the first and then those of the second. -/
theorem tokenTexts_append_blank (s t : Text) (he : isBlank e) :
    tokenTexts (s ++ e :: t) = tokenTexts s ++ tokenTexts t := by
  induction s with
  | nil => exact tokenTexts_cons_of_isBlank he t
  | cons c s ih =>
    cases hc : isBlank c with
    | true =>
      rw [List.cons_append, tokenTexts_cons_of_isBlank hc, tokenTexts_cons_of_isBlank hc, ih]
    | false =>
      cases s with
      | nil =>
        have hj : TokenClass.joins c e = false := not_joins_of_isBlank_ne (by simp [hc, he])
        rw [List.cons_append, List.nil_append, tokenTexts_cons_of_not_joins hc hj,
          tokenTexts_singleton hc, tokenTexts_cons_of_isBlank he]
        rfl
      | cons d s =>
        rw [List.cons_append] at ih
        cases hj : TokenClass.joins c d with
        | false =>
          rw [List.cons_append, List.cons_append, tokenTexts_cons_of_not_joins hc hj, ih,
            tokenTexts_cons_of_not_joins hc hj]
          rfl
        | true =>
          -- the first token of the whole is the first token of the part, so both grow alike
          obtain ⟨r, rs, hpart, hpart'⟩ := tokenTexts_cons_of_joins (s := s) hc hj
          obtain ⟨q, qs, hwhole, hwhole'⟩ := tokenTexts_cons_of_joins (s := s ++ e :: t) hc hj
          rw [hwhole, hpart, List.cons_append] at ih
          obtain ⟨hqr, hqs⟩ := List.cons.inj ih
          rw [List.cons_append, List.cons_append, hwhole', hpart', List.cons_append, hqs]
          rw [(List.cons.inj hqr).2]

theorem tokenTexts_of_isBlankText (hb : isBlankText b) : tokenTexts b = [] := by
  induction b with
  | nil => rfl
  | cons c b ih =>
    rw [isBlankText, List.all_cons, Bool.and_eq_true] at hb
    rw [tokenTexts_cons_of_isBlank hb.1, ih hb.2]

theorem tokenTexts_blank_append (hb : isBlankText b) (t : Text) :
    tokenTexts (b ++ t) = tokenTexts t := by
  induction b with
  | nil => rfl
  | cons c b ih =>
    rw [isBlankText, List.all_cons, Bool.and_eq_true] at hb
    rw [List.cons_append, tokenTexts_cons_of_isBlank hb.1, ih hb.2]

/-- Any number of blanks keeps tokens apart. -/
theorem tokenTexts_append_blanks (s t : Text) (hb : isBlankText b) (hne : b ≠ []) :
    tokenTexts (s ++ b ++ t) = tokenTexts s ++ tokenTexts t := by
  obtain ⟨e, b, rfl⟩ := List.exists_cons_of_ne_nil hne
  rw [isBlankText, List.all_cons, Bool.and_eq_true] at hb
  rw [List.append_assoc, List.cons_append, tokenTexts_append_blank _ _ hb.1,
    tokenTexts_blank_append hb.2]

theorem tokenTexts_append_of_isBlankText (s : Text) (hb : isBlankText b) :
    tokenTexts (s ++ b) = tokenTexts s := by
  cases b with
  | nil => rw [List.append_nil]
  | cons e b =>
    rw [isBlankText, List.all_cons, Bool.and_eq_true] at hb
    rw [tokenTexts_append_blank s b hb.1, tokenTexts_of_isBlankText hb.2, List.append_nil]

@[simp] theorem tokenTexts_trimEnd (s : Text) : tokenTexts (trimEnd s) = tokenTexts s := by
  obtain ⟨b, hb, hs⟩ := exists_trimEnd_append s
  rw [← tokenTexts_append_of_isBlankText (trimEnd s) hb, hs]

/-- Blanks at the ends bear no token. -/
@[simp] theorem tokenTexts_trim (s : Text) : tokenTexts (trim s) = tokenTexts s := by
  have h : ∀ s : Text, tokenTexts (trimStart s) = tokenTexts s := by
    intro s
    induction s with
    | nil => rfl
    | cons c s ih =>
      rw [trimStart, List.dropWhile_cons]
      split
      · next hc => exact ih.trans (tokenTexts_cons_of_isBlank hc s).symm
      · rfl
  rw [trim, tokenTexts_trimEnd, h]

end RankMetric
