import RankMetric.Proofs.TokenOffsets
import RankMetric.Proofs.WovenTemplates

/-!
# The grammar of markers

A marker is looked for among the tokens of a line, and tokens are as long as they can be. This
module says in characters where one is found: `Marker.StandsIn` asks for `/*`, blanks, the
identifier, blanks and `*/`, with no operator symbol before and behind. That no longer identifier is
taken for a shorter one needs no condition, since the identifier is followed by a blank or a star.

* `drop_tokenize`: the tokens from one on are those of the runs from there on, and what stands
  before them does not join them (`apart_of_runs_eq_append`).
* `Marker.runs_of_writes`: the tokens of a comment that writes a marker.
* `Marker.match?_iff_standsIn`: a marker is found at a token if and only if it stands there, and it
  takes up the tokens of its comment.
-/

namespace RankMetric

open Text

variable {s line : Text} {i : Nat}

/-! ### The tokens from one on -/

theorem length_place (n : Nat) (rs : List Text) : (place n rs).length = rs.length := by
  rw [← List.length_map (f := Token.text), map_text_place]

theorem length_tokenize (line : Text) : (tokenize line).length = (runs line).length :=
  length_place 0 (runs line)

/-- **The tokens from one on** are the runs from there on, at their places. -/
theorem drop_tokenize (line : Text) (i : Nat) :
    (tokenize line).drop i =
      place (byteLength ((runs line).take i).flatten) ((runs line).drop i) := by
  by_cases hi : i ≤ (runs line).length
  · have hlength : (place 0 ((runs line).take i)).length = i := by
      rw [length_place, List.length_take_of_le hi]
    conv_lhs => rw [tokenize, ← List.take_append_drop i (runs line), place_append, Nat.zero_add]
    exact List.drop_left' hlength
  · have hle : (runs line).length ≤ i := Nat.le_of_not_le hi
    rw [List.drop_eq_nil_of_le hle, List.drop_eq_nil_of_le (length_tokenize line ▸ hle)]
    rfl

theorem offset_getElem_tokenize (hi : i < (tokenize line).length) :
    (tokenize line)[i].offset = byteLength ((runs line).take i).flatten := by
  have hruns : i < (runs line).length := length_tokenize line ▸ hi
  have hdrop := drop_tokenize line i
  rw [List.drop_eq_getElem_cons hi, List.drop_eq_getElem_cons hruns] at hdrop
  exact congrArg Token.offset (List.cons.inj hdrop).1

theorem drop_place_append (n : Nat) (rs qs : List Text) :
    (place n (rs ++ qs)).drop rs.length = place (n + byteLength rs.flatten) qs := by
  rw [place_append]
  exact List.drop_left' (length_place n rs)

/-! ### Classes of characters -/

theorem ofChar_eq_operator_iff {c : Char} :
    TokenClass.ofChar c = .operator ↔ isOperatorChar c = true := by
  have hblank : isOperatorChar c = true → isBlank c = false := by
    intro h
    unfold isOperatorChar at h
    split at h
    on_goal 23 => cases h
    all_goals rfl
  rw [TokenClass.ofChar]
  cases hc : isBlank c with
  | true => simpa [hc] using hblank
  | false => cases isOperatorChar c <;> by_cases hsemi : c = ';' <;> simp [hsemi]

/-- An operator symbol joins the next character if and only if that is one too. -/
theorem joins_eq_false_iff_of_isOperatorChar {c d : Char} (hc : isOperatorChar c = true) :
    TokenClass.joins c d = false ↔ isOperatorChar d = false := by
  have hterminator : (TokenClass.operator != .terminator) = true := rfl
  rw [TokenClass.joins, ofChar_eq_operator_iff.2 hc, hterminator, Bool.and_true,
    beq_eq_false_iff_ne, ne_comm, ne_eq, ofChar_eq_operator_iff, Bool.not_eq_true]

namespace Text

/-- Blanks stand apart from what does not begin with one. -/
theorem apart_of_isBlankText {w : Text} (hw : isBlankText w = true)
    (ht : ∀ d ∈ t.head?, isBlank d = false) : w.Apart t := by
  intro c hc d hd
  have hblank : isBlank c = true := List.all_eq_true.1 hw c (List.mem_of_mem_getLast? hc)
  exact not_joins_of_isBlank_ne (by rw [hblank, ht d hd]; decide)

/-- What stands apart from a text also does with blanks in between, unless it ends with one. -/
theorem Apart.blank_append {w : Text} (h : s.Apart t) (hw : isBlankText w = true)
    (hs : ∀ c ∈ s.getLast?, isBlank c = false) : s.Apart (w ++ t) := by
  cases w with
  | nil => exact h
  | cons e w =>
    intro c hc d hd
    obtain rfl : e = d := Option.some.inj hd
    have hblank : isBlank e = true := List.all_eq_true.1 hw e List.mem_cons_self
    exact not_joins_of_isBlank_ne (by rw [hblank, hs c hc]; decide)

end Text

namespace Marker

variable {k : Marker} {n : Nat} {before comment after : Text}

/-! ### Comments that write a marker -/

/-- The comments that write a marker: its identifier between the signs, with or without blanks
around it. -/
def Writes (k : Marker) (comment : Text) : Prop :=
  ∃ w w', isBlankText w = true ∧ isBlankText w' = true ∧
    comment = openSign ++ w ++ k.ident ++ w' ++ closeSign

/-- A comment that writes a marker stands in a line, and no operator symbol touches it. -/
structure StandsIn (k : Marker) (line before comment after : Text) : Prop where
  line_eq : line = before ++ comment ++ after
  writes : k.Writes comment
  notBefore : ∀ c ∈ before.getLast?, isOperatorChar c = false
  notAfter : ∀ c ∈ after.head?, isOperatorChar c = false

/-! ### The tokens of a comment -/

theorem ofIdent?_ident (k : Marker) : ofIdent? k.ident = some k := by
  cases k <;> decide

theorem ofClass_ident (k : Marker) : OfClass .word k.ident := by
  cases k <;> decide

theorem not_isBlank_of_mem_ident (k : Marker) {c : Char} (hc : c ∈ k.ident) :
    isBlank c = false := by
  rw [Bool.eq_false_iff, ne_eq, ← ofChar_eq_space_iff, k.ofClass_ident.ofChar_eq c hc]
  decide

theorem isRun_ident (k : Marker) : IsRun k.ident :=
  k.ofClass_ident.isRun (by decide)

theorem isRun_openSign : IsRun openSign :=
  (show OfClass .operator openSign by decide).isRun (by decide)

theorem isRun_closeSign : IsRun closeSign :=
  (show OfClass .operator closeSign by decide).isRun (by decide)

/-- The runs of a blank text are blank. -/
theorem ofRun_of_mem_runs {w g : Text} (hw : isBlankText w = true) (hg : g ∈ runs w) :
    TokenClass.ofRun g = .space := by
  have hrun := isRun_of_mem_runs hg
  obtain ⟨c, hc⟩ := List.exists_mem_of_ne_nil g hrun.ne_nil
  have hmem : c ∈ w := by
    rw [← flatten_runs w]
    exact List.mem_flatten_of_mem hg hc
  rw [← hrun.ofChar_eq hc, ofChar_eq_space_iff]
  exact List.all_eq_true.1 hw c hmem

/-- The runs of a comment that writes a marker, of which the outermost are the signs. -/
def parts (k : Marker) (gap gap' : List Text) : List Text :=
  openSign :: (gap ++ k.ident :: (gap' ++ [closeSign]))

theorem flatten_parts (k : Marker) (gap gap' : List Text) : (k.parts gap gap').flatten =
    openSign ++ gap.flatten ++ k.ident ++ gap'.flatten ++ closeSign := by
  simp [parts]

/-- **A comment that writes a marker** has its parts for runs, if no operator symbol follows it. -/
theorem runs_of_writes (h : k.Writes comment)
    (hafter : ∀ c ∈ after.head?, isOperatorChar c = false) :
    ∃ gap gap', (∀ g ∈ gap, TokenClass.ofRun g = .space) ∧
      (∀ g ∈ gap', TokenClass.ofRun g = .space) ∧ comment = (k.parts gap gap').flatten ∧
      runs (comment ++ after) = k.parts gap gap' ++ runs after := by
  obtain ⟨w, w', hw, hw', rfl⟩ := h
  refine ⟨runs w, runs w', fun _ ↦ ofRun_of_mem_runs hw, fun _ ↦ ofRun_of_mem_runs hw',
    by rw [flatten_parts, flatten_runs, flatten_runs], ?_⟩
  -- from the closing sign to the front, each part stands apart from what follows it
  have hlast : runs (closeSign ++ after) = closeSign :: runs after := by
    rw [runs_append, runs_of_isRun isRun_closeSign, List.singleton_append]
    intro c hc d hd
    obtain rfl : '/' = c := Option.some.inj hc
    exact (joins_eq_false_iff_of_isOperatorChar (by decide)).2 (hafter d hd)
  have hgap' : runs (w' ++ (closeSign ++ after)) = runs w' ++ closeSign :: runs after := by
    rw [runs_append (apart_of_isBlankText hw' ?_), hlast]
    intro d hd
    obtain rfl : '*' = d := Option.some.inj hd
    rfl
  have hname : runs (k.ident ++ (w' ++ (closeSign ++ after))) =
      k.ident :: (runs w' ++ closeSign :: runs after) := by
    rw [runs_append, runs_of_isRun k.isRun_ident, hgap', List.singleton_append]
    refine Apart.blank_append (apart_of_ofChar_ne fun c hc d hd ↦ ?_) hw' fun c hc ↦
      k.not_isBlank_of_mem_ident (List.mem_of_mem_getLast? hc)
    obtain rfl : '*' = d := Option.some.inj hd
    rw [k.ofClass_ident.ofChar_eq c (List.mem_of_mem_getLast? hc)]
    decide
  have hgap : runs (w ++ (k.ident ++ (w' ++ (closeSign ++ after)))) =
      runs w ++ k.ident :: (runs w' ++ closeSign :: runs after) := by
    rw [runs_append (apart_of_isBlankText hw ?_), hname]
    intro d hd
    rw [List.head?_append_of_ne_nil _ k.ofClass_ident.ne_nil] at hd
    exact k.not_isBlank_of_mem_ident (List.mem_of_mem_head? hd)
  have hfirst : Text.Apart openSign (w ++ (k.ident ++ (w' ++ (closeSign ++ after)))) := by
    have hstar : ∀ c ∈ openSign.getLast?, isBlank c = false := by
      intro c hc
      obtain rfl : '*' = c := Option.some.inj hc
      rfl
    refine Apart.blank_append (apart_of_ofChar_ne fun c hc d hd ↦ ?_) hw hstar
    obtain rfl : '*' = c := Option.some.inj hc
    rw [List.head?_append_of_ne_nil _ k.ofClass_ident.ne_nil] at hd
    rw [k.ofClass_ident.ofChar_eq d (List.mem_of_mem_head? hd)]
    decide
  simp only [List.append_assoc]
  rw [runs_append hfirst, runs_of_isRun isRun_openSign, hgap]
  simp [parts]

/-- The blanks in front of another token. -/
theorem length_takeWhile_place {gap : List Text} (hgap : ∀ g ∈ gap, TokenClass.ofRun g = .space)
    {r : Text} (hr : TokenClass.ofRun r ≠ .space) (n : Nat) (rest : List Text) :
    ((place n (gap ++ r :: rest)).takeWhile Token.isSpace).length = gap.length := by
  induction gap generalizing n with
  | nil =>
    have hspace : Token.isSpace ⟨r, n, .ofRun r⟩ = false := beq_eq_false_iff_ne.2 hr
    rw [List.nil_append, place, List.takeWhile_cons_of_neg (by simp [hspace])]
    rfl
  | cons g gap ih =>
    obtain ⟨hg, hgap⟩ := List.forall_mem_cons.1 hgap
    have hspace : Token.isSpace ⟨g, n, .ofRun g⟩ = true := beq_iff_eq.2 hg
    rw [List.cons_append, place, List.takeWhile_cons_of_pos hspace, List.length_cons, ih hgap]
    rfl

/-- **The parts of a marker** are found to be one, whatever follows them. -/
theorem match?_place {gap gap' : List Text} (hgap : ∀ g ∈ gap, TokenClass.ofRun g = .space)
    (hgap' : ∀ g ∈ gap', TokenClass.ofRun g = .space) (n : Nat) (rest : List Text) :
    match? (place n (k.parts gap gap' ++ rest)) = some (k, (k.parts gap gap').length) := by
  have hword : TokenClass.ofRun k.ident ≠ .space := by
    cases k <;> decide
  have hclose : TokenClass.ofRun closeSign ≠ .space := by decide
  have hshape : k.parts gap gap' ++ rest =
      openSign :: (gap ++ k.ident :: (gap' ++ closeSign :: rest)) := by simp [parts]
  have hlength : (k.parts gap gap').length = gap.length + gap'.length + 3 := by
    simp only [parts, List.length_cons, List.length_append, List.length_nil]
    omega
  rw [hshape, hlength, place, match?, if_pos rfl]
  dsimp only
  rw [length_takeWhile_place hgap hword, drop_place_append, place]
  dsimp only
  rw [ofIdent?_ident]
  dsimp only
  rw [length_takeWhile_place hgap' hclose, drop_place_append, place]
  exact if_pos rfl

/-! ### Where markers stand -/

/-- **Where a marker stands it is found**, and it takes up the tokens of its comment. -/
theorem StandsIn.exists_match? (h : k.StandsIn line before comment after)
    (hi : i < (tokenize line).length)
    (hoffset : byteLength before = (tokenize line)[i].offset) :
    ∃ own rest, (tokenize line).drop i = own ++ rest ∧ (own.map Token.text).flatten = comment ∧
      match? ((tokenize line).drop i) = some (k, own.length) := by
  obtain ⟨gap, gap', hgap, hgap', hflatten, hruns⟩ := runs_of_writes h.writes h.notAfter
  rw [offset_getElem_tokenize] at hoffset
  -- what stands before the comment is what the tokens before make up
  have hcut : before ++ (comment ++ after) =
      ((runs line).take i).flatten ++ ((runs line).drop i).flatten := by
    rw [← List.flatten_append, List.take_append_drop, flatten_runs, h.line_eq, List.append_assoc]
  obtain ⟨-, hrest⟩ := append_inj_of_byteLength_eq hcut hoffset
  have hbehind : runs (comment ++ after) = (runs line).drop i := by
    rw [hrest]
    exact runs_flatten_of_append (List.take_append_drop i (runs line)).symm
  rw [drop_tokenize, ← hbehind, hruns]
  refine ⟨place _ (k.parts gap gap'), place _ (runs after), place_append _ _ _, ?_, ?_⟩
  · rw [map_text_place, ← hflatten]
  · rw [match?_place hgap hgap', length_place]

/-- Blank tokens make up a blank text. -/
theorem isBlankText_flatten {xs : List Token} (hsub : ∀ x ∈ xs, x ∈ tokenize line)
    (h : ∀ x ∈ xs, x.isSpace = true) : isBlankText (xs.map Token.text).flatten = true := by
  refine List.all_eq_true.2 fun c hc ↦ ?_
  obtain ⟨s, hs, hcs⟩ := List.mem_flatten.1 hc
  obtain ⟨x, hx, rfl⟩ := List.mem_map.1 hs
  rw [← ofChar_eq_space_iff, (isRun_of_mem_tokenize (hsub x hx)).ofChar_eq hcs,
    ← cls_of_mem_tokenize (hsub x hx)]
  exact beq_iff_eq.1 (h x hx)

/-- **Where a marker is found it stands.** -/
theorem exists_standsIn (hi : i < (tokenize line).length)
    (h : match? ((tokenize line).drop i) = some (k, n)) :
    ∃ before comment after, k.StandsIn line before comment after ∧
      byteLength before = (tokenize line)[i].offset := by
  obtain ⟨first, gap, ident, gap', last, rest, htokens, -, hfirst, hgap, hident, hgap', hlast⟩ :=
    exists_of_match? h
  have hmem : ∀ x ∈ first :: (gap ++ ident :: gap' ++ [last] ++ rest), x ∈ tokenize line :=
    fun x hx ↦ List.mem_of_mem_drop (htokens ▸ hx)
  have htexts : (runs line).drop i =
      k.parts (gap.map Token.text) (gap'.map Token.text) ++ rest.map Token.text := by
    rw [← tokenize_texts, ← List.map_drop, htokens]
    simp [parts, hfirst, hident, hlast]
  have hoffset := offset_getElem_tokenize hi
  have hruns : runs line = (runs line).take i ++
      (k.parts (gap.map Token.text) (gap'.map Token.text) ++ rest.map Token.text) := by
    rw [← htexts, List.take_append_drop]
  generalize (runs line).take i = front at hoffset hruns
  refine ⟨front.flatten, (k.parts (gap.map Token.text) (gap'.map Token.text)).flatten,
    (rest.map Token.text).flatten, ?_, hoffset.symm⟩
  constructor
  case line_eq =>
    rw [← flatten_runs line, hruns, List.flatten_append, List.flatten_append, List.append_assoc]
  case writes =>
    exact ⟨_, _, isBlankText_flatten (fun x hx ↦ hmem x (by simp [hx])) hgap,
      isBlankText_flatten (fun x hx ↦ hmem x (by simp [hx])) hgap', flatten_parts k _ _⟩
  case notBefore =>
    -- an operator symbol would join the stroke of the opening sign
    intro c hc
    have hnot := apart_of_runs_eq_append hruns c hc '/' rfl
    refine Bool.eq_false_iff.2 fun hoperator ↦ ?_
    exact absurd ((joins_eq_false_iff_of_isOperatorChar hoperator).1 hnot) (by decide)
  case notAfter =>
    intro c hc
    rw [← List.append_assoc] at hruns
    have hnot := apart_of_runs_eq_append hruns '/' (by simp [parts, closeSign]) c hc
    exact (joins_eq_false_iff_of_isOperatorChar (by decide)).1 hnot

/-- Tokens at the front of others that make up the same text are as many. -/
theorem length_eq_of_flatten_eq {xs xs' ys ys' : List Token}
    (hne : ∀ x ∈ xs ++ ys, x.text ≠ []) (h : xs ++ ys = xs' ++ ys')
    (hflatten : (xs.map Token.text).flatten = (xs'.map Token.text).flatten) :
    xs.length = xs'.length := by
  have hnil : ∀ {us vs : List Token}, (∀ x ∈ vs, x.text ≠ []) →
      (us.map Token.text).flatten = ((us ++ vs).map Token.text).flatten → vs = [] := by
    intro us vs hvs heq
    rw [List.map_append, List.flatten_append, List.self_eq_append_right,
      List.flatten_eq_nil_iff] at heq
    exact List.eq_nil_iff_forall_not_mem.2 fun x hx ↦ hvs x hx (heq _ (List.mem_map_of_mem hx))
  rcases List.append_eq_append_iff.1 h with ⟨vs, rfl, rfl⟩ | ⟨vs, rfl, rfl⟩
  · rw [hnil (fun x hx ↦ hne x (by simp [hx])) hflatten, List.append_nil]
  · rw [hnil (fun x hx ↦ hne x (by simp [hx])) hflatten.symm, List.append_nil]

/-- **Markers are recognised by their grammar.** A marker is found at a token if and only if a
comment that writes it stands there, with no operator symbol touching it. It takes up the tokens
that make up the comment. -/
theorem match?_iff_standsIn (hi : i < (tokenize line).length) (k : Marker) :
    ((∃ n, match? ((tokenize line).drop i) = some (k, n)) ↔
      ∃ before comment after, k.StandsIn line before comment after ∧
        byteLength before = (tokenize line)[i].offset) ∧
    ∀ before comment after, k.StandsIn line before comment after →
      byteLength before = (tokenize line)[i].offset →
      ∀ n, match? ((tokenize line).drop i) = some (k, n) ↔
        ∃ own rest, (tokenize line).drop i = own ++ rest ∧
          (own.map Token.text).flatten = comment ∧ own.length = n := by
  refine ⟨⟨fun ⟨n, h⟩ ↦ exists_standsIn hi h, ?_⟩, ?_⟩
  · rintro ⟨before, comment, after, hstands, hoffset⟩
    obtain ⟨own, rest, -, -, hmatch⟩ := hstands.exists_match? hi hoffset
    exact ⟨_, hmatch⟩
  · intro before comment after hstands hoffset n
    obtain ⟨own, rest, htokens, hflatten, hmatch⟩ := hstands.exists_match? hi hoffset
    rw [hmatch]
    constructor
    · intro h
      obtain ⟨-, rfl⟩ := Prod.mk.inj (Option.some.inj h)
      exact ⟨own, rest, htokens, hflatten, rfl⟩
    · rintro ⟨own', rest', htokens', hflatten', rfl⟩
      have hne : ∀ x ∈ own ++ rest, x.text ≠ [] := fun x hx ↦
        (isRun_of_mem_tokenize (List.mem_of_mem_drop (htokens ▸ hx))).ne_nil
      rw [length_eq_of_flatten_eq hne (htokens.symm.trans htokens') (hflatten.trans hflatten'.symm)]

/-- A line with a marker whose identifier begins with that of another one. -/
def postPerDocLine : Text :=
  "é /*METRIC_POST_PER_DOC */;".toList

theorem match?_iff_standsIn_postPerDocLine :
    2 < (tokenize postPerDocLine).length ∧
      postPerDoc.StandsIn postPerDocLine "é ".toList "/*METRIC_POST_PER_DOC */".toList [';'] ∧
      match? ((tokenize postPerDocLine).drop 2) = some (postPerDoc, 4) := by
  have hi : 2 < (tokenize postPerDocLine).length := by decide
  have hstands : postPerDoc.StandsIn postPerDocLine "é ".toList
      "/*METRIC_POST_PER_DOC */".toList [';'] :=
    ⟨by decide, ⟨[], [' '], by decide, by decide, by decide⟩,
      fun c hc ↦ by obtain rfl : ' ' = c := Option.some.inj hc; rfl,
      fun d hd ↦ by obtain rfl : ';' = d := Option.some.inj hd; rfl⟩
  obtain ⟨-, hspan⟩ := match?_iff_standsIn hi postPerDoc
  refine ⟨hi, hstands, (hspan _ _ _ hstands rfl 4).2
    ⟨((tokenize postPerDocLine).drop 2).take 4, (tokenize postPerDocLine).drop 6, ?_⟩⟩
  decide

end Marker

end RankMetric
