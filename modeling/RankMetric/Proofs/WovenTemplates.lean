import Mathlib.Data.List.TakeWhile
import RankMetric.Generation
import RankMetric.Proofs.DeclarationLines
import RankMetric.Proofs.TokenTexts

/-!
# What weaving does to a template

Weaving walks along the tokens of a line and jumps over a marker once it has replaced it. This
module says what comes out without walking: each token of a line is looked at by itself, with no
regard to what has been copied or replaced before it (`Metric.replaceAt`).

* `Marker.match?_drop_eq_none`: within a marker no other begins, so markers do not overlap and each
  of them is replaced.
* `Metric.weaveTokens_eq_flatMap`: what the walk gives is what the tokens give one by one. What is
  jumped over is known at each point of the walk (`Metric.JumpsTo`).
* `Metric.weave_local`: a template without a closed comment is refused. Any other has its text
  behind the first line that closes one woven line by line. A text without markers is copied, and a
  marker becomes its comment and a text that depends on the metric, the marker and the indentation
  of the line alone (`Metric.fill`).
-/

namespace RankMetric

open Text

/-! ### Pieces of a template -/

namespace Text

/-- The pieces after the first are the pieces of what follows it. -/
theorem pieces_flatten_of_cons {s p : Text} {ps : List Text} (h : pieces s = p :: ps) :
    pieces ps.flatten = ps := by
  induction s generalizing p ps with
  | nil => cases h
  | cons c s ih =>
    rw [pieces] at h
    split at h
    · obtain ⟨-, rfl⟩ := List.cons.inj h
      rw [flatten_pieces]
    · split at h
      · obtain ⟨-, rfl⟩ := List.cons.inj h
        rfl
      · next q qs hs =>
        obtain ⟨-, rfl⟩ := List.cons.inj h
        exact ih hs

theorem pieces_flatten_of_append {s : Text} {before : List Text} {p : Text} {after : List Text}
    (h : pieces s = before ++ p :: after) : pieces after.flatten = after := by
  induction before generalizing s with
  | nil => exact pieces_flatten_of_cons h
  | cons q before ih => exact ih (pieces_flatten_of_cons h)

end Text

/-! ### Tokens of a marker -/

/-- The text of token `i`. -/
def textAt (ts : List Token) (i : Nat) : Text :=
  (ts[i]?).elim [] Token.text

theorem flatMap_textAt (ts : List Token) :
    (List.range ts.length).flatMap (textAt ts) = (ts.map Token.text).flatten := by
  induction ts with
  | nil => rfl
  | cons t ts ih =>
    rw [List.length_cons, List.range_succ_eq_map, List.flatMap_cons, List.flatMap_map,
      List.map_cons, List.flatten_cons, ← ih]
    rfl

namespace Marker

variable {ts : List Token} {k : Marker} {i n : Nat}

/-- The tokens of a marker: the opening sign, the identifier and the closing sign, with blanks
between them. -/
theorem exists_of_match? (h : match? ts = some (k, n)) :
    ∃ first gap ident gap' last rest,
      ts = first :: (gap ++ ident :: gap' ++ [last] ++ rest) ∧
      n = (gap ++ ident :: gap' ++ [last]).length + 1 ∧
      first.text = openSign ∧ (∀ t ∈ gap, t.isSpace = true) ∧ ident.text = k.ident ∧
      (∀ t ∈ gap', t.isSpace = true) ∧ last.text = closeSign := by
  have hgap : ∀ {ts : List Token}, ∀ t ∈ ts.takeWhile Token.isSpace, t.isSpace = true :=
    List.all_eq_true.1 List.all_takeWhile
  have hrest : ∀ {ts us : List Token}, ts.drop (ts.takeWhile Token.isSpace).length = us →
      ts = ts.takeWhile Token.isSpace ++ us := by
    rintro ts us rfl
    exact (List.prefix_iff_eq_append.1 (List.takeWhile_prefix _)).symm
  unfold match? at h
  split at h
  · cases h
  next first ts =>
  split at h
  on_goal 2 => cases h
  next hopen =>
  dsimp only at h
  split at h
  · cases h
  next ident ts₁ hident =>
  split at h
  · cases h
  next k' hk =>
  split at h
  · cases h
  next last rest hlast =>
  split at h
  on_goal 2 => cases h
  next hclose =>
  obtain ⟨rfl, rfl⟩ := Prod.mk.inj (Option.some.inj h)
  refine ⟨first, ts.takeWhile Token.isSpace, ident, ts₁.takeWhile Token.isSpace, last, rest, ?_, ?_,
    hopen, hgap, ?_, hgap, hclose⟩
  · rw [List.append_assoc, List.append_assoc, List.cons_append, List.singleton_append,
      ← hrest hlast, ← hrest hident]
  · simp only [List.length_append, List.length_cons, List.length_nil]
    omega
  · have hfound : (k'.ident == ident.text) = true :=
      List.find?_some (p := fun m : Marker ↦ m.ident == ident.text) hk
    exact (beq_iff_eq.1 hfound).symm

/-- A marker begins with an opening sign. -/
theorem match?_eq_none {t : Token} (h : t.text ≠ openSign) : match? (t :: ts) = none := by
  rw [match?, if_neg h]

theorem ident_ne_openSign (k : Marker) : k.ident ≠ openSign := by
  cases k <;> decide

/-- **Within a marker no other begins.** -/
theorem match?_drop_eq_none (hcls : ∀ t ∈ ts, t.cls = .ofRun t.text)
    (h : match? ts = some (k, n)) (hpos : 0 < i) (hi : i < n) : match? (ts.drop i) = none := by
  obtain ⟨first, gap, ident, gap', last, rest, rfl, rfl, -, hgap, hident, hgap', hlast⟩ :=
    exists_of_match? h
  generalize hbody : gap ++ ident :: gap' ++ [last] = body at *
  obtain ⟨i, rfl⟩ := Nat.exists_eq_add_of_le' hpos
  have hlt : i < body.length := by omega
  rw [List.drop_succ_cons, List.drop_append_of_le_length hlt.le, List.drop_eq_getElem_cons hlt]
  refine match?_eq_none fun hopen ↦ ?_
  have hspace : ∀ t ∈ body, t.isSpace = true → t.text ≠ openSign := by
    intro t ht hblank htext
    have hclass := hcls t (List.mem_cons_of_mem _ (List.mem_append_left _ ht))
    rw [htext] at hclass
    rw [Token.isSpace, hclass] at hblank
    cases hblank
  have hmem : body[i] ∈ gap ++ ident :: gap' ++ [last] := hbody ▸ List.getElem_mem hlt
  simp only [List.mem_append, List.mem_cons, List.not_mem_nil, or_false] at hmem
  rcases hmem with (hmem | hmem | hmem) | hmem
  · exact hspace _ (List.getElem_mem hlt) (hgap _ hmem) hopen
  · rw [hmem, hident] at hopen
    exact ident_ne_openSign k hopen
  · exact hspace _ (List.getElem_mem hlt) (hgap' _ hmem) hopen
  · rw [hmem, hlast] at hopen
    cases hopen

/-- Whether token `i` belongs to a marker that begins before it. -/
def isWithin (ts : List Token) (i : Nat) : Bool :=
  (List.range i).any fun j ↦ (match? (ts.drop j)).any fun p ↦ i < j + p.2

theorem isWithin_iff : isWithin ts i = true ↔
    ∃ j < i, ∃ k n, match? (ts.drop j) = some (k, n) ∧ i < j + n := by
  simp only [isWithin, List.any_eq_true, List.mem_range, Option.any_eq_true, decide_eq_true_eq,
    Prod.exists]

end Marker

/-! ### Token by token -/

namespace Metric

variable (m : Metric) (dent : Nat) {ts : List Token}

/-- What follows the comment of a marker: a value on the same line, or lines of code. -/
def fill : Marker → Text
  | .name => ' ' :: m.name
  | .dependsPost => ' ' :: ofNat m.post.statements.length
  | k => '\n' :: m.emission dent k

theorem expansion_eq (k : Marker) : m.expansion dent k = k.text ++ m.fill dent k := by
  cases k <;> rfl

/-- What becomes of token `i` of a line. The first token of a marker stands for all of it. -/
def replaceAt (ts : List Token) (i : Nat) : Text :=
  match Marker.match? (ts.drop i) with
  | some (k, _) => k.text ++ m.fill dent k
  | none => if Marker.isWithin ts i then [] else textAt ts i

/-- Where the walk along a line stands: at token `i`, with `skip` tokens to be jumped over. They
belong to a marker and none begins there, and no marker before token `i` reaches further. -/
structure JumpsTo (ts : List Token) (i skip : Nat) : Prop where
  within : ∀ j, i ≤ j → j < i + skip →
    Marker.match? (ts.drop j) = none ∧ Marker.isWithin ts j = true
  reach : ∀ j < i, ∀ k n, Marker.match? (ts.drop j) = some (k, n) → j + n ≤ i + skip

namespace JumpsTo

variable {i skip n : Nat} {k : Marker}

/-- A token that is jumped over adds nothing. -/
theorem jumped (h : JumpsTo ts i (skip + 1)) :
    m.replaceAt dent ts i = [] ∧ JumpsTo ts (i + 1) skip := by
  obtain ⟨hnone, hwithin⟩ := h.within i le_rfl (by omega)
  refine ⟨?_, fun j hj hlt ↦ h.within j (by omega) (by omega), fun j hj k n hk ↦ ?_⟩
  · rw [replaceAt, hnone]
    exact if_pos hwithin
  · rcases Nat.lt_succ_iff_lt_or_eq.1 hj with hj | rfl
    · have := h.reach j hj k n hk
      omega
    · rw [hnone] at hk
      cases hk

/-- The first token of a marker stands for the marker, and the others are jumped over. -/
theorem replaced (hcls : ∀ t ∈ ts, t.cls = .ofRun t.text) (h : JumpsTo ts i 0)
    (hmatch : Marker.match? (ts.drop i) = some (k, n)) :
    m.replaceAt dent ts i = m.expansion dent k ∧ JumpsTo ts (i + 1) (n - 1) := by
  have hpos : 0 < n := by
    obtain ⟨-, gap, ident, gap', last, -, -, rfl, -⟩ := Marker.exists_of_match? hmatch
    exact Nat.succ_pos _
  refine ⟨by rw [replaceAt, hmatch, expansion_eq], fun j hj hlt ↦ ⟨?_, ?_⟩, fun j hj k' n' hk' ↦ ?_⟩
  · have hinner := Marker.match?_drop_eq_none (i := j - i)
      (fun t ht ↦ hcls t (List.mem_of_mem_drop ht)) hmatch (by omega) (by omega)
    rwa [List.drop_drop, Nat.add_sub_cancel' (by omega)] at hinner
  · exact Marker.isWithin_iff.2 ⟨i, by omega, k, n, hmatch, by omega⟩
  · rcases Nat.lt_succ_iff_lt_or_eq.1 hj with hj | rfl
    · have := h.reach j hj k' n' hk'
      omega
    · obtain ⟨rfl, rfl⟩ := Prod.mk.inj (Option.some.inj (hmatch.symm.trans hk'))
      omega

/-- Any other token is copied. -/
theorem copied (hi : i < ts.length) (h : JumpsTo ts i 0)
    (hmatch : Marker.match? (ts.drop i) = none) :
    m.replaceAt dent ts i = ts[i].text ∧ JumpsTo ts (i + 1) 0 := by
  have houtside : ¬ Marker.isWithin ts i = true := by
    rw [Marker.isWithin_iff]
    rintro ⟨j, hj, k, n, hk, hlt⟩
    have := h.reach j hj k n hk
    omega
  refine ⟨?_, fun j hj hlt ↦ by omega, fun j hj k n hk ↦ ?_⟩
  · rw [replaceAt, hmatch]
    show (if Marker.isWithin ts i = true then [] else textAt ts i) = _
    rw [if_neg houtside, textAt, List.getElem?_eq_getElem hi]
    rfl
  · rcases Nat.lt_succ_iff_lt_or_eq.1 hj with hj | rfl
    · have := h.reach j hj k n hk
      omega
    · rw [hmatch] at hk
      cases hk

end JumpsTo

/-- The rest of the walk along a line, from token `i` on. -/
theorem weaveTokens_drop (hcls : ∀ t ∈ ts, t.cls = .ofRun t.text) (c : Nat) {i skip : Nat}
    (hlength : ts.length = i + c) (h : JumpsTo ts i skip) :
    m.weaveTokens dent skip (ts.drop i) = (List.range' i c).flatMap (m.replaceAt dent ts) := by
  -- on the number of tokens that are left, for all places of the walk at once
  induction c generalizing i skip with
  | zero =>
    rw [List.drop_eq_nil_of_le (by omega)]
    cases skip <;> rfl
  | succ c ih =>
    have hi : i < ts.length := by omega
    have hdrop : ts.drop i = ts[i] :: ts.drop (i + 1) := List.drop_eq_getElem_cons hi
    have hrest := fun {skip : Nat} (h : JumpsTo ts (i + 1) skip) ↦ ih (by omega) h
    rw [List.range'_succ, List.flatMap_cons, hdrop]
    cases skip with
    | succ skip =>
      obtain ⟨hnothing, hnext⟩ := h.jumped m dent
      rw [weaveTokens, hrest hnext, hnothing]
      rfl
    | zero =>
      rw [weaveTokens]
      cases hmatch : Marker.match? (ts[i] :: ts.drop (i + 1)) with
      | some p =>
        rw [← hdrop] at hmatch
        obtain ⟨hreplaced, hnext⟩ := h.replaced m dent hcls hmatch
        dsimp only
        rw [hrest hnext, hreplaced]
      | none =>
        rw [← hdrop] at hmatch
        obtain ⟨hcopied, hnext⟩ := h.copied m dent hi hmatch
        dsimp only
        rw [hrest hnext, hcopied]

/-- **A line is woven token by token.** -/
theorem weaveTokens_eq_flatMap (hcls : ∀ t ∈ ts, t.cls = .ofRun t.text) :
    m.weaveTokens dent 0 ts = (List.range ts.length).flatMap (m.replaceAt dent ts) := by
  have hstart : JumpsTo ts 0 0 := ⟨fun j _ hlt ↦ by omega, fun j hj ↦ by omega⟩
  have hwalk := m.weaveTokens_drop dent hcls ts.length (by omega) hstart
  rw [List.drop_zero, ← List.range_eq_range'] at hwalk
  exact hwalk

theorem weaveText_eq_flatMap (s : Text) :
    m.weaveText s = (pieces s).flatMap fun l ↦
      (List.range (tokenize l).length).flatMap
        (m.replaceAt (leadingBlanks l).length (tokenize l)) := by
  have hline : m.weaveLine = fun l ↦ (List.range (tokenize l).length).flatMap
      (m.replaceAt (leadingBlanks l).length (tokenize l)) :=
    funext fun l ↦ m.weaveTokens_eq_flatMap _ fun t ↦ cls_of_mem_tokenize
  rw [weaveText, weaveLines, hline]

/-! ### Texts -/

/-- A text in which no marker begins is copied. -/
theorem weaveText_eq_self {s : Text}
    (h : ∀ l ∈ pieces s, ∀ i < (tokenize l).length, Marker.match? ((tokenize l).drop i) = none) :
    m.weaveText s = s := by
  have hnone : ∀ l ∈ pieces s, ∀ i, Marker.match? ((tokenize l).drop i) = none := by
    intro l hl i
    by_cases hi : i < (tokenize l).length
    · exact h l hl i hi
    · rw [List.drop_eq_nil_of_le (Nat.le_of_not_lt hi)]
      rfl
  have hline : ∀ l ∈ pieces s, (List.range (tokenize l).length).flatMap
      (m.replaceAt (leadingBlanks l).length (tokenize l)) = l := by
    intro l hl
    have hcopied : m.replaceAt (leadingBlanks l).length (tokenize l) = textAt (tokenize l) := by
      funext i
      have houtside : ¬ Marker.isWithin (tokenize l) i = true := by
        rw [Marker.isWithin_iff]
        rintro ⟨j, -, k, n, hk, -⟩
        rw [hnone l hl j] at hk
        cases hk
      rw [replaceAt, hnone l hl i]
      exact if_neg houtside
    rw [hcopied, flatMap_textAt, tokenize_texts, flatten_runs]
  rw [weaveText_eq_flatMap, List.flatMap_congr hline, List.flatMap_id', flatten_pieces]

/-- A text may be woven in parts that end where a line ends. -/
theorem weaveText_append (a b : Text) :
    m.weaveText (a ++ ['\n'] ++ b) = m.weaveText (a ++ ['\n']) ++ m.weaveText b := by
  rw [weaveText, List.append_assoc, List.singleton_append, pieces_append, weaveLines,
    List.flatMap_append]
  rfl

end Metric

/-! ### The header of a template -/

theorem closesHeader_iff {l : Text} : closesHeader l = true ↔ Marker.closeSign <:+: l := by
  rw [closesHeader, hasPart, ← not_iff_not, ← breakOn_eq_none_iff, Bool.not_eq_true,
    Option.isSome_eq_false_iff, Option.isNone_iff_eq_none]

variable {template : Text}

/-- The header ends with the first line that closes a comment. -/
theorem templateBody?_of_pieces {before after : List Text} {l : Text}
    (hpieces : pieces template = before ++ l :: after)
    (hbefore : ∀ l' ∈ before, ¬ Marker.closeSign <:+: l') (hl : Marker.closeSign <:+: l) :
    templateBody? template = some after := by
  have hskipped : ∀ l' ∈ before, (!closesHeader l') = true := fun l' hl' ↦ by
    rw [Bool.not_eq_true', Bool.eq_false_iff, ne_eq, closesHeader_iff]
    exact hbefore l' hl'
  rw [templateBody?, hpieces, List.dropWhile_append_of_pos hskipped,
    List.dropWhile_cons_of_neg (by rw [closesHeader_iff.2 hl]; simp)]

theorem templateBody?_eq_none_iff :
    templateBody? template = none ↔ ∀ l ∈ pieces template, ¬ Marker.closeSign <:+: l := by
  have hnil : templateBody? template = none ↔
      (pieces template).dropWhile (fun l ↦ !closesHeader l) = [] := by
    rw [templateBody?]
    split
    · next h => simp [h]
    · next h => simp [h]
  rw [hnil, List.dropWhile_eq_nil_iff]
  refine forall₂_congr fun l _ ↦ ?_
  rw [Bool.not_eq_true', Bool.eq_false_iff, ne_eq, closesHeader_iff]

namespace Metric

/-- **Weaving is local and copies all else.** A template is refused if and only if none of its lines
closes a comment. Otherwise the output is a generated header and then the woven text behind the
first line that closes one, unless the time cannot be written. A text may be woven in parts that end
where a line ends. One in which no marker begins is copied as it is. In general each line is woven
token by token: a marker, wherever one begins, becomes its comment and a text that depends on the
metric, the marker and the number of blanks at the front of the line; the other tokens of the marker
are dropped, and a token that is in no marker is copied. -/
theorem weave_local :
    (∀ {lib : TimeLibrary} (m : Metric) (c : WeaveConfig lib) (template : Text),
      (m.weave c template = .error (.invalidTemplate c.templatePath) ↔
        ∀ l ∈ pieces template, ¬ Marker.closeSign <:+: l) ∧
      ∀ before l after, pieces template = before ++ l :: after →
        (∀ l' ∈ before, ¬ Marker.closeSign <:+: l') → Marker.closeSign <:+: l →
        m.weave c template = (c.provenance.map fun p ↦
          m.header p ++ m.weaveText after.flatten).mapError .emit) ∧
    (∀ (m : Metric) (a b : Text),
      m.weaveText (a ++ ['\n'] ++ b) = m.weaveText (a ++ ['\n']) ++ m.weaveText b) ∧
    (∀ (m : Metric) (s : Text),
      (∀ l ∈ pieces s, ∀ i < (tokenize l).length, Marker.match? ((tokenize l).drop i) = none) →
        m.weaveText s = s) ∧
    ∀ (m : Metric) (s : Text), m.weaveText s = (pieces s).flatMap fun l ↦
      (List.range (tokenize l).length).flatMap
        (m.replaceAt (leadingBlanks l).length (tokenize l)) := by
  refine ⟨fun m c template ↦ ⟨?_, fun before l after hpieces hbefore hl ↦ ?_⟩,
    weaveText_append, fun m s ↦ m.weaveText_eq_self, weaveText_eq_flatMap⟩
  · rw [← templateBody?_eq_none_iff, weave]
    cases templateBody? template with
    | none => simp
    | some ls => cases c.provenance <;> simp
  · rw [weave, templateBody?_of_pieces hpieces hbefore hl, weaveText,
      pieces_flatten_of_append hpieces]
    cases c.provenance <;> rfl

/-- A metric with a name and nothing else. -/
def sampleMetric : Metric where
  name := "t".toList
  source := "t.metric".toList
  comments := []
  prerequisites := []

theorem weave_local_sample :
    let c : WeaveConfig .civil :=
      ⟨"t.metric".toList, "t.c".toList, "metricc".toList, ClockTime.ofInstant 0 0⟩
    let p : Provenance := ⟨"t.metric".toList, "t.c".toList, "metricc".toList,
      "Thu, 01 Jan 1970 00:00:00 GMT".toList⟩
    let body := "  int x; /* METRIC_FOO */\n\t/*METRIC_NAME*/ =/* METRIC_NAME */ y".toList
    let woven := "  int x; /* METRIC_FOO */\n\t/* METRIC_NAME */ t =/* METRIC_NAME */ y".toList
    sampleMetric.weave c ("/*\n * a template */\n".toList ++ body) =
        .ok (sampleMetric.header p ++ sampleMetric.weaveText body) ∧
      sampleMetric.weaveText body = woven ∧
      sampleMetric.weaveText "  int x; /* METRIC_FOO */\n".toList =
        "  int x; /* METRIC_FOO */\n".toList := by
  intro c p body woven
  obtain ⟨hweave, -, hcopied, htokens⟩ := weave_local
  have hopens : ∀ l' ∈ ["/*\n".toList], ¬ Marker.closeSign <:+: l' := by decide +kernel
  have hcloses : Marker.closeSign <:+: " * a template */\n".toList := by decide +kernel
  have hpieces : pieces ("/*\n * a template */\n".toList ++ body) =
      ["/*\n".toList] ++ " * a template */\n".toList :: pieces body := by decide +kernel
  have hp : c.provenance = .ok p := by decide +kernel
  have hok := (hweave sampleMetric c _).2 _ _ _ hpieces hopens hcloses
  rw [hp, flatten_pieces] at hok
  refine ⟨hok, ?_, hcopied sampleMetric _ (by decide +kernel)⟩
  rw [htokens]
  decide +kernel

end Metric

end RankMetric
