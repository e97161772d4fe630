import Mathlib.Algebra.GroupWithZero.Nat
import RankMetric.Proofs.AlikeMetrics
import RankMetric.Proofs.DeclarationLines
import RankMetric.Proofs.ReadTimestamps
import RankMetric.Proofs.SeparateRoutines
import RankMetric.Proofs.StatementSteps
import RankMetric.Weave

/-!
# Where generated comments are closed

The remarks of a description end up in comments of the generated text: those at the top in the
header, and those among the statements of a routine as statements. Their texts are copied as they
are, so a sign `*/` in a remark closes the generated comment early.

* `Text.closings` counts the signs. Signs are neither made nor lost where a text without a star at
  its end or a stroke at its front is put between two others (`Text.closings_glue`), nor by small
  letters (`Text.closings_lowercase`).
* `closings_renderHeader`: the signs of a header, in full. One is its own.
* `Reader.FromRemark`: where the statement of a remark comes from, kept by every line
  (`Reader.fromRemark_of_run`).
* `Metric.closesOnce_iff`: a generated comment is closed only at its end if and only if the remark
  has no sign. `Metric.exists_closed_early` has one that does.
-/

namespace RankMetric

open Text

/-! ### Counting signs -/

namespace Text

/-- How often the sign that closes a comment stands in a text. -/
def closings : Text → Nat
  | [] => 0
  | c :: s => (if c = '*' ∧ s.head? = some '/' then 1 else 0) + closings s

variable {s t g : Text} {c : Char}

theorem closings_cons_of_ne (hc : c ≠ '*') (s : Text) : closings (c :: s) = closings s := by
  rw [closings, if_neg fun h ↦ hc h.1, Nat.zero_add]

theorem closings_eq_zero_of_notMem (h : '*' ∉ s) : closings s = 0 := by
  induction s with
  | nil => rfl
  | cons c s ih =>
    obtain ⟨hc, hs⟩ := not_or.1 (mt List.mem_cons.2 h)
    rw [closings_cons_of_ne (Ne.symm hc), ih hs]

/-- A text is without the sign if it is counted no times. -/
theorem closings_eq_zero_iff : closings s = 0 ↔ ¬ Marker.closeSign <:+: s := by
  induction s with
  | nil => simp [closings, Marker.closeSign]
  | cons c s ih =>
    have hprefix : Marker.closeSign <+: c :: s ↔ c = '*' ∧ s.head? = some '/' := by
      cases s <;> simp [Marker.closeSign, List.cons_prefix_cons, eq_comm]
    rw [closings, List.infix_cons_iff, hprefix, not_or, ← ih]
    split_ifs with h <;> simp [h]

/-- Signs are counted part by part if none stands across the border of the parts. -/
theorem closings_append (h : s.getLast? ≠ some '*' ∨ t.head? ≠ some '/') :
    closings (s ++ t) = closings s + closings t := by
  induction s with
  | nil => rw [List.nil_append, closings, Nat.zero_add]
  | cons c s ih =>
    cases s with
    | nil =>
      have hborder : ¬ (c = '*' ∧ t.head? = some '/') := by
        rintro ⟨rfl, ht⟩
        exact h.elim (fun hs ↦ hs rfl) fun ht' ↦ ht' ht
      rw [List.singleton_append, closings, if_neg hborder, closings]
      simp [closings]
    | cons d s =>
      rw [List.getLast?_cons_cons] at h
      rw [List.cons_append, closings, closings, ih h, Nat.add_assoc]
      rfl

/-- Whether a text can be put between others without making or losing a sign. -/
structure IsGlue (g : Text) : Prop where
  closings : g.closings = 0
  head : g.head? ≠ some '/'
  last : g.getLast? ≠ some '*'

instance (g : Text) : Decidable (IsGlue g) :=
  decidable_of_iff (g.closings = 0 ∧ g.head? ≠ some '/' ∧ g.getLast? ≠ some '*')
    ⟨fun ⟨hc, hh, hl⟩ ↦ ⟨hc, hh, hl⟩, fun ⟨hc, hh, hl⟩ ↦ ⟨hc, hh, hl⟩⟩

theorem closings_glue_append (hg : IsGlue g) (t : Text) : closings (g ++ t) = closings t := by
  rw [closings_append (.inl hg.last), hg.closings, Nat.zero_add]

theorem closings_append_glue (hg : IsGlue g) (s : Text) : closings (s ++ g) = closings s := by
  rw [closings_append (.inr hg.head), hg.closings, Nat.add_zero]

/-- What glues texts together neither brings a sign nor makes one of their ends. -/
theorem closings_glue (hg : IsGlue g) (hne : g ≠ []) (s t : Text) :
    closings (s ++ (g ++ t)) = closings s + closings t := by
  have hhead : (g ++ t).head? ≠ some '/' := by
    rw [List.head?_append_of_ne_nil _ hne]
    exact hg.head
  rw [closings_append (.inr hhead), closings_glue_append hg]

theorem isGlue_of_isBlankText (h : isBlankText s = true) : IsGlue s := by
  have hblank : ∀ c ∈ s, isBlank c = true := List.all_eq_true.1 h
  refine ⟨closings_eq_zero_of_notMem fun hc ↦ ?_, fun hh ↦ ?_, fun hl ↦ ?_⟩
  · cases hblank _ hc
  · cases hblank _ (List.mem_of_mem_head? hh)
  · cases hblank _ (List.mem_of_mem_getLast? hl)

theorem closings_trimEnd (s : Text) : closings (trimEnd s) = closings s := by
  obtain ⟨b, hb, hs⟩ := exists_trimEnd_append s
  rw [← closings_append_glue (isGlue_of_isBlankText hb) (trimEnd s), hs]

/-- The signs of lines are those of each line: none stands across a line feed. -/
theorem closings_unlines (ls : List Text) : closings (unlines ls) = (ls.map closings).sum := by
  induction ls with
  | nil => rfl
  | cons l ls ih =>
    rw [unlines_cons, List.map_cons, List.sum_cons, ← ih]
    exact closings_glue (g := ['\n']) (by decide) (by simp) l (unlines ls)

/-! ### Small letters -/

/-- A character that is not its own small letter has one that is neither star nor stroke. -/
theorem smallLetter_eq_or (c : Char) :
    smallLetter c = c ∨ smallLetter c ≠ '*' ∧ smallLetter c ≠ '/' := by
  have htargets : ∀ x ∈ lowercaseRanges, 0x61 ≤ x.2.2.2 := by decide +kernel
  have hletter : ∀ n, 0x61 ≤ n → Char.ofNat n ≠ '*' ∧ Char.ofNat n ≠ '/' := by
    intro n hn
    have hcode : (Char.ofNat n).toNat = n ∨ (Char.ofNat n).toNat = 0 := by
      by_cases hvalid : n.isValidChar
      · rw [Char.ofNat, dif_pos hvalid]
        exact .inl rfl
      · rw [Char.ofNat, dif_neg hvalid]
        exact .inr rfl
    have hstar : '*'.toNat = 42 := rfl
    have hstroke : '/'.toNat = 47 := rfl
    refine ⟨fun h ↦ ?_, fun h ↦ ?_⟩
    · rw [h, hstar] at hcode
      omega
    · rw [h, hstroke] at hcode
      omega
  unfold smallLetter
  dsimp only
  split
  · next first _ _ target hrun =>
    have htarget : 0x61 ≤ target := htargets _ (List.mem_of_find?_eq_some hrun)
    exact .inr (hletter _ (by omega))
  · exact .inl rfl

theorem closings_lowercaseFrom (before s : Text) :
    closings (lowercaseFrom before s) = closings s ∧
      ((lowercaseFrom before s).head? = some '/' ↔ s.head? = some '/') := by
  induction s generalizing before with
  | nil => exact ⟨rfl, Iff.rfl⟩
  | cons c s ih =>
    obtain ⟨hrest, hhead⟩ := ih (c :: before)
    -- a character that is another in small letters is no part of a sign, before or after
    have hother : ∀ d, c ≠ '*' → c ≠ '/' → d ≠ '*' → d ≠ '/' →
        closings (d :: lowercaseFrom (c :: before) s) = closings (c :: s) ∧
          ((d :: lowercaseFrom (c :: before) s).head? = some '/' ↔ (c :: s).head? = some '/') := by
      intro d hc hc' hd hd'
      rw [closings_cons_of_ne hd, closings_cons_of_ne hc, hrest]
      simp [hc', hd']
    rw [lowercaseFrom]
    split_ifs with hsigma hend hdotted
    · exact hother 'ς' (by rw [hsigma]; decide) (by rw [hsigma]; decide) (by decide) (by decide)
    · exact hother 'σ' (by rw [hsigma]; decide) (by rw [hsigma]; decide) (by decide) (by decide)
    · have hi := hother 'i' (by rw [hdotted]; decide) (by rw [hdotted]; decide) (by decide)
        (by decide)
      show closings ('i' :: '\u0307' :: _) = _ ∧ _
      rw [closings_cons_of_ne (by decide), closings_cons_of_ne (by decide)]
      rw [closings_cons_of_ne (by decide)] at hi
      exact hi
    · rcases smallLetter_eq_or c with hsame | ⟨hstar, hstroke⟩
      · rw [hsame, List.singleton_append, closings, closings, hrest]
        simp only [hhead, List.head?_cons, and_self]
      · refine hother (smallLetter c) ?_ ?_ hstar hstroke <;> rintro rfl
        · exact hstar (by decide +kernel)
        · exact hstroke (by decide +kernel)

/-- Small letters neither make signs nor lose them. -/
theorem closings_lowercase (s : Text) : closings (lowercase s) = closings s :=
  (closings_lowercaseFrom [] s).1

/-! ### Comments -/

/-- Whether a text has the sign once, with nothing but blanks behind it. -/
def ClosesOnce (s : Text) : Prop :=
  closings s = 1 ∧ ∃ a b, s = a ++ Marker.closeSign ++ b ∧ isBlankText b = true

variable {a b x y : Text}

/-- Two texts between fixed ones. -/
theorem closings_between (ha : closings a = 0) (halast : a.getLast? ≠ some '*') (hg : IsGlue g)
    (hne : g ≠ []) (hb : IsGlue b) :
    closings (a ++ x ++ g ++ y ++ b) = closings x + closings y := by
  rw [closings_append_glue hb, List.append_assoc, List.append_assoc,
    closings_append (.inl halast), ha, Nat.zero_add, closings_glue hg hne]

end Text

/-- A remark as a statement has its own sign and those of its text. -/
theorem closings_remarkText (t : Text) : closings (remarkText t) = 1 + closings t := by
  have hopening : closings ("/* ".toList ++ t) = closings t := by
    rw [closings_append (.inl (by decide)), show closings "/* ".toList = 0 by decide, Nat.zero_add]
  rw [remarkText, closings_append (.inr (by decide)), hopening,
    show closings " */".toList = 1 by decide, Nat.add_comm]

theorem closings_headerComment (c : Text) : closings (headerComment c) = closings c := by
  rw [headerComment, closings_trimEnd, closings_glue_append (by decide)]

/-- **The signs of a header**: its own, and those of the texts that are copied into it. -/
theorem closings_renderHeader (name : Name) (cs : List Text) (p : Provenance) :
    closings (renderHeader name cs p) = 1 + (3 * closings name + 2 * closings p.metricPath +
      2 * closings p.templatePath + closings p.tool + closings p.stamp +
      (cs.map closings).sum) := by
  -- line by line; between the texts that are copied stands glue
  have htitle : closings ("/* ".toList ++ lowercase name ++ ".c implements the ".toList ++ name ++
      " metric for the query".toList) = closings name + closings name := by
    rw [closings_between (by decide) (by decide) (by decide) (by decide) (by decide),
      closings_lowercase]
  have hsubsystem :
      closings " * subsystem.  This file was automatically generated from".toList = 0 := by decide
  have hpaths : closings (" * ".toList ++ p.metricPath ++ " and ".toList ++ p.templatePath) =
      closings p.metricPath + closings p.templatePath := by
    rw [← List.append_nil (_ ++ p.templatePath)]
    exact closings_between (by decide) (by decide) (by decide) (by decide) (by decide)
  have hmade : closings (" * by ".toList ++ p.tool ++ " on ".toList ++ p.stamp ++ ".".toList) =
      closings p.tool + closings p.stamp :=
    closings_between (by decide) (by decide) (by decide) (by decide) (by decide)
  have hempty : closings " *".toList = 0 := by decide
  have hwarning :
      closings " * DO NOT MODIFY THIS FILE, as changes will be lost upon".toList = 0 := by decide
  have hregeneration : closings " * subsequent regeneration.".toList = 0 := by decide
  have hgo : closings (" * Go modify ".toList ++ p.metricPath ++ " or ".toList ++ p.templatePath ++
      " instead.".toList) = closings p.metricPath + closings p.templatePath :=
    closings_between (by decide) (by decide) (by decide) (by decide) (by decide)
  have hfrom : closings (" * Comments from ".toList ++ name ++ ".metric:".toList) =
      closings name := by
    rw [closings_append_glue (by decide), closings_glue_append (by decide)]
  have hcomments : (cs.map headerComment).map closings = cs.map closings := by
    rw [List.map_map]
    exact List.map_congr_left fun c _ ↦ closings_headerComment c
  have hgap : ((if cs.isEmpty then [] else [" *".toList]).map closings).sum = 0 := by
    split <;> decide
  have hend : closings " */".toList = 1 := by decide
  rw [renderHeader, closings_unlines, headerLines]
  simp only [List.map_append, List.map_cons, List.map_nil, List.sum_append, List.sum_cons,
    List.sum_nil, htitle, hsubsystem, hpaths, hmade, hempty, hwarning, hregeneration, hgo, hfrom,
    hcomments, hgap, hend, closings]
  omega

/-- A header ends with its own sign and two line feeds. -/
theorem exists_renderHeader_eq (name : Name) (cs : List Text) (p : Provenance) :
    ∃ a, renderHeader name cs p = a ++ Marker.closeSign ++ "\n\n".toList := by
  have hend : ∀ ls : List Text, unlines (ls ++ [" */".toList, []]) =
      unlines ls ++ [' '] ++ Marker.closeSign ++ "\n\n".toList := by
    intro ls
    rw [unlines_append]
    simp [Marker.closeSign]
  exact ⟨_, hend _⟩

/-! ### Timestamps -/

namespace Stamp

theorem star_notMem_digits (n k : Nat) : '*' ∉ digits n k := by
  have hzero : '*' ∉ List.replicate (n - (ofNat k).length) '0' := fun h ↦ by
    cases List.eq_of_mem_replicate h
  exact fun h ↦ (List.mem_append.1 h).elim hzero (notMem_ofNat rfl k)

theorem star_notMem_getD {names : List Text} (h : ∀ w ∈ names, '*' ∉ w) (k : Nat) :
    '*' ∉ names.getD k [] := by
  rw [List.getD_eq_getElem?_getD]
  cases hk : names[k]? with
  | none => decide
  | some w => exact h w (List.mem_of_getElem? hk)

theorem star_notMem_yearText (y : Int) : '*' ∉ yearText y := by
  have hdigits := star_notMem_digits 4 y.natAbs
  unfold yearText
  split
  · exact fun h ↦ (List.mem_cons.1 h).elim (by decide) hdigits
  · split
    · exact fun h ↦ (List.mem_cons.1 h).elim (by decide) hdigits
    · exact hdigits

/-- No part of a format brings a star, unless it is a text with one. -/
theorem star_notMem_itemText (s : Stamp) {item : FormatItem}
    (h : ∀ t, item = .literal t → '*' ∉ t.toList) : '*' ∉ s.itemText item := by
  cases item with
  | literal t => exact h t rfl
  | weekday => exact star_notMem_getD (by decide) _
  | month => exact star_notMem_getD (by decide) _
  | year => exact star_notMem_yearText _
  | day | hour | minute | second => exact star_notMem_digits 2 _

theorem star_notMem_render (s : Stamp) : '*' ∉ s.render headerFormat := by
  intro hstar
  obtain ⟨item, hitem, hmem⟩ := List.mem_flatMap.1 hstar
  refine s.star_notMem_itemText (fun t ht ↦ ?_) hmem
  subst ht
  simp only [headerFormat, List.mem_cons, FormatItem.literal.injEq, reduceCtorEq, false_or,
    List.not_mem_nil, or_false] at hitem
  rcases hitem with rfl | rfl | rfl | rfl | rfl | rfl <;> decide

end Stamp

/-- The text of an instant has no sign, whatever the library is that writes it. -/
theorem TimeLibrary.IsLawful.closings_timestamp {lib : TimeLibrary} (h : lib.IsLawful)
    {t : lib.DateTime} {stamp : Text} (ht : lib.timestamp t = .ok stamp) : closings stamp = 0 := by
  rw [h.timestamp_eq] at ht
  obtain rfl := Except.ok.inj ht
  refine closings_eq_zero_of_notMem fun hstar ↦ ?_
  rcases List.mem_append.1 hstar with hstar | hstar
  · exact Stamp.star_notMem_render _ hstar
  · exact absurd hstar (by decide)

/-! ### Where remarks come from -/

namespace Reader

variable {src : Source} {t : Tables} {rd rd' : Reader} {lines : List Text} {r : Routine}

/-- Whether a statement was made from a line that is a remark, and has its text and number. -/
def FromRemark (lines : List Text) (s : Statement) : Prop :=
  ∃ k line text, lines[k]? = some line ∧ InnerLine.ofText line = .remark text ∧
    s.line = lineNumber (k + 1) ∧ s.text = remarkText text

theorem FromRemark.concat {s : Statement} (h : FromRemark lines s) (line : Text) :
    FromRemark (lines ++ [line]) s := by
  obtain ⟨k, l, text, hl, hfacts⟩ := h
  exact ⟨k, l, text, by rw [List.getElem?_append_left (List.getElem?_eq_some_iff.1 hl).1, hl],
    hfacts⟩

theorem FromRemark.of_lifts {s s' : Statement} (h : FromRemark lines s) (hs : s.Lifts s') :
    FromRemark lines s' := by
  obtain ⟨l, rfl⟩ := hs
  exact h

/-- **The remarks among the statements are those of the description.** -/
theorem fromRemark_of_run (ht : ∀ r, (t.body r).statements = [])
    (h : ({ tables := t } : Reader).run src 1 lines = .ok rd) (r : Routine) :
    ∀ s ∈ (rd.tables.body r).statements, s.action = .remark → FromRemark lines s := by
  induction lines using List.reverseRecOn generalizing rd with
  | nil =>
    obtain rfl := Except.ok.inj h
    intro s hs
    rw [ht r] at hs
    cases hs
  | append_singleton lines line ih =>
    obtain ⟨rd₁, hrun, hstep⟩ := exists_of_run_concat h
    have hkeep : ∀ s ∈ (rd₁.tables.body r).statements, s.action = .remark →
        FromRemark (lines ++ [line]) s := fun s hs hremark ↦ (ih hrun s hs hremark).concat line
    -- a line that adds one statement to one routine adds a remark only if it is one
    have hadd : ∀ {r' : Routine} {b : Body} {s' : Statement},
        b.statements = (rd₁.tables.body r').statements ++ [s'] →
        (s'.action = .remark → FromRemark (lines ++ [line]) s') →
        ∀ s ∈ ((rd₁.settled r' b).tables.body r).statements, s.action = .remark →
          FromRemark (lines ++ [line]) s := by
      intro r' b s' hb hs' s hs hremark
      by_cases hr : r = r'
      · subst hr
        rw [settled, Tables.body_setBody_self, hb] at hs
        rcases List.mem_append.1 hs with hs | hs
        · exact hkeep s hs hremark
        · obtain rfl := List.mem_singleton.1 hs
          exact hs' hremark
      · rw [settled, Tables.body_setBody_ne _ hr] at hs
        exact hkeep s hs hremark
    rcases statementStep_of_step hstep with ⟨r', hread⟩ | ⟨-, hstatements⟩
    · cases hread with
      | blank | opened => exact hkeep
      | remark _ kind =>
        refine hadd rfl fun _ ↦ ⟨lines.length, line, _, by simp, kind, ?_, rfl⟩
        rw [Nat.add_comm]
      | evaluated => exact hadd (Body.record_statements _ _) fun hremark ↦ by cases hremark
      | assigned => exact hadd (Body.record_statements _ _) fun hremark ↦ by cases hremark
    · rw [hstatements r]
      exact hkeep

variable {n : Nat} {line : Text}

/-- The comments after a line are those before it and the line, if it is one. -/
theorem mem_comments_of_step (h : rd.step src n line = .ok rd') :
    ∀ c ∈ rd'.comments, c ∈ rd.comments ∨ OuterLine.ofText line = .comment c := by
  intro c hc
  rw [comments_of_step h] at hc
  unfold commentsAfter at hc
  split at hc
  · next text _ hline =>
    split at hc
    · rw [List.mem_append, List.mem_singleton] at hc
      exact hc.imp_right fun hc : c = text ↦ by rw [hline, hc]
    · exact .inl hc
  · exact .inl hc

/-- Every comment that is kept is that of a line. -/
theorem exists_line_of_comment (h : ({ tables := t } : Reader).run src 1 lines = .ok rd) :
    ∀ c ∈ rd.comments, ∃ line ∈ lines, OuterLine.ofText line = .comment c := by
  induction lines using List.reverseRecOn generalizing rd with
  | nil =>
    obtain rfl := Except.ok.inj h
    nofun
  | append_singleton lines line ih =>
    obtain ⟨rd₁, hrun, hstep⟩ := exists_of_run_concat h
    intro c hc
    rcases mem_comments_of_step hstep c hc with hc | hline
    · obtain ⟨l, hl, hcomment⟩ := ih hrun c hc
      exact ⟨l, List.mem_append_left _ hl, hcomment⟩
    · exact ⟨line, by simp, hline⟩

theorem mem_of_mem_trimComments {cs : List Text} {c : Text} (h : c ∈ trimComments cs) : c ∈ cs :=
  List.mem_reverse.1 ((List.dropWhile_suffix _).subset (List.mem_reverse.1 h))

end Reader

/-! ### Which comments are closed at their end alone -/

/-- The statement of a remark is closed once if and only if its text has no sign. -/
theorem closesOnce_remarkText_iff (t : Text) :
    ClosesOnce (remarkText t) ↔ ¬ Marker.closeSign <:+: t := by
  have hend : ∃ a b, remarkText t = a ++ Marker.closeSign ++ b ∧ isBlankText b = true :=
    ⟨"/* ".toList ++ t ++ [' '], [], by simp [remarkText, Marker.closeSign], rfl⟩
  rw [ClosesOnce, closings_remarkText, ← closings_eq_zero_iff, and_iff_left hend]
  omega

/-- A header is closed once if and only if no text that is copied into it has a sign. -/
theorem closesOnce_renderHeader_iff {name : Name} {cs : List Text} {p : Provenance}
    (hname : ¬ Marker.closeSign <:+: name) (hmetric : ¬ Marker.closeSign <:+: p.metricPath)
    (htemplate : ¬ Marker.closeSign <:+: p.templatePath)
    (hstamp : ∃ (lib : TimeLibrary) (t : lib.DateTime),
      lib.IsLawful ∧ lib.timestamp t = .ok p.stamp) :
    ClosesOnce (renderHeader name cs p) ↔
      ¬ Marker.closeSign <:+: p.tool ∧ ∀ c ∈ cs, ¬ Marker.closeSign <:+: c := by
  obtain ⟨lib, t, hlib, hstamp⟩ := hstamp
  obtain ⟨a, ha⟩ := exists_renderHeader_eq name cs p
  have hend : ∃ a b, renderHeader name cs p = a ++ Marker.closeSign ++ b ∧ isBlankText b = true :=
    ⟨a, _, ha, rfl⟩
  have hsum : (cs.map closings).sum = 0 ↔ ∀ c ∈ cs, ¬ Marker.closeSign <:+: c := by
    simp only [List.sum_eq_zero_iff_forall_eq_nat, List.forall_mem_map, closings_eq_zero_iff]
  rw [ClosesOnce, and_iff_left hend, closings_renderHeader, hlib.closings_timestamp hstamp,
    closings_eq_zero_iff.2 hname, closings_eq_zero_iff.2 hmetric, closings_eq_zero_iff.2 htemplate,
    ← hsum, ← closings_eq_zero_iff]
  omega

namespace Metric

variable {src : Source} {p : Propagation} {text : Text} {m : Metric}

/-- **When generated comments are closed at their end alone.** The name of the metric and the paths
are to have no sign `*/`, and the time is to come from a library that does what its documentation
says. Then the header has it once, at its end, if and only if neither the name
of the tool nor a comment at the top of the description has it. Each comment comes from a line of
the description, and so does the statement of each remark. Such a statement has the sign once, at
its end, if and only if the text of the remark does not have it. -/
theorem closesOnce_iff (h : compile src p text = .ok m) (prov : Provenance)
    (hname : ¬ Marker.closeSign <:+: src.metric)
    (hmetric : ¬ Marker.closeSign <:+: prov.metricPath)
    (htemplate : ¬ Marker.closeSign <:+: prov.templatePath)
    (hstamp : ∃ (lib : TimeLibrary) (t : lib.DateTime),
      lib.IsLawful ∧ lib.timestamp t = .ok prov.stamp) :
    (ClosesOnce (m.header prov) ↔
      ¬ Marker.closeSign <:+: prov.tool ∧ ∀ c ∈ m.comments, ¬ Marker.closeSign <:+: c) ∧
    (∀ c ∈ m.comments, ∃ line ∈ lines text, OuterLine.ofText line = .comment c) ∧
    ∀ r, ∀ s ∈ (m.body r).statements, s.action = .remark →
      ∃ k line remark, (lines text)[k]? = some line ∧ InnerLine.ofText line = .remark remark ∧
        s.line = lineNumber (k + 1) ∧ s.text = remarkText remark ∧
        (ClosesOnce s.text ↔ ¬ Marker.closeSign <:+: remark) := by
  obtain ⟨comments, t, hread, rfl⟩ := readDescription_of_compile h
  obtain ⟨rd, hrun, -, hcomments, rfl⟩ := Tables.readLines_eq_ok_iff.1 hread
  refine ⟨closesOnce_renderHeader_iff hname hmetric htemplate hstamp, fun c hc ↦ ?_,
    fun r s hs hremark ↦ ?_⟩
  · have hkept : c ∈ Reader.trimComments rd.comments := hcomments ▸ hc
    exact Reader.exists_line_of_comment hrun c (Reader.mem_of_mem_trimComments hkept)
  · rw [body_ofTables_statements] at hs
    obtain ⟨s', hs', hlifts⟩ := exists_of_mem_forall₂ (p.lifts_apply _) hs
    have hfrom := Reader.fromRemark_of_run Tables.withBuiltins_statements hrun r s' hs'
      (hlifts.action_eq ▸ hremark)
    obtain ⟨k, line, remark, hk, hkind, hnumber, htext⟩ := hfrom.of_lifts hlifts
    refine ⟨k, line, remark, hk, hkind, hnumber, htext, ?_⟩
    rw [htext, closesOnce_remarkText_iff]

/-- A description with remarks on paths, which have the sign `*/` in them. -/
def pathText : Text :=
  unlines <| List.map String.toList [
    "# after models/*/okapi.metric",
    "decode() \x7b",
    "    accumulator += f_dt;",
    "    # the weight of a term",
    "    # see models/*/cosine.metric",
    "\x7d"]

/-- The file of `pathText`. -/
def pathSource : Source :=
  ⟨"path.metric".toList, "path".toList⟩

/-- What the generated text of `pathText` is made from. -/
def pathProvenance : Provenance :=
  ⟨"path.metric".toList, "metric.c".toList, "metricc".toList,
    "Thu, 01 Jan 1970 00:00:00 GMT".toList⟩

theorem timestamp_pathProvenance :
    TimeLibrary.civil.timestamp (ClockTime.ofInstant 0 0) = .ok pathProvenance.stamp := by
  decide +kernel

theorem reading_of_pathText : ∃ m ∈ (compile pathSource .heuristic pathText).toOption,
    m.name = "path".toList ∧ m.comments = ["after models/*/okapi.metric".toList] ∧
    (∃ s ∈ (m.body .decode).statements, s.action = .remark ∧
      s.text = "/* the weight of a term */".toList) ∧
    ∃ s ∈ (m.body .decode).statements, s.action = .remark ∧
      s.text = "/* see models/*/cosine.metric */".toList := by
  decide +kernel

theorem closesOnce_iff_pathText : ∃ m, compile pathSource .heuristic pathText = .ok m ∧
    ¬ ClosesOnce (m.header pathProvenance) ∧
    ∃ s ∈ (m.body .decode).statements, s.action = .remark ∧ ClosesOnce s.text := by
  obtain ⟨m, hm, -, hcomments, ⟨s, hs, hremark, htext⟩, -⟩ := reading_of_pathText
  have hcompile := toOption_eq_some_iff.1 hm
  obtain ⟨hheader, -, hremarks⟩ := closesOnce_iff hcompile pathProvenance
    (by decide +kernel) (by decide +kernel) (by decide +kernel)
    ⟨_, _, TimeLibrary.isLawful_civil, timestamp_pathProvenance⟩
  refine ⟨m, hcompile, fun h ↦ ?_, s, hs, hremark, ?_⟩
  · refine (hheader.1 h).2 _ ?_ (show Marker.closeSign <:+: "after models/*/okapi.metric".toList by
      decide +kernel)
    rw [hcomments]
    exact List.mem_singleton_self _
  · obtain ⟨k, line, remark, -, -, -, hremarkText, hiff⟩ := hremarks .decode s hs hremark
    refine hiff.2 fun hsign ↦ ?_
    have hcount := closings_remarkText remark
    rw [← hremarkText, htext] at hcount
    have hone : closings "/* the weight of a term */".toList = 1 := by decide
    have hpos := mt closings_eq_zero_iff.1 (not_not.2 hsign)
    omega

/-- **A remark may close the generated comment early**, in the header and among the statements. -/
theorem exists_closed_early : ∃ m, compile pathSource .heuristic pathText = .ok m ∧
    ¬ Marker.closeSign <:+: pathSource.metric ∧
    ¬ Marker.closeSign <:+: pathProvenance.metricPath ∧
    ¬ Marker.closeSign <:+: pathProvenance.templatePath ∧
    closings (m.header pathProvenance) = 2 ∧
    ∃ s ∈ (m.body .decode).statements, s.action = .remark ∧
      s.text = "/* see models/*/cosine.metric */".toList ∧ closings s.text = 2 := by
  obtain ⟨m, hm, hname, hcomments, -, s, hs, hremark, htext⟩ := reading_of_pathText
  refine ⟨m, toOption_eq_some_iff.1 hm, by decide +kernel, by decide +kernel, by decide +kernel, ?_,
    s, hs, hremark, htext, ?_⟩
  · have hstamp : closings pathProvenance.stamp = 0 := by decide
    have hfields : closings pathProvenance.metricPath = 0 ∧
        closings pathProvenance.templatePath = 0 ∧ closings pathProvenance.tool = 0 := by decide
    have hpath : closings "path".toList = 0 := by decide
    have hcomment : closings "after models/*/okapi.metric".toList = 1 := by decide
    rw [header, closings_renderHeader, hname, hcomments, hpath, hstamp, hfields.1, hfields.2.1,
      hfields.2.2, List.map_singleton, List.sum_singleton, hcomment]
  · rw [htext]
    decide

end Metric

end RankMetric
