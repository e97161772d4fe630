import RankMetric.Proofs.TokenTexts

/-!
# Tokens of texts that stand side by side

Where the last character of one text does not join the first of another (`Text.Apart`), the tokens
of both together are those of the one and then those of the other, moved by the length of the first
(`tokenize_append`). A run of one class is one token (`significant_of_isRun`), and so a text that
is put together from runs with blanks between them has just these runs for its tokens
(`tokenTexts_intercalate`). The other way round, a text may be cut behind any of its tokens, and
what is left has the tokens that follow (`tokenTexts_dropBytes`).

Neighbouring runs stand apart, and there is only one way to cut a text into runs that do
(`runs_eq_iff`). So texts that do not stand apart are glued together: the last run of the one and
the first of the other are one run (`exists_runs_glued`), and one token if they are not blank
(`exists_tokenTexts_glued`).
-/

namespace RankMetric

open Text

variable {r s t : Text}

/-! ### Runs -/

/-- A text that is one run of characters of a class. -/
structure IsRun (r : Text) : Prop where
  ne_nil : r ≠ []
  joined : r.IsChain fun c d ↦ TokenClass.joins c d = true

theorem isRun_of_mem_runs (h : r ∈ runs s) : IsRun r where
  ne_nil hnil := List.nil_notMem_splitBy _ _ (hnil ▸ h)
  joined := List.isChain_of_mem_splitBy h

theorem isRun_of_mem_tokenize {x : Token} (h : x ∈ tokenize s) : IsRun x.text := by
  refine isRun_of_mem_runs (s := s) ?_
  rw [← tokenize_texts]
  exact List.mem_map_of_mem h

theorem isRun_of_mem_tokenTexts (h : r ∈ tokenTexts s) : IsRun r := by
  rw [tokenTexts_eq_filter] at h
  exact isRun_of_mem_runs (List.mem_of_mem_filter h)

theorem ofRun_ne_space_of_mem_tokenTexts (h : r ∈ tokenTexts s) : TokenClass.ofRun r ≠ .space := by
  rw [tokenTexts_eq_filter] at h
  exact bne_iff_ne.1 (List.mem_filter.1 h).2

theorem ofChar_eq_of_joins {c d : Char} (h : TokenClass.joins c d = true) :
    TokenClass.ofChar c = TokenClass.ofChar d :=
  beq_iff_eq.1 (Bool.and_eq_true_iff.1 h).1

/-- All characters of a run have its class. -/
theorem IsRun.ofChar_eq (h : IsRun r) {c : Char} (hc : c ∈ r) :
    TokenClass.ofChar c = .ofRun r := by
  obtain ⟨hne, hchain⟩ := h
  obtain ⟨d, r, rfl⟩ := List.exists_cons_of_ne_nil hne
  clear hne
  induction r generalizing d with
  | nil =>
    obtain rfl := List.mem_singleton.1 hc
    rfl
  | cons e r ih =>
    obtain ⟨hjoin, hrest⟩ := List.isChain_cons_cons.1 hchain
    rcases List.mem_cons.1 hc with rfl | hc
    · rfl
    · exact (ih e hc hrest).trans (ofChar_eq_of_joins hjoin).symm

theorem runs_of_isRun (h : IsRun r) : runs r = [r] :=
  List.splitBy_of_isChain h.ne_nil h.joined

namespace Text

/-- A text that is not empty and all of whose characters are of a class. -/
structure OfClass (cls : TokenClass) (s : Text) : Prop where
  ne_nil : s ≠ []
  ofChar_eq : ∀ c ∈ s, TokenClass.ofChar c = cls

variable {cls cls' : TokenClass}

instance (cls : TokenClass) (s : Text) : Decidable (OfClass cls s) :=
  decidable_of_iff ((!s.isEmpty && s.all fun c ↦ TokenClass.ofChar c == cls) = true) <| by
    rw [Bool.and_eq_true, Bool.not_eq_true', List.isEmpty_eq_false_iff, List.all_eq_true]
    simp only [beq_iff_eq]
    exact ⟨fun ⟨hne, hall⟩ ↦ ⟨hne, hall⟩, fun h ↦ ⟨h.ne_nil, h.ofChar_eq⟩⟩

/-- A text has one class at most. -/
theorem OfClass.unique (h : OfClass cls s) (h' : OfClass cls' s) : cls = cls' := by
  obtain ⟨c, s, rfl⟩ := List.exists_cons_of_ne_nil h.ne_nil
  exact (h.ofChar_eq c List.mem_cons_self).symm.trans (h'.ofChar_eq c List.mem_cons_self)

/-- Characters of one class are a run, unless they are terminators. -/
theorem OfClass.isRun (h : OfClass cls s) (hcls : cls ≠ .terminator) : IsRun s where
  ne_nil := h.ne_nil
  joined := by
    refine List.Pairwise.isChain (List.pairwise_of_forall_mem_list fun c hc d hd ↦ ?_)
    rw [TokenClass.joins, h.ofChar_eq c hc, h.ofChar_eq d hd, beq_self_eq_true, Bool.true_and]
    exact bne_iff_ne.2 hcls

end Text

theorem IsRun.ofClass (h : IsRun r) : OfClass (TokenClass.ofRun r) r :=
  ⟨h.ne_nil, fun _ ↦ h.ofChar_eq⟩

/-! ### Texts side by side -/

/-- The last character of the one text does not join the first of the other. -/
def Text.Apart (s t : Text) : Prop :=
  ∀ c ∈ s.getLast?, ∀ d ∈ t.head?, TokenClass.joins c d = false

theorem apart_nil_left (t : Text) : Text.Apart [] t :=
  fun c hc ↦ by cases hc

theorem apart_nil_right (s : Text) : s.Apart [] :=
  fun c _ d hd ↦ by cases hd

theorem apart_of_ofChar_ne
    (h : ∀ c ∈ s.getLast?, ∀ d ∈ t.head?, TokenClass.ofChar c ≠ TokenClass.ofChar d) :
    s.Apart t :=
  fun c hc d hd ↦ Bool.eq_false_iff.2 fun hj ↦ h c hc d hd (ofChar_eq_of_joins hj)

/-- A terminator joins nothing. -/
theorem apart_terminator (s t : Text) : s.Apart (';' :: t) := by
  intro c _ d hd
  obtain rfl := Option.some.inj hd
  cases hj : TokenClass.joins c ';' with
  | false => rfl
  | true =>
    have hclass : TokenClass.ofChar c = .terminator := ofChar_eq_of_joins hj
    rw [TokenClass.joins, hclass] at hj
    cases hj

theorem Text.Apart.append_left (h : s.Apart t) (hs : s ≠ []) (r : Text) : (r ++ s).Apart t := by
  rw [Text.Apart, List.getLast?_append_of_ne_nil r hs]
  exact h

theorem Text.Apart.append_right (h : s.Apart t) (ht : t ≠ []) (r : Text) : s.Apart (t ++ r) := by
  rw [Text.Apart, List.head?_append_of_ne_nil t ht]
  exact h

/-- **There is one way only** to cut a text into runs of which neighbours stand apart. -/
theorem runs_eq_iff {rs : List Text} :
    runs s = rs ↔ rs.flatten = s ∧ (∀ r ∈ rs, IsRun r) ∧ rs.IsChain Text.Apart := by
  have hapart : ∀ {r q : Text}, r ≠ [] → q ≠ [] →
      ((∃ hr hq, TokenClass.joins (r.getLast hr) (q.head hq) = false) ↔ r.Apart q) := by
    intro r q hr hq
    rw [Text.Apart, List.getLast?_eq_some_getLast hr, List.head?_eq_some_head hq]
    simp [hr, hq]
  constructor
  · intro h
    obtain ⟨hflat, hnil, hchain, hborders⟩ := List.splitBy_eq_iff.1 h
    have hne : ∀ r ∈ rs, r ≠ [] := fun r hr hr' ↦ hnil (hr' ▸ hr)
    exact ⟨hflat.symm, fun r hr ↦ ⟨hne r hr, hchain r hr⟩, hborders.imp_of_mem_imp
      fun r q hr hq ↦ (hapart (hne r hr) (hne q hq)).1⟩
  · rintro ⟨hflat, hrun, hborders⟩
    exact List.splitBy_eq_iff.2 ⟨hflat.symm, fun hnil ↦ (hrun _ hnil).ne_nil rfl,
      fun r hr ↦ (hrun r hr).joined, hborders.imp_of_mem_imp
      fun r q hr hq ↦ (hapart (hrun r hr).ne_nil (hrun q hq).ne_nil).2⟩

theorem runs_append (h : s.Apart t) : runs (s ++ t) = runs s ++ runs t :=
  List.splitBy_append h

/-- **Neighbouring tokens do not join.** -/
theorem apart_of_runs_eq_append {ps qs : List Text} (h : runs s = ps ++ qs) :
    Text.Apart ps.flatten qs.flatten := by
  obtain ⟨-, hrun, hborders⟩ := runs_eq_iff.1 h
  rcases List.eq_nil_or_concat ps with rfl | ⟨ps, r, rfl⟩
  · exact apart_nil_left _
  cases qs with
  | nil => exact apart_nil_right _
  | cons q qs =>
    have hborder : r.Apart q := (List.isChain_append.1 hborders).2.2 r (by simp) q (by simp)
    have hr : r ≠ [] := (hrun r (by simp)).ne_nil
    have hq : q ≠ [] := (hrun q (by simp)).ne_nil
    simpa using (hborder.append_left hr ps.flatten).append_right hq qs.flatten

theorem runs_append_iff : runs (s ++ t) = runs s ++ runs t ↔ s.Apart t := by
  refine ⟨fun h ↦ ?_, runs_append⟩
  have hborder := apart_of_runs_eq_append h
  rwa [flatten_runs, flatten_runs] at hborder

/-- A token that stands `n` bytes further on. -/
def Token.shift (n : Nat) (x : Token) : Token :=
  { x with offset := n + x.offset }

@[simp] theorem Token.shift_text (n : Nat) (x : Token) : (x.shift n).text = x.text := rfl

@[simp] theorem Token.shift_isSpace (n : Nat) (x : Token) : (x.shift n).isSpace = x.isSpace := rfl

@[simp] theorem Token.shift_isTerminator (n : Nat) (x : Token) :
    (x.shift n).isTerminator = x.isTerminator := rfl

theorem place_shift (n offset : Nat) (rs : List Text) :
    place (n + offset) rs = (place offset rs).map (Token.shift n) := by
  induction rs generalizing offset with
  | nil => rfl
  | cons r rs ih =>
    rw [place, place, List.map_cons, Nat.add_assoc, ih]
    rfl

theorem place_append (offset : Nat) (rs qs : List Text) :
    place offset (rs ++ qs) = place offset rs ++ place (offset + byteLength rs.flatten) qs := by
  induction rs generalizing offset with
  | nil => rfl
  | cons r rs ih =>
    rw [List.cons_append, place, place, ih, List.flatten_cons, byteLength_append, Nat.add_assoc]
    rfl

/-- **The tokens of texts that stand apart** are those of the first and then those of the second,
moved by the length of the first. -/
theorem tokenize_append (h : s.Apart t) :
    tokenize (s ++ t) = tokenize s ++ (tokenize t).map (Token.shift (byteLength s)) := by
  rw [tokenize, runs_append h, place_append, flatten_runs, Nat.zero_add,
    ← Nat.add_zero (byteLength s), place_shift]
  rfl

theorem significant_append (h : s.Apart t) :
    significant (s ++ t) = significant s ++ (significant t).map (Token.shift (byteLength s)) := by
  rw [significant, tokenize_append h, List.filter_append, List.filter_map]
  rfl

theorem tokenTexts_append (h : s.Apart t) :
    tokenTexts (s ++ t) = tokenTexts s ++ tokenTexts t := by
  rw [tokenTexts, significant_append h, List.map_append, List.map_map]
  rfl

/-- **A run that is not blank is one token.** -/
theorem significant_of_isRun (h : IsRun r) (hspace : TokenClass.ofRun r ≠ .space) :
    significant r = [⟨r, 0, .ofRun r⟩] := by
  rw [significant, tokenize, runs_of_isRun h]
  exact List.filter_cons_of_pos (by simpa [Token.isSpace] using hspace)

theorem tokenTexts_of_isRun (h : IsRun r) (hspace : TokenClass.ofRun r ≠ .space) :
    tokenTexts r = [r] := by
  rw [tokenTexts, significant_of_isRun h hspace]
  rfl

/-- **Runs with blanks between them** are the tokens of the text that they make up. -/
theorem tokenTexts_intercalate {rs : List Text}
    (h : ∀ r ∈ rs, IsRun r ∧ TokenClass.ofRun r ≠ .space) :
    tokenTexts (List.intercalate [' '] rs) = rs := by
  induction rs with
  | nil => rfl
  | cons r rs ih =>
    obtain ⟨⟨hrun, hspace⟩, hrs⟩ := List.forall_mem_cons.1 h
    have hfirst := tokenTexts_of_isRun hrun hspace
    cases rs with
    | nil => simpa [List.intercalate] using hfirst
    | cons q rs =>
      have hblank : isBlank ' ' = true := rfl
      have hcut : List.intercalate [' '] (r :: q :: rs) =
          r ++ ' ' :: List.intercalate [' '] (q :: rs) := by
        simp [List.intercalate]
      rw [hcut, tokenTexts_append_blank _ _ hblank, hfirst, ih hrs]
      rfl

/-! ### Texts that are glued together -/

/-- Runs that do not stand apart are one run. -/
theorem IsRun.append (hr : IsRun r) (hs : IsRun s) (h : ¬ r.Apart s) : IsRun (r ++ s) where
  ne_nil := by simp [hr.ne_nil]
  joined := by
    simp only [Text.Apart, not_forall, Bool.not_eq_false] at h
    obtain ⟨c, hc, d, hd, hjoin⟩ := h
    refine List.isChain_append.2 ⟨hr.joined, hs.joined, fun c' hc' d' hd' ↦ ?_⟩
    rwa [Option.mem_unique hc' hc, Option.mem_unique hd' hd]

/-- **Texts that do not stand apart are glued together**: the last run of the one and the first of
the other become one run, and all others stay. -/
theorem exists_runs_glued (h : ¬ s.Apart t) :
    ∃ init last first rest, runs s = init ++ [last] ∧ runs t = first :: rest ∧
      runs (s ++ t) = init ++ (last ++ first) :: rest := by
  have hsne : s ≠ [] := by
    rintro rfl
    exact h (apart_nil_left t)
  have htne : t ≠ [] := by
    rintro rfl
    exact h (apart_nil_right s)
  obtain ⟨init, last, hs⟩ :=
    (List.eq_nil_or_concat (runs s)).resolve_left (List.splitBy_ne_nil.2 hsne)
  obtain ⟨first, rest, ht⟩ := List.exists_cons_of_ne_nil (l := runs t) (List.splitBy_ne_nil.2 htne)
  rw [List.concat_eq_append] at hs
  obtain ⟨hflat, hrun, hborders⟩ := runs_eq_iff.1 hs
  obtain ⟨hflat', hrun', hborders'⟩ := runs_eq_iff.1 ht
  have hlast : IsRun last := hrun last (by simp)
  have hfirst : IsRun first := hrun' first (by simp)
  have hnot : ¬ last.Apart first := fun hapart ↦ h <| by
    rw [← hflat, ← hflat', List.flatten_append, List.flatten_singleton, List.flatten_cons]
    exact (hapart.append_left hlast.ne_nil _).append_right hfirst.ne_nil _
  refine ⟨init, last, first, rest, hs, ht, runs_eq_iff.2 ⟨?_, ?_, ?_⟩⟩
  · rw [← hflat, ← hflat']
    simp
  · intro r hr
    rcases List.mem_append.1 hr with hr | hr
    · exact hrun r (List.mem_append_left _ hr)
    · rcases List.mem_cons.1 hr with rfl | hr
      · exact hlast.append hfirst hnot
      · exact hrun' r (List.mem_cons_of_mem _ hr)
  · -- the neighbours of the two runs are neighbours of the one
    obtain ⟨hinit, -, hbefore⟩ := List.isChain_append.1 hborders
    obtain ⟨hafter, hrest⟩ := List.isChain_cons.1 hborders'
    refine List.isChain_append.2 ⟨hinit, List.isChain_cons.2 ⟨fun q hq ↦ ?_, hrest⟩, ?_⟩
    · exact (hafter q hq).append_left hfirst.ne_nil last
    · intro r hr q hq
      obtain rfl := Option.some.inj hq
      exact (hbefore r hr last rfl).append_right hlast.ne_nil first

/-- **Characters of one class glue tokens together**: if the last character of a text joins the
first of another, the last token of the one and the first of the other become one token. -/
theorem exists_tokenTexts_glued {c d : Char} (hc : isBlank c = false)
    (hj : TokenClass.joins c d = true) (s t : Text) :
    ∃ init last r rs, tokenTexts (s ++ [c]) = init ++ [last] ∧
      tokenTexts (d :: t) = (d :: r) :: rs ∧
      tokenTexts (s ++ c :: d :: t) = init ++ (last ++ d :: r) :: rs := by
  have hnot : ¬ Text.Apart (s ++ [c]) (d :: t) := fun h ↦ by
    rw [h c (by simp) d rfl] at hj
    cases hj
  obtain ⟨init, last, first, rest, hs, ht, hglued⟩ := exists_runs_glued hnot
  rw [List.append_assoc, List.singleton_append] at hglued
  obtain ⟨r, rs, hr⟩ := exists_runs_cons d t
  obtain ⟨rfl, rfl⟩ := List.cons.inj (ht.symm.trans hr)
  have hlast : IsRun last := isRun_of_mem_runs (s := s ++ [c]) (by simp [hs])
  have hclast : c ∈ last := by
    have hflat := congrArg List.getLast? (flatten_runs (s ++ [c]))
    rw [hs, List.flatten_append, List.flatten_singleton,
      List.getLast?_append_of_ne_nil _ hlast.ne_nil, List.getLast?_concat] at hflat
    exact List.mem_of_mem_getLast? hflat
  have hd : TokenClass.ofChar d = TokenClass.ofChar c := (ofChar_eq_of_joins hj).symm
  -- each of the three runs has a character that is not blank
  have hkeep : ∀ {q e} qs, IsRun q → e ∈ q → TokenClass.ofChar e = TokenClass.ofChar c →
      (q :: qs).filter (fun r ↦ TokenClass.ofRun r != .space) =
        q :: qs.filter fun r ↦ TokenClass.ofRun r != .space := by
    intro q e qs hq he hec
    refine List.filter_cons_of_pos ?_
    rw [← hq.ofChar_eq he, hec, bne_iff_ne, ne_eq, ofChar_eq_space_iff, hc]
    decide
  refine ⟨init.filter fun r ↦ TokenClass.ofRun r != .space, last, r,
    rest.filter fun r ↦ TokenClass.ofRun r != .space, ?_, ?_, ?_⟩
  · rw [tokenTexts_eq_filter, hs, List.filter_append, hkeep [] hlast hclast rfl, List.filter_nil]
  · have hfirst : IsRun (d :: r) := isRun_of_mem_runs (s := d :: t) (by simp [ht])
    rw [tokenTexts_eq_filter, ht, hkeep rest hfirst List.mem_cons_self hd]
  · have hwhole : IsRun (last ++ d :: r) :=
      isRun_of_mem_runs (s := s ++ c :: d :: t) (by simp [hglued])
    rw [tokenTexts_eq_filter, hglued, List.filter_append,
      hkeep rest hwhole (List.mem_append_left _ hclast) rfl]

/-! ### What follows a token -/

/-- Runs at the end of a text are the runs of what they make up. -/
theorem runs_flatten_of_append {rs qs : List Text} (h : runs s = rs ++ qs) :
    runs qs.flatten = qs := by
  obtain ⟨-, hnil, hchain, hlast⟩ := List.splitBy_eq_iff.1 h
  exact List.splitBy_eq_iff.2 ⟨rfl, fun hq ↦ hnil (List.mem_append_right _ hq),
    fun q hq ↦ hchain q (List.mem_append_right _ hq), hlast.right_of_append⟩

/-- Where a token stands among runs that were given places: behind the runs before it. -/
theorem exists_of_place_eq_append {n : Nat} {rs : List Text} {xs ys : List Token} {x : Token}
    (h : place n rs = xs ++ x :: ys) : ∃ ps qs, rs = ps ++ x.text :: qs ∧
      x.offset = n + byteLength ps.flatten ∧ ys = place x.stop qs := by
  induction xs generalizing n rs with
  | nil =>
    cases rs with
    | nil => cases h
    | cons r rs =>
      obtain ⟨rfl, rfl⟩ := List.cons.inj h
      exact ⟨[], rs, rfl, rfl, rfl⟩
  | cons y xs ih =>
    cases rs with
    | nil => cases h
    | cons r rs =>
      obtain ⟨rfl, hrest⟩ := List.cons.inj h
      obtain ⟨ps, qs, rfl, hoffset, hys⟩ := ih hrest
      refine ⟨r :: ps, qs, rfl, ?_, hys⟩
      rw [hoffset, List.flatten_cons, byteLength_append, Nat.add_assoc]

/-- **The text behind a token** has the tokens that follow it. -/
theorem tokenTexts_dropBytes {xs ys : List Token} {x : Token}
    (h : significant s = xs ++ x :: ys) :
    tokenTexts (dropBytes x.stop s) = ys.map Token.text := by
  obtain ⟨as, bs, hplace, -, hbs⟩ := List.filter_eq_append_iff.1 h
  obtain ⟨cs, ds, rfl, -, -, rfl⟩ := List.filter_eq_cons_iff.1 hbs
  rw [← List.append_assoc] at hplace
  obtain ⟨ps, qs, hruns, hoffset, rfl⟩ := exists_of_place_eq_append hplace
  have hs : s = (ps.flatten ++ x.text) ++ qs.flatten := by
    rw [← flatten_runs s, hruns]
    simp
  have hstop : x.stop = byteLength (ps.flatten ++ x.text) := by
    rw [Token.stop, hoffset, Nat.zero_add, byteLength_append]
  have hruns' : runs s = (ps ++ [x.text]) ++ qs := hruns.trans (by simp)
  have hqs : runs qs.flatten = qs := runs_flatten_of_append hruns'
  rw [map_text_filter_place, hstop, congrArg (dropBytes _) hs, dropBytes_append,
    tokenTexts_eq_filter, hqs]

end RankMetric
