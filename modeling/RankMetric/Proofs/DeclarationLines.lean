import RankMetric.Declaration
import RankMetric.Proofs.TokenTexts

/-!
# What a declaration line is taken to be

Three cuts make up `DeclarationLine.read`: the comment is cut off, then the type words, then the
name. Each is described here by what it does and not by how it is found.

* `Text.breakOn_eq_none_iff`, `Text.length_le_of_breakOn`: a text is cut where a pattern stands
  first, and it is not cut if the pattern stands nowhere.
* `DeclarationLine.splitComment_eq_none_iff`: a comment is left open if the first block comment of
  the code (`DeclarationLine.uncommented`) begins past the first column and has no end
  (`DeclarationLine.OpensComment`). Later block comments are not looked at.
* `TypeRun`: the type words at the front of some tokens, tags included. Every list of tokens begins
  with one such run and no other (`exists_typeRun`, `TypeRun.unique`).
* `DeclarationLine.read_cases`: a line leaves a comment open, or it has no name, or it is taken
  apart. `DeclarationLine.read_eq_ok_iff` says into what.
-/

namespace RankMetric

open Text

/-! ### Searching a text -/

namespace Text

variable {p s a b : Text}

/-- A pattern that does not stand in a text cuts nothing. -/
theorem breakOn_eq_none_iff : breakOn p s = none ↔ ¬ p <:+: s := by
  induction s with
  | nil =>
    rw [breakOn]
    cases p <;> simp
  | cons c s ih =>
    rw [breakOn, List.infix_cons_iff, ← List.isPrefixOf_iff_prefix]
    split
    · next hp => simp [hp]
    · next hp => simp [hp, ih]

/-- **A text is cut at the first place** where the pattern stands. -/
theorem length_le_of_breakOn (h : breakOn p s = some (a, b)) {a' b' : Text}
    (hs : s = a' ++ p ++ b') : a.length ≤ a'.length := by
  induction s generalizing a a' with
  | nil =>
    rw [breakOn] at h
    split at h
    · obtain ⟨rfl, rfl⟩ := Prod.mk.inj (Option.some.inj h)
      exact Nat.zero_le _
    · cases h
  | cons c s ih =>
    rw [breakOn] at h
    split at h
    · obtain ⟨rfl, rfl⟩ := Prod.mk.inj (Option.some.inj h)
      exact Nat.zero_le _
    · next hp =>
      obtain ⟨⟨a₁, b₁⟩, hcut, heq⟩ := Option.map_eq_some_iff.1 h
      obtain ⟨rfl, rfl⟩ := Prod.mk.inj heq
      cases a' with
      | nil =>
        rw [List.isPrefixOf_iff_prefix] at hp
        exact absurd ⟨b', hs.symm⟩ hp
      | cons d a' => exact Nat.succ_le_succ (ih hcut (List.cons.inj hs).2)

/-- A text with a pattern is cut at it. -/
theorem exists_breakOn (h : p <:+: s) : ∃ a b, breakOn p s = some (a, b) := by
  cases hcut : breakOn p s with
  | none => exact absurd h (breakOn_eq_none_iff.1 hcut)
  | some ab => exact ⟨ab.1, ab.2, rfl⟩

/-- Cutting at one character. -/
theorem breakOn_singleton_of_mem {c : Char} (h : c ∈ s) :
    ∃ b, breakOn [c] s = some (s.takeWhile (· ≠ c), b) := by
  induction s with
  | nil => cases h
  | cons d s ih =>
    rw [breakOn]
    by_cases hd : d = c
    · subst hd
      exact ⟨s, by simp [List.isPrefixOf]⟩
    · obtain ⟨b, hb⟩ := ih ((List.mem_cons.1 h).resolve_left (Ne.symm hd))
      refine ⟨b, ?_⟩
      rw [hb]
      simp [List.isPrefixOf, hd, Ne.symm hd]

theorem breakOn_singleton_of_notMem {c : Char} (h : c ∉ s) : breakOn [c] s = none :=
  breakOn_eq_none_iff.2 fun hc ↦ h (hc.subset (List.mem_singleton_self c))

end Text

/-! ### Comments -/

namespace DeclarationLine

/-- A line up to its first `#`, unless that stands in the first column. -/
def uncommented (raw : Text) : Text :=
  if raw.head? = some '#' then raw else raw.takeWhile (· ≠ '#')

theorem uncommented_of_notMem {raw : Text} (h : '#' ∉ raw) : uncommented raw = raw := by
  have hhead : raw.head? ≠ some '#' := fun hh ↦ h (List.mem_of_mem_head? hh)
  rw [uncommented, if_neg hhead]
  clear hhead
  induction raw with
  | nil => rfl
  | cons c s ih =>
    rw [List.mem_cons, not_or] at h
    rw [List.takeWhile_cons_of_pos (by simpa using Ne.symm h.1), ih h.2]

/-- A block comment of the code begins past the first column and does not end. -/
def LeavesCommentOpen (raw : Text) : Prop :=
  ∃ before after, uncommented raw = before ++ ['/', '*'] ++ after ∧ before ≠ [] ∧
    ¬ ['*', '/'] <:+: after

/-- The first block comment of the code begins past the first column and does not end. -/
def OpensComment (raw : Text) : Prop :=
  ∃ before after, uncommented raw = before ++ ['/', '*'] ++ after ∧ before ≠ [] ∧
    ¬ ['*', '/'] <:+: after ∧
    ∀ before' after', uncommented raw = before' ++ ['/', '*'] ++ after' →
      before.length ≤ before'.length

theorem OpensComment.leavesCommentOpen {raw : Text} (h : OpensComment raw) :
    LeavesCommentOpen raw := by
  obtain ⟨before, after, heq, hne, hopen, -⟩ := h
  exact ⟨before, after, heq, hne, hopen⟩

/-- Code without its first block comment, and the comment: `none` if the block comment does not end.
Where there is no block comment past the first column, the comment is `remark`. -/
def cutBlock (code remark : Text) : Option (Text × Text) :=
  match breakOn ['/', '*'] code with
  | some (c :: before, after) =>
    (breakOn ['*', '/'] after).map fun (inside, rest) ↦ (c :: before ++ rest, trim inside)
  | _ => some (code, trim remark)

/-- What follows the `#` is comment at most. -/
theorem exists_splitComment_eq (raw : Text) :
    ∃ remark, splitComment raw = cutBlock (uncommented raw) remark := by
  by_cases hmem : '#' ∈ raw
  · obtain ⟨after, hbreak⟩ := breakOn_singleton_of_mem hmem
    obtain ⟨c, s, rfl⟩ := List.exists_cons_of_ne_nil (List.ne_nil_of_mem hmem)
    by_cases hc : c = '#'
    · subst hc
      refine ⟨[], ?_⟩
      have hcode : uncommented ('#' :: s) = '#' :: s := if_pos rfl
      have htake : ('#' :: s).takeWhile (· ≠ '#') = [] := by simp
      rw [htake] at hbreak
      simp only [splitComment, hbreak, hcode]
      rfl
    · refine ⟨after, ?_⟩
      have hcode : uncommented (c :: s) = c :: s.takeWhile (· ≠ '#') := by simp [uncommented, hc]
      have htake : (c :: s).takeWhile (· ≠ '#') = c :: s.takeWhile (· ≠ '#') := by simp [hc]
      rw [htake] at hbreak
      simp only [splitComment, hbreak, hcode]
      rfl
  · refine ⟨[], ?_⟩
    have hcode : uncommented raw = raw := uncommented_of_notMem hmem
    simp only [splitComment, breakOn_singleton_of_notMem hmem, hcode]
    rfl

theorem cutBlock_eq_none_iff {code remark : Text} : cutBlock code remark = none ↔
    ∃ c before after, breakOn ['/', '*'] code = some (c :: before, after) ∧
      ¬ ['*', '/'] <:+: after := by
  unfold cutBlock
  rcases breakOn ['/', '*'] code with - | ⟨- | ⟨c, before⟩, after⟩
  · simp
  · simp
  · simp [breakOn_eq_none_iff]

/-- **When a comment is left open**: the first block comment of the code begins past the first
column and does not end. -/
theorem splitComment_eq_none_iff {raw : Text} : splitComment raw = none ↔ OpensComment raw := by
  obtain ⟨remark, hsplit⟩ := exists_splitComment_eq raw
  rw [hsplit, cutBlock_eq_none_iff]
  constructor
  · rintro ⟨c, before, after, hbreak, hopen⟩
    exact ⟨c :: before, after, breakOn_eq_some hbreak, by simp, hopen,
      fun _ _ ↦ length_le_of_breakOn hbreak⟩
  · rintro ⟨before, after, heq, hne, hopen, hfirst⟩
    obtain ⟨a, b, hbreak⟩ := exists_breakOn ⟨before, after, heq.symm⟩
    -- the first place is the only one that is first
    have hcut := breakOn_eq_some hbreak
    have hlength : before.length = a.length :=
      Nat.le_antisymm (hfirst _ _ hcut) (length_le_of_breakOn hbreak heq)
    rw [heq, List.append_assoc, List.append_assoc] at hcut
    obtain ⟨rfl, hafter⟩ := List.append_inj hcut hlength
    obtain rfl := List.append_cancel_left hafter
    obtain ⟨c, before, rfl⟩ := List.exists_cons_of_ne_nil hne
    exact ⟨c, before, after, hbreak, hopen⟩

end DeclarationLine

/-! ### Type words -/

/-- The tokens `front` are the type words in front of the tokens `rest`. A word that takes a tag is
followed by it, whatever token that is, unless there is none. -/
inductive TypeRun : List Token → List Token → Prop
  | nil {rest : List Token} (next : ∀ t ∈ rest.head?, isTypeWord t.text = false) : TypeRun [] rest
  | word {t : Token} {front rest : List Token} (isType : isTypeWord t.text = true)
      (untagged : takesTag t.text = false) (run : TypeRun front rest) : TypeRun (t :: front) rest
  | tagged {t tag : Token} {front rest : List Token} (takes : takesTag t.text = true)
      (run : TypeRun front rest) : TypeRun (t :: tag :: front) rest
  | tagless {t : Token} (takes : takesTag t.text = true) : TypeRun [t] []

theorem isTypeWord_of_takesTag {s : Text} (h : takesTag s = true) : isTypeWord s = true := by
  rw [takesTag, Bool.or_eq_true, beq_iff_eq, beq_iff_eq] at h
  rcases h with rfl | rfl <;> decide

namespace DeclarationLine

/-- **The type that is read is the run of type words.** -/
theorem readType_of_typeRun {front rest : List Token} (h : TypeRun front rest) :
    readType (front ++ rest) = (front.map Token.text, rest) := by
  induction h with
  | @nil rest next =>
    cases rest with
    | nil => rfl
    | cons t ts =>
      rw [List.nil_append, readType.eq_def]
      simp [next t rfl]
  | @word t front rest isType untagged _ ih =>
    rw [List.cons_append, readType.eq_def]
    cases hts : front ++ rest with
    | nil =>
      obtain ⟨rfl, rfl⟩ := List.append_eq_nil_iff.1 hts
      simp [isType, untagged, readType]
    | cons u us =>
      rw [hts] at ih
      simp [isType, untagged, ih]
  | tagged takes _ ih => simp [readType, isTypeWord_of_takesTag takes, takes, ih]
  | tagless takes => simp [readType, isTypeWord_of_takesTag takes, takes]

end DeclarationLine

/-- Every list of tokens begins with a run of type words, which may be empty. -/
theorem exists_typeRun (ts : List Token) :
    ∃ front rest, ts = front ++ rest ∧ TypeRun front rest := by
  induction hn : ts.length using Nat.strong_induction_on generalizing ts with
  | _ n ih =>
    cases ts with
    | nil => exact ⟨[], [], rfl, .nil (by simp)⟩
    | cons t ts =>
      cases htag : takesTag t.text with
      | true =>
        cases ts with
        | nil => exact ⟨[t], [], rfl, .tagless htag⟩
        | cons tag ts =>
          obtain ⟨front, rest, rfl, hrun⟩ := ih ts.length (by simp at hn; omega) ts rfl
          exact ⟨t :: tag :: front, rest, rfl, .tagged htag hrun⟩
      | false =>
        cases htype : isTypeWord t.text with
        | true =>
          obtain ⟨front, rest, rfl, hrun⟩ := ih ts.length (by simp at hn; omega) ts rfl
          exact ⟨t :: front, rest, rfl, .word htype htag hrun⟩
        | false => exact ⟨[], t :: ts, rfl, .nil (by simpa using htype)⟩

/-- A list of tokens begins with one run of type words only. -/
theorem TypeRun.unique {front rest front' rest' : List Token} (h : TypeRun front rest)
    (h' : TypeRun front' rest') (heq : front ++ rest = front' ++ rest') :
    front = front' ∧ rest = rest' := by
  have hread := DeclarationLine.readType_of_typeRun h
  rw [heq, DeclarationLine.readType_of_typeRun h'] at hread
  obtain ⟨-, rfl⟩ := Prod.mk.inj hread
  exact ⟨List.append_cancel_right heq, rfl⟩

/-! ### Lines -/

namespace DeclarationLine

/-- The declaration line whose code has some type words, a name and further tokens. -/
def ofTokens (code comment : Text) (front : List Token) (name : Token) (rest : List Token) :
    DeclarationLine where
  type := List.intercalate [' '] (front.map Token.text)
  name := name.text
  isTerminated := rest.getLast?.any Token.isTerminator
  mentions := (rest.dropLast.filter Token.isWord).map Token.text
  initializer := nonempty? (trim ((dropBytes name.stop code).takeWhile (· ≠ ';')))
  comment := comment

variable {raw code comment : Text} {front rest : List Token} {name : Token} {d : DeclarationLine}

/-- A line whose type words are followed by a name is taken apart. -/
theorem read_of_name (h : splitComment raw = some (code, comment))
    (htokens : significant (trimEnd code) = front ++ name :: rest)
    (hrun : TypeRun front (name :: rest)) (hname : name.isTerminator = false) :
    read raw = .ok (ofTokens (trimEnd code) comment front name rest) := by
  simp only [read, h, htokens, readType_of_typeRun hrun]
  exact if_neg (by simp [hname])

/-- A line whose type words are followed by nothing or by a terminator cannot be taken apart. -/
theorem read_of_no_name (h : splitComment raw = some (code, comment))
    (htokens : significant (trimEnd code) = front ++ rest) (hrun : TypeRun front rest)
    (hrest : ∀ t ∈ rest.head?, t.isTerminator = true) :
    read raw = .error .unparsableDeclaration := by
  simp only [read, h, htokens, readType_of_typeRun hrun]
  cases rest with
  | nil => rfl
  | cons name rest => exact if_pos (hrest name rfl)

/-- A line is taken apart, or it leaves a comment open, or it has no name. -/
theorem read_cases (raw : Text) :
    (OpensComment raw ∧ read raw = .error .unterminatedComment) ∨
    ∃ code comment front rest, splitComment raw = some (code, comment) ∧
      significant (trimEnd code) = front ++ rest ∧ TypeRun front rest ∧
      ((∀ t ∈ rest.head?, t.isTerminator = true) ∧ read raw = .error .unparsableDeclaration ∨
        ∃ name after, rest = name :: after ∧ name.isTerminator = false ∧
          read raw = .ok (ofTokens (trimEnd code) comment front name after)) := by
  cases hsplit : splitComment raw with
  | none => exact .inl ⟨splitComment_eq_none_iff.1 hsplit, by rw [read, hsplit]⟩
  | some p =>
    obtain ⟨code, comment⟩ := p
    obtain ⟨front, rest, htokens, hrun⟩ := exists_typeRun (significant (trimEnd code))
    refine .inr ⟨code, comment, front, rest, rfl, htokens, hrun, ?_⟩
    by_cases hrest : ∀ t ∈ rest.head?, t.isTerminator = true
    · exact .inl ⟨hrest, read_of_no_name hsplit htokens hrun hrest⟩
    · push Not at hrest
      obtain ⟨name, hname, hterminator⟩ := hrest
      obtain ⟨after, rfl⟩ := List.head?_eq_some_iff.1 hname
      have hnot : name.isTerminator = false := Bool.eq_false_iff.2 hterminator
      exact .inr ⟨name, after, rfl, hnot, read_of_name hsplit htokens hrun hnot⟩

/-- **When a line can be taken apart, and into what.** -/
theorem read_eq_ok_iff : read raw = .ok d ↔
    ∃ code comment front name rest, splitComment raw = some (code, comment) ∧
      significant (trimEnd code) = front ++ name :: rest ∧ TypeRun front (name :: rest) ∧
      name.isTerminator = false ∧ d = ofTokens (trimEnd code) comment front name rest := by
  constructor
  · intro h
    rcases read_cases raw with ⟨-, herror⟩ |
      ⟨code, comment, front, rest, hsplit, htokens, hrun,
        ⟨-, herror⟩ | ⟨name, after, rfl, hname, hok⟩⟩
    · cases h.symm.trans herror
    · cases h.symm.trans herror
    · exact ⟨code, comment, front, name, after, hsplit, htokens, hrun, hname,
        Except.ok.inj (h.symm.trans hok)⟩
  · rintro ⟨code, comment, front, name, rest, hsplit, htokens, hrun, hname, rfl⟩
    exact read_of_name hsplit htokens hrun hname

end DeclarationLine

end RankMetric
