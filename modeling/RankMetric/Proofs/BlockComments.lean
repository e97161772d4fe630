import RankMetric.Proofs.RenderedDeclarations

/-!
# What the text of a block comment does to a declaration

A block comment that is closed is cut out of its line, and its text becomes the comment of the
quantity. So the line should be declared as it would be without the block comment, whatever the text
is. It is, unless the text has a `#`: the line is cut at the `#` first, which leaves a block comment
without its end.

* `Text.breakOn_pair`: where a sign of two characters stands first.
* `DeclarationLine.splitComment_blockComment`, `DeclarationLine.opensComment_of_mem`: the two cases.
* `Tables.AlikeBut`: two outcomes that differ in the comment of a quantity at most, which follows
  from lines that are taken apart alike (`Tables.alikeBut_of_read`).
* `Tables.alikeBut_blockComment_iff`: the text of a block comment does nothing to a declaration if
  and only if it has no `#`.
-/

namespace RankMetric

open Text

/-! ### Two characters -/

namespace Text

variable {a : Text} {c d : Char}

/-- A text is cut at a sign of two characters if none stands before it. None can begin with the last
character before it, as the first character of the sign is not the second. -/
theorem breakOn_pair (hne : c ≠ d) (ha : ¬ [c, d] <:+: a) (b : Text) :
    breakOn [c, d] (a ++ [c, d] ++ b) = some (a, b) := by
  induction a with
  | nil => simp [breakOn]
  | cons x a ih =>
    rw [List.infix_cons_iff, not_or] at ha
    have hfront : [c, d].isPrefixOf (x :: (a ++ [c, d] ++ b)) = false := by
      rw [Bool.eq_false_iff, ne_eq, List.isPrefixOf_iff_prefix]
      cases a with
      | nil => simp [List.cons_prefix_cons, hne.symm]
      | cons y a => simpa [List.cons_prefix_cons] using ha.1
    rw [List.cons_append, List.cons_append, breakOn, hfront, ih ha.2]
    rfl

end Text

/-! ### Lines with a block comment -/

/-- A text as a block comment. -/
def blockComment (text : Text) : Text :=
  ['/', '*'] ++ text ++ ['*', '/']

namespace DeclarationLine

variable {P C S raw raw' code comment comment' : Text}

theorem uncommented_append_hash (hne : P ≠ []) (hhash : '#' ∉ P) (rest : Text) :
    uncommented (P ++ '#' :: rest) = P := by
  obtain ⟨c, s, rfl⟩ := List.exists_cons_of_ne_nil hne
  have hc : (c :: s ++ '#' :: rest).head? ≠ some '#' := fun h ↦
    hhash (List.mem_cons.2 (.inl (Option.some.inj h).symm))
  have hall : ∀ x ∈ c :: s, decide (x ≠ '#') = true := fun x hx ↦
    decide_eq_true fun h ↦ hhash (h ▸ hx)
  rw [uncommented, if_neg hc, List.takeWhile_append_of_pos hall]
  simp

/-- **A block comment without `#` is cut out.** -/
theorem splitComment_blockComment (hP : P ≠ []) (hopen : ¬ ['/', '*'] <:+: P)
    (hclose : ¬ ['*', '/'] <:+: C) (hhash : '#' ∉ P ++ blockComment C ++ S) :
    splitComment (P ++ blockComment C ++ S) = some (P ++ S, trim C) := by
  obtain ⟨c, P, rfl⟩ := List.exists_cons_of_ne_nil hP
  obtain ⟨remark, hsplit⟩ := exists_splitComment_eq (c :: P ++ blockComment C ++ S)
  have hcode : c :: P ++ blockComment C ++ S =
      c :: P ++ ['/', '*'] ++ (C ++ ['*', '/'] ++ S) := by
    simp [blockComment]
  rw [hsplit, uncommented_of_notMem hhash, hcode, cutBlock, breakOn_pair (by decide) hopen]
  dsimp only
  rw [breakOn_pair (by decide) hclose]
  rfl

/-- **A block comment with `#` loses its end** with the part of the line that the `#` takes. -/
theorem opensComment_of_mem (hP : P ≠ []) (hhash : '#' ∉ P) (hopen : ¬ ['/', '*'] <:+: P)
    (hclose : ¬ ['*', '/'] <:+: C) (hmem : '#' ∈ C) : OpensComment (P ++ blockComment C ++ S) := by
  obtain ⟨front, rest, rfl, hfront⟩ := List.eq_append_cons_of_mem hmem
  have hcode : uncommented (P ++ blockComment (front ++ '#' :: rest) ++ S) =
      P ++ ['/', '*'] ++ front := by
    have hraw : P ++ blockComment (front ++ '#' :: rest) ++ S =
        P ++ ['/', '*'] ++ front ++ '#' :: (rest ++ ['*', '/'] ++ S) := by
      simp [blockComment]
    rw [hraw, uncommented_append_hash (by simp)]
    simp [hhash, hfront]
  refine ⟨P, front, hcode, hP, fun h ↦ hclose (h.trans (List.prefix_append _ _).isInfix), ?_⟩
  rw [hcode]
  exact fun before after ↦ length_le_of_breakOn (breakOn_pair (by decide) hopen front)

/-- Lines with the same code are taken apart alike, but for their comments. -/
theorem read_eq_map_read (h : splitComment raw = some (code, comment))
    (h' : splitComment raw' = some (code, comment')) :
    read raw = (read raw').map fun d ↦ { d with comment := comment } := by
  rw [read, read, h, h']
  dsimp only
  split
  · rfl
  · split <;> rfl

theorem read_of_opensComment (h : OpensComment raw) : read raw = .error .unterminatedComment := by
  rw [read, splitComment_eq_none_iff.2 h]

end DeclarationLine

/-! ### Outcomes -/

/-- A quantity with another comment. -/
def Quantity.recomment (c : Text) (q : Quantity) : Quantity :=
  { q with comment := c }

@[simp] theorem Quantity.recomment_name (c : Text) (q : Quantity) : (q.recomment c).name = q.name :=
  rfl

namespace Tables

open DeclarationLine

variable {t : Tables} {targets : List Scope} {file raw raw' c : Text} {line : Int} {level : Level}
  {attributes : Name → Attributes}

/-- Whether two outcomes of a declaration are the same but for the comment of the quantity, which is
`c` in the first, and for the text of the line in an error. -/
inductive AlikeBut (targets : List Scope) (c : Text) :
    Except DescriptionError (Name × Tables) → Except DescriptionError (Name × Tables) → Prop
  | error {e e' : DescriptionError} (file : e.file = e'.file) (line : e.line = e'.line)
      (cause : e.cause = e'.cause) : AlikeBut targets c (.error e) (.error e')
  | ok {n : Name} {t t' : Tables}
      (record : ∃ q : Quantity, ∀ s ∈ targets,
        (t.quantities s).get? n = some (q.recomment c) ∧ (t'.quantities s).get? n = some q)
      (others : ∀ s m, ¬ (s ∈ targets ∧ m = n) →
        (t.quantities s).get? m = (t'.quantities s).get? m)
      (used : ∀ r, (t.body r).used = (t'.body r).used)
      (statements : ∀ r, (t.body r).statements = (t'.body r).statements) :
      AlikeBut targets c (.ok (n, t)) (.ok (n, t'))

/-- The comment of a quantity has no part in what its contribution reads. -/
theorem resolveContribution_recomment (q : Quantity) :
    t.resolveContribution targets (q.recomment c) =
      (t.resolveContribution targets q).recomment c := by
  obtain ⟨⟩ := q
  unfold resolveContribution Quantity.recomment
  dsimp only
  split <;> rfl

/-- Entering a quantity with another comment. -/
theorem alikeBut_foldl_insert (t : Tables) (targets : List Scope) (ns : List Name) (q : Quantity)
    (c : Text) : AlikeBut targets c
      (.ok (q.name, targets.foldl (fun t s ↦ (t.useAll s ns).insert s (q.recomment c)) t))
      (.ok (q.name, targets.foldl (fun t s ↦ (t.useAll s ns).insert s q) t)) := by
  refine .ok ⟨q, fun s hs ↦ ?_⟩ (fun s m hm ↦ ?_) (fun r ↦ ?_) fun r ↦ ?_
  · rw [quantities_foldl_insert, quantities_foldl_insert, if_pos hs, if_pos hs,
      NameIndex.get?_insert, NameIndex.get?_insert, Quantity.recomment_name, if_pos rfl,
      if_pos rfl]
    exact ⟨rfl, rfl⟩
  · rw [quantities_foldl_insert, quantities_foldl_insert]
    split
    · next hs =>
      have hne : q.name ≠ m := fun h ↦ hm ⟨hs, h.symm⟩
      rw [NameIndex.get?_insert, NameIndex.get?_insert, Quantity.recomment_name, if_neg hne,
        if_neg hne]
    · rfl
  · rw [body_foldl_insert, body_foldl_insert]
    split <;> rfl
  · rw [body_foldl_insert, body_foldl_insert]
    split <;> rfl

/-- **Lines that are taken apart alike are declared alike**, but for their comments. -/
theorem alikeBut_of_read (h : read raw = (read raw').map fun d ↦ { d with comment := c })
    (file : Text) (line : Int) (level : Level) (attributes : Name → Attributes) :
    AlikeBut targets c (t.declare file targets raw line level attributes)
      (t.declare file targets raw' line level attributes) := by
  rw [declare, declare, h]
  cases read raw' with
  | error cause => exact .error rfl rfl rfl
  | ok d =>
    dsimp only [Except.map]
    split
    · exact .error rfl rfl rfl
    split
    · exact .error rfl rfl rfl
    have hname : (t.resolveContribution targets (d.quantity line level (attributes d.name))).name =
        d.name := by
      obtain ⟨reads, home, hreads⟩ := t.exists_resolveContribution_eq targets _
      rw [hreads]
      rfl
    have halike := alikeBut_foldl_insert t targets (d.mentions.filter (t.knows targets))
      (t.resolveContribution targets (d.quantity line level (attributes d.name))) c
    rw [hname, ← resolveContribution_recomment] at halike
    exact halike

/-- An unterminated comment is reported only where one is. -/
theorem opensComment_of_declare {e : DescriptionError}
    (h : t.declare file targets raw line level attributes = .error e)
    (hcause : e.cause = .unterminatedComment) : OpensComment raw := by
  obtain ⟨c, rfl⟩ := located_of_declare h
  obtain rfl : c = .unterminatedComment := hcause
  have hverdict : Verdict t targets raw (.error .unterminatedComment) :=
    (verdict_iff file line level attributes).2 (by rw [h]; rfl)
  exact verdict_unterminated_iff.1 hverdict

/-! ### The text of a block comment -/

/-- **The text of a block comment does nothing to a declaration if and only if it has no `#`.** The
line is declared as it is without the block comment then, and the text is the comment of the
quantity. With a `#` in the text the line always has an unterminated comment, whatever else is on
it. -/
theorem alikeBut_blockComment_iff {P C S : Text} (hP : P ≠ []) (hclose : ¬ ['*', '/'] <:+: C)
    (hhash : '#' ∉ P ++ S) (hopen : ¬ ['/', '*'] <:+: P ++ S) (t : Tables) (file : Text)
    (targets : List Scope) (line : Int) (level : Level) (attributes : Name → Attributes) :
    (AlikeBut targets (trim C)
        (t.declare file targets (P ++ blockComment C ++ S) line level attributes)
        (t.declare file targets (P ++ S) line level attributes) ↔ '#' ∉ C) ∧
      ('#' ∈ C → t.declare file targets (P ++ blockComment C ++ S) line level attributes =
        .error (.located file (errorLine line) .unterminatedComment
          (P ++ blockComment C ++ S))) := by
  obtain ⟨hhashP, hhashS⟩ := not_or.1 (mt List.mem_append.2 hhash)
  have hopenP : ¬ ['/', '*'] <:+: P := fun h ↦ hopen (h.trans (List.prefix_append P S).isInfix)
  obtain ⟨comment, hplain⟩ := exists_splitComment_of_notMem hhash hopen
  have hrejected : '#' ∈ C →
      t.declare file targets (P ++ blockComment C ++ S) line level attributes =
        .error (.located file (errorLine line) .unterminatedComment
          (P ++ blockComment C ++ S)) := fun hmem ↦ by
    rw [declare, read_of_opensComment (opensComment_of_mem hP hhashP hopenP hclose hmem)]
  refine ⟨⟨fun halike hmem ↦ ?_, fun hC ↦ ?_⟩, hrejected⟩
  · -- the line without the block comment has none that could be left open
    rw [hrejected hmem] at halike
    generalize hx : t.declare file targets (P ++ S) line level attributes = x at halike
    cases halike with
    | error _ _ cause =>
      rw [splitComment_eq_none_iff.2 (opensComment_of_declare hx cause.symm)] at hplain
      cases hplain
  · have hmem : '#' ∉ P ++ blockComment C ++ S := by simp [blockComment, hhashP, hhashS, hC]
    exact alikeBut_of_read
      (read_eq_map_read (splitComment_blockComment hP hopenP hclose hmem) hplain)
      file line level attributes

/-- A line with a block comment. -/
def closedLine : Text :=
  "float b /* second */ = 2;".toList

/-- A line with a block comment that has a `#`. -/
def hashedLine : Text :=
  "float b /* #2 */ = 2;".toList

theorem alikeBut_blockComment_iff_closedLine :
    AlikeBut [.routine .post] "second".toList
        (empty.declare [] [.routine .post] closedLine 2 .constant fun _ ↦ {})
        (empty.declare [] [.routine .post] "float b  = 2;".toList 2 .constant fun _ ↦ {}) ∧
      empty.declare [] [.routine .post] hashedLine 2 .constant (fun _ ↦ {}) =
        .error (.located [] 2 .unterminatedComment hashedLine) := by
  obtain ⟨hclosed, -⟩ := alikeBut_blockComment_iff (P := "float b ".toList)
    (C := " second ".toList) (S := " = 2;".toList) (by decide) (by decide +kernel) (by decide)
    (by decide +kernel) empty [] [.routine .post] 2 .constant fun _ ↦ {}
  obtain ⟨-, hhashed⟩ := alikeBut_blockComment_iff (P := "float b ".toList)
    (C := " #2 ".toList) (S := " = 2;".toList) (by decide) (by decide +kernel) (by decide)
    (by decide +kernel) empty [] [.routine .post] 2 .constant fun _ ↦ {}
  have hline : "float b ".toList ++ blockComment " second ".toList ++ " = 2;".toList = closedLine :=
    by decide
  have hplain : "float b ".toList ++ " = 2;".toList = "float b  = 2;".toList := by decide
  have hline' : "float b ".toList ++ blockComment " #2 ".toList ++ " = 2;".toList = hashedLine := by
    decide
  have htrim : trim " second ".toList = "second".toList := by decide
  rw [hline, hplain, htrim] at hclosed
  rw [hline'] at hhashed
  exact ⟨hclosed.2 (by decide), hhashed (by decide)⟩

/-- **A block comment that is closed can make its line unreadable.** The line is declared without
it. -/
theorem exists_blockComment_rejected : ∃ P C S, P ≠ [] ∧ ¬ ['*', '/'] <:+: C ∧ '#' ∉ P ++ S ∧
    ¬ ['/', '*'] <:+: P ++ S ∧
    (empty.declare [] [.routine .post] (P ++ S) 2 .constant fun _ ↦ {}).toOption.map Prod.fst =
      some ['b'] ∧
    (empty.declare [] [.routine .post] (P ++ blockComment C ++ S) 2 .constant
      fun _ ↦ {}).toOption.map Prod.fst = none :=
  ⟨"float b ".toList, " #2 ".toList, " = 2;".toList, by decide, by decide +kernel, by decide,
    by decide +kernel, by decide +kernel, by decide +kernel⟩

end Tables

end RankMetric
