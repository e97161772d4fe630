import RankMetric.Description
import RankMetric.Proofs.BodyHistory
import RankMetric.Proofs.DeclarationLines

/-!
# Declaring is all or nothing

Whether a line can be declared depends on the line and on the names that the targets have, and on
nothing else. `Tables.Verdict` says what the answer is, with one constructor for each fault and one
for a line that is accepted. The faults are in the order in which they are looked for: each of them
asks that the ones before it are absent.

* `Tables.verdict_iff`: the verdict is the outcome of `Tables.declare`, whatever the file, the line
  number, the level and the attributes are.
* `Tables.declared_of_declare`: an accepted line puts one record under its name into every target.
  What else there is stays (`Tables.Declared`).
* `Tables.declare_all_or_nothing` has both, and says when an open block comment goes unnoticed: when
  another one stands on the line that is closed or begins in the first column.
-/

namespace RankMetric

open Text

/-! ### Open comments -/

namespace DeclarationLine

/-- A comment is left open if one is and no other is closed or begins in the first column. -/
theorem opensComment_iff {raw : Text} : OpensComment raw ↔
    LeavesCommentOpen raw ∧ ∀ before after, uncommented raw = before ++ ['/', '*'] ++ after →
      before ≠ [] ∧ ¬ ['*', '/'] <:+: after := by
  constructor
  · intro h
    refine ⟨h.leavesCommentOpen, fun before' after' heq' ↦ ?_⟩
    obtain ⟨before, after, heq, hne, hopen, hfirst⟩ := h
    have hle := hfirst before' after' heq'
    refine ⟨fun hnil ↦ hne ?_, fun hclosed ↦ ?_⟩
    · exact List.length_eq_zero_iff.1 (by simpa [hnil] using hle)
    -- what follows the later comment follows the first one too
    have hprefix : before ++ ['/', '*'] <+: before' ++ ['/', '*'] :=
      List.prefix_of_prefix_length_le ⟨after, heq.symm⟩ ⟨after', heq'.symm⟩ (by simpa using hle)
    obtain ⟨mid, hmid⟩ := hprefix
    rw [heq', ← hmid, List.append_assoc] at heq
    obtain rfl := List.append_cancel_left heq
    exact hopen (hclosed.trans (List.suffix_append mid after').isInfix)
  · rintro ⟨⟨before, after, heq, -, -⟩, hall⟩
    obtain ⟨a, b, hbreak⟩ := exists_breakOn (p := ['/', '*']) ⟨before, after, heq.symm⟩
    obtain ⟨hne, hopen⟩ := hall a b (breakOn_eq_some hbreak)
    exact ⟨a, b, breakOn_eq_some hbreak, hne, hopen, fun _ _ ↦ length_le_of_breakOn hbreak⟩

end DeclarationLine

/-! ### Records -/

namespace Quantity

/-- A quantity is that of a declaration line, but for its level, which statements raise, and for
what its contribution reads. -/
def IsOf (q : Quantity) (d : DeclarationLine) (line : Int) (a : Attributes) : Prop :=
  q = { d.quantity line q.level a with
    contributionReads := q.contributionReads
    contributionHome := q.contributionHome }

variable {q q' : Quantity} {d : DeclarationLine} {line : Int} {a : Attributes}

/-- A quantity at another level is of the same line. -/
theorem IsOf.of_level (h : q.IsOf d line a) (hq : q' = { q with level := q'.level }) :
    q'.IsOf d line a := by
  rw [IsOf, hq, h]
  rfl

theorem IsOf.name_eq (h : q.IsOf d line a) : q.name = d.name :=
  congrArg name h

theorem IsOf.type_eq (h : q.IsOf d line a) : q.type = d.type :=
  congrArg type h

theorem IsOf.initializer_eq (h : q.IsOf d line a) : q.initializer = d.initializer :=
  congrArg initializer h

theorem IsOf.line_eq (h : q.IsOf d line a) : q.line = line :=
  congrArg Quantity.line h

theorem IsOf.macroText_eq (h : q.IsOf d line a) : q.macroText = nonempty? a.macroText :=
  congrArg macroText h

theorem IsOf.fallbackInit_eq (h : q.IsOf d line a) : q.fallbackInit = nonempty? a.fallbackInit :=
  congrArg fallbackInit h

end Quantity

namespace Tables

open DeclarationLine

variable {t t' : Tables} {targets : List Scope} {file raw : Text} {line : Int} {level : Level}
  {attributes : Name → Attributes} {n : Name} {s : Scope} {q : Quantity}

/-! ### Verdicts -/

/-- The tokens of a line, its comment apart, are type words, a name and more. -/
structure HasName (raw : Text) (front : List Token) (name : Token) (after : List Token) : Prop where
  tokens : ∃ code comment, splitComment raw = some (code, comment) ∧
    significant (trimEnd code) = front ++ name :: after
  run : TypeRun front (name :: after)
  isName : name.isTerminator = false

/-- **What becomes of a declaration.** -/
inductive Verdict (t : Tables) (targets : List Scope) (raw : Text) : Except Cause Name → Prop
  | unterminated (opens : OpensComment raw) : Verdict t targets raw (.error .unterminatedComment)
  /-- Nothing, or a terminator, follows the type words. -/
  | unparsable {code comment : Text} {front rest : List Token}
      (splits : splitComment raw = some (code, comment))
      (tokens : significant (trimEnd code) = front ++ rest) (run : TypeRun front rest)
      (noName : ∀ x ∈ rest.head?, x.isTerminator = true) :
      Verdict t targets raw (.error .unparsableDeclaration)
  /-- Some target has the name. -/
  | duplicate {front after : List Token} {name : Token} (hasName : HasName raw front name after)
      (known : ∃ s ∈ targets, (t.quantities s).contains name.text = true) :
      Verdict t targets raw (.error (.duplicateDeclaration name.text))
  /-- The last token is no terminator. -/
  | missing {front after : List Token} {name : Token} (hasName : HasName raw front name after)
      (unknown : ∀ s ∈ targets, (t.quantities s).contains name.text = false)
      (last : (front ++ name :: after).getLast?.any Token.isTerminator = false) :
      Verdict t targets raw (.error .missingTerminator)
  | accepted {front after : List Token} {name : Token} (hasName : HasName raw front name after)
      (unknown : ∀ s ∈ targets, (t.quantities s).contains name.text = false)
      (last : (front ++ name :: after).getLast?.any Token.isTerminator = true) :
      Verdict t targets raw (.ok name.text)

theorem knows_eq_true_iff : t.knows targets n = true ↔
    ∃ s ∈ targets, (t.quantities s).contains n = true :=
  List.any_eq_true

theorem knows_eq_false_iff : t.knows targets n = false ↔
    ∀ s ∈ targets, (t.quantities s).contains n = false := by
  rw [knows, List.any_eq_false]
  simp

/-- The line of a name that is no terminator is terminated if its last token is one. -/
theorem isTerminated_ofTokens {code comment : Text} {front after : List Token} {name : Token}
    (hname : name.isTerminator = false) :
    (ofTokens code comment front name after).isTerminated =
      (front ++ name :: after).getLast?.any Token.isTerminator := by
  rw [ofTokens, List.getLast?_append_of_ne_nil _ (by simp)]
  cases after with
  | nil => simp [hname]
  | cons u us => rw [List.getLast?_cons_cons]

/-- What is decided about a line before anything is changed. -/
def judge (t : Tables) (targets : List Scope) (raw : Text) : Except Cause Name :=
  (read raw).bind fun d ↦
    if t.knows targets d.name then .error (.duplicateDeclaration d.name)
    else if d.isTerminated then .ok d.name
    else .error .missingTerminator

/-- The outcome of a declaration but for the tables. -/
theorem map_fst_declare (t : Tables) (file : Text) (targets : List Scope) (raw : Text) (line : Int)
    (level : Level) (attributes : Name → Attributes) :
    (t.declare file targets raw line level attributes).map Prod.fst =
      (t.judge targets raw).mapError fun c ↦ .located file (errorLine line) c raw := by
  rw [declare, judge]
  cases read raw with
  | error c => rfl
  | ok d =>
    dsimp only [Except.bind]
    cases t.knows targets d.name with
    | true => rfl
    | false => cases d.isTerminated <;> rfl

/-- What is wrong with a declaration is reported under its line and with its text. -/
theorem located_of_declare {e : DescriptionError}
    (h : t.declare file targets raw line level attributes = .error e) :
    ∃ c, e = .located file (errorLine line) c raw := by
  have hjudge := t.map_fst_declare file targets raw line level attributes
  rw [h] at hjudge
  cases hcause : t.judge targets raw with
  | ok n => rw [hcause] at hjudge; cases hjudge
  | error c => rw [hcause] at hjudge; exact ⟨c, Except.error.inj hjudge⟩

/-- A line that can be taken apart is judged by its name and its last token. -/
theorem HasName.judge_eq {front after : List Token} {name : Token}
    (h : HasName raw front name after) :
    t.judge targets raw =
      if t.knows targets name.text then .error (.duplicateDeclaration name.text)
      else if (front ++ name :: after).getLast?.any Token.isTerminator then .ok name.text
      else .error .missingTerminator := by
  obtain ⟨code, comment, hsplit, htokens⟩ := h.tokens
  rw [judge, read_of_name hsplit htokens h.run h.isName]
  show (if t.knows targets name.text then _ else
    if (ofTokens _ _ _ _ _).isTerminated then _ else _) = _
  rw [isTerminated_ofTokens h.isName]
  rfl

/-- A verdict is what is decided. -/
theorem Verdict.eq_judge {v : Except Cause Name} (h : Verdict t targets raw v) :
    v = t.judge targets raw := by
  cases h with
  | unterminated opens =>
    rcases read_cases raw with ⟨-, hread⟩ | ⟨code, comment, front, rest, hsplit, -⟩
    · rw [judge, hread]
      rfl
    · rw [splitComment_eq_none_iff.2 opens] at hsplit
      cases hsplit
  | unparsable splits tokens run noName =>
    rw [judge, read_of_no_name splits tokens run noName]
    rfl
  | duplicate hasName known => rw [hasName.judge_eq, if_pos (knows_eq_true_iff.2 known)]
  | missing hasName unknown last =>
    rw [hasName.judge_eq, knows_eq_false_iff.2 unknown, last]
    rfl
  | accepted hasName unknown last =>
    rw [hasName.judge_eq, knows_eq_false_iff.2 unknown, last]
    rfl

/-- Every line has a verdict. -/
theorem verdict_judge (t : Tables) (targets : List Scope) (raw : Text) :
    Verdict t targets raw (t.judge targets raw) := by
  rcases read_cases raw with ⟨hopen, hread⟩ |
    ⟨code, comment, front, rest, hsplit, htokens, hrun,
      ⟨hrest, hread⟩ | ⟨name, after, rfl, hname, -⟩⟩
  · rw [judge, hread]
    exact .unterminated hopen
  · rw [judge, hread]
    exact .unparsable hsplit htokens hrun hrest
  · have hline : HasName raw front name after := ⟨⟨code, comment, hsplit, htokens⟩, hrun, hname⟩
    rw [hline.judge_eq]
    split
    · next hknown => exact .duplicate hline (knows_eq_true_iff.1 hknown)
    · next hknown =>
      have hunknown := knows_eq_false_iff.1 (Bool.eq_false_iff.2 hknown)
      split
      · next hlast => exact .accepted hline hunknown hlast
      · next hlast => exact .missing hline hunknown (Bool.eq_false_iff.2 hlast)

theorem verdict_iff_eq_judge {v : Except Cause Name} :
    Verdict t targets raw v ↔ v = t.judge targets raw :=
  ⟨Verdict.eq_judge, fun h ↦ h ▸ verdict_judge t targets raw⟩

theorem mapError_located_injective (file : Text) (k : Nat) (raw : Text) :
    Function.Injective fun v : Except Cause Name ↦
      v.mapError fun c ↦ DescriptionError.located file k c raw := by
  intro v v' h
  cases v <;> cases v' <;> cases h <;> rfl

/-- **The verdict is the outcome**, whatever the file, the line number, the level and the attributes
are. -/
theorem verdict_iff {v : Except Cause Name} (file : Text) (line : Int) (level : Level)
    (attributes : Name → Attributes) : Verdict t targets raw v ↔
      (t.declare file targets raw line level attributes).map Prod.fst =
        v.mapError fun c ↦ .located file (errorLine line) c raw := by
  rw [verdict_iff_eq_judge, map_fst_declare, eq_comm]
  exact (mapError_located_injective file (errorLine line) raw).eq_iff.symm

/-- A comment that is left open is noticed if it opens. -/
theorem verdict_unterminated_iff :
    Verdict t targets raw (.error .unterminatedComment) ↔ OpensComment raw := by
  refine ⟨fun h ↦ ?_, .unterminated⟩
  cases h with
  | unterminated opens => exact opens

/-! ### What an accepted line changes -/

/-- **What a declaration of `n` changes**: it puts one record into every target, and every other
name, every other scope and every statement stays. -/
structure Declared (t : Tables) (targets : List Scope) (n : Name) (t' : Tables) : Prop where
  /-- The targets have the same record under the name. -/
  same : ∃ q, q.name = n ∧ ∀ s ∈ targets, (t'.quantities s).get? n = some q
  others : ∀ s m, m ≠ n → (t'.quantities s).get? m = (t.quantities s).get? m
  untargeted : ∀ s, s ∉ targets → t'.quantities s = t.quantities s
  statements : ∀ r, (t'.body r).statements = (t.body r).statements
  /-- No name that was used is lost. -/
  used : ∀ r m, (t.body r).used.contains m = true → (t'.body r).used.contains m = true
  /-- The used sets of the targets may grow, and no other. -/
  usedOfOthers : ∀ r, Scope.routine r ∉ targets → (t'.body r).used = (t.body r).used

/-- Entering a quantity in some scopes changes the quantities of these scopes. -/
theorem quantities_foldl_insert (q : Quantity) (ns : List Name) (targets : List Scope) (t : Tables)
    (s : Scope) :
    (targets.foldl (fun t s ↦ (t.useAll s ns).insert s q) t).quantities s =
      if s ∈ targets then (t.quantities s).insert q else t.quantities s := by
  cases s with
  | routine r =>
    rw [quantities, body_foldl_insert]
    split <;> rfl
  | params =>
    induction targets generalizing t with
    | nil => rfl
    | cons s targets ih =>
      rw [List.foldl_cons, ih]
      cases s with
      | params =>
        have htwice : ∀ qs : Quantities,
            NameIndex.insert (NameIndex.insert qs q) q = NameIndex.insert qs q := by
          intro qs
          refine NameIndex.ext_get? fun n ↦ ?_
          rw [NameIndex.get?_insert, NameIndex.get?_insert]
          split <;> rfl
        rw [if_pos List.mem_cons_self]
        split
        · exact htwice _
        · rfl
      | routine r =>
        have hparams : ((t.useAll (.routine r) ns).insert (.routine r) q).quantities .params =
            t.quantities .params := by
          cases r <;> rfl
        rw [hparams]
        simp

/-- **What an accepted line declares**: one quantity of that line, under a name that is new to all
targets. All else is answered as before. -/
theorem exists_record_of_declare
    (h : t.declare file targets raw line level attributes = .ok (n, t')) :
    ∃ d q, read raw = .ok d ∧ d.isTerminated = true ∧ d.name = n ∧ q.IsOf d line (attributes n) ∧
      q.level = level ∧ (∀ s ∈ targets, (t.quantities s).get? n = none) ∧
      ∀ s m, (t'.quantities s).get? m =
        if s ∈ targets ∧ m = n then some q else (t.quantities s).get? m := by
  obtain ⟨d, hread, hknown, hterminated, rfl, rfl⟩ := declare_eq_ok_iff.1 h
  obtain ⟨reads, home, hresolve⟩ :=
    t.exists_resolveContribution_eq targets (d.quantity line level (attributes d.name))
  refine ⟨d, t.resolveContribution targets _, hread, hterminated, rfl, ?_, by rw [hresolve]; rfl,
    fun s hs ↦ ?_, fun s m ↦ ?_⟩
  · rw [hresolve]
    rfl
  · have hnew := knows_eq_false_iff.1 hknown s hs
    rwa [NameIndex.contains, Option.isSome_eq_false_iff, Option.isNone_iff_eq_none] at hnew
  · have hname : (t.resolveContribution targets
        (d.quantity line level (attributes d.name))).name = d.name := by
      rw [hresolve]
      rfl
    rw [enter, quantities_foldl_insert]
    by_cases hs : s ∈ targets
    · rw [if_pos hs, NameIndex.get?_insert, hname]
      simp only [hs, true_and, eq_comm (a := m)]
    · rw [if_neg hs, if_neg fun h ↦ hs h.1]

/-- **An accepted line puts one record into every target and changes nothing else.** -/
theorem declared_of_declare (h : t.declare file targets raw line level attributes = .ok (n, t')) :
    t.Declared targets n t' := by
  obtain ⟨d, -, -, -, rfl, rfl⟩ := declare_eq_ok_iff.1 h
  have hname : (t.resolveContribution targets (d.quantity line level (attributes d.name))).name =
      d.name := by
    obtain ⟨reads, home, hresolve⟩ := t.exists_resolveContribution_eq targets _
    rw [hresolve]
    rfl
  refine ⟨⟨_, hname, fun s hs ↦ ?_⟩, fun s m hm ↦ ?_, fun s hs ↦ ?_, fun r ↦ ?_, fun r m hm ↦ ?_,
    fun r hr ↦ ?_⟩
  · rw [enter, quantities_foldl_insert, if_pos hs, NameIndex.get?_insert, if_pos hname]
  · rw [enter, quantities_foldl_insert]
    split
    · rw [NameIndex.get?_insert, hname, if_neg (Ne.symm hm)]
    · rfl
  · rw [enter, quantities_foldl_insert, if_neg hs]
  · rw [enter, body_foldl_insert]
    split <;> rfl
  · rw [enter, body_foldl_insert]
    split
    · rw [Body.contains_used_gain, hm, Bool.or_true]
    · exact hm
  · rw [enter, body_foldl_insert, if_neg hr]

/-! ### All or nothing -/

/-- **Declaring is all or nothing.** The outcome is the verdict. If it is an error, the reader stops
with the tables it had, and if it is a name, its record is in every target and nothing else has
changed. That a block comment is left open is noticed exactly if no other one stands on the line
that is closed or begins in the first column. -/
theorem declare_all_or_nothing (t : Tables) (file : Text) (targets : List Scope) (raw : Text)
    (line : Int) (level : Level) (attributes : Name → Attributes) :
    (∀ v, Verdict t targets raw v ↔
      (t.declare file targets raw line level attributes).map Prod.fst =
        v.mapError fun c ↦ .located file (errorLine line) c raw) ∧
    (∀ e, t.declare file targets raw line level attributes = .error e →
      ∀ (rd : Reader) place, rd.tables = t →
        rd.proceed place (t.declare file targets raw line level attributes) = .error ⟨e, t⟩) ∧
    (∀ n t', t.declare file targets raw line level attributes = .ok (n, t') →
      t.Declared targets n t') ∧
    ((Verdict t targets raw (.error .unterminatedComment) ↔ LeavesCommentOpen raw) ↔
      (LeavesCommentOpen raw → ∀ before after, uncommented raw = before ++ ['/', '*'] ++ after →
        before ≠ [] ∧ ¬ ['*', '/'] <:+: after)) := by
  refine ⟨fun v ↦ verdict_iff file line level attributes, fun e he rd place hrd ↦ ?_,
    fun n t' ↦ declared_of_declare, ?_⟩
  · rw [he, ← hrd]
    rfl
  · rw [verdict_unterminated_iff, opensComment_iff]
    exact ⟨fun h hleaves ↦ (h.2 hleaves).2, fun h ↦ ⟨And.left, fun hleaves ↦ ⟨hleaves, h hleaves⟩⟩⟩

/-- A line with two block comments, of which the second is left open. -/
def unclosedLine : Text :=
  "float a /* x */ = 1 /* y;".toList

theorem exists_declare_unclosedLine : ∃ t',
    empty.declare [] [.routine .decode] unclosedLine 1 .perDocument (fun _ ↦ {}) =
      .ok (['a'], t') := by
  have hname : (empty.declare [] [.routine .decode] unclosedLine 1 .perDocument
      (fun _ ↦ {})).toOption.map Prod.fst = some ['a'] := by
    decide +kernel
  cases hdeclare : empty.declare [] [.routine .decode] unclosedLine 1 .perDocument (fun _ ↦ {}) with
  | error e =>
    rw [hdeclare] at hname
    cases hname
  | ok p =>
    obtain ⟨n, t'⟩ := p
    rw [hdeclare] at hname
    obtain rfl := Option.some.inj hname
    exact ⟨t', rfl⟩

theorem leavesCommentOpen_unclosedLine : LeavesCommentOpen unclosedLine :=
  ⟨"float a /* x */ = 1 ".toList, " y;".toList, by decide, by decide, by decide⟩

theorem declare_all_or_nothing_unclosedLine : ∃ t',
    empty.declare [] [.routine .decode] unclosedLine 1 .perDocument (fun _ ↦ {}) =
        .ok (['a'], t') ∧
      Verdict empty [.routine .decode] unclosedLine (.ok ['a']) ∧
      empty.Declared [.routine .decode] ['a'] t' := by
  obtain ⟨t', hdeclare⟩ := exists_declare_unclosedLine
  obtain ⟨hverdict, -, hdeclared, -⟩ := declare_all_or_nothing empty [] [.routine .decode]
    unclosedLine 1 .perDocument fun _ ↦ {}
  refine ⟨t', hdeclare, (hverdict _).2 ?_, hdeclared _ _ hdeclare⟩
  rw [hdeclare]
  rfl

/-- **A block comment that is left open behind a closed one goes unnoticed**, and the line is
declared. -/
theorem exists_declare_of_open_comment :
    LeavesCommentOpen unclosedLine ∧
      ∃ t', empty.declare [] [.routine .decode] unclosedLine 1 .perDocument (fun _ ↦ {}) =
        .ok (['a'], t') :=
  ⟨leavesCommentOpen_unclosedLine, exists_declare_unclosedLine⟩

end Tables

end RankMetric
