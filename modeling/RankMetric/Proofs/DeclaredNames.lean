import RankMetric.Proofs.DeclaringCalls
import RankMetric.Proofs.Provision
import RankMetric.Proofs.QuantityOrigins

/-!
# What the names of quantities look like

The name in a declaration line is the first token behind the type words, whatever it is, unless it
is a terminator. So a name is one token: a word, or a run of operator symbols, as in
`float (*f)(int);`, which declares a quantity with the name `(*`. It is no type word. What is there
at the start has words for names, so an operator run is a name only if some line has declared it.

* `Tables.HasName.name_ofClass`: what the name in a line looks like. The built-ins have words for
  names (`Builtin.ofClass_of_all`).
* `Body.Ignores`: a text is passed over wherever a token is looked up in a body, as an operand, as a
  target and by both substitutions. `Body.ignores_iff`: these are the texts that are no names.
* `Tables.names_of_calls`: the names after any calls.
-/

namespace RankMetric

open Text

/-! ### The name in a line -/

/-- What follows the type words is no type word. -/
theorem TypeRun.isTypeWord_next {front rest : List Token} (h : TypeRun front rest) :
    ∀ x ∈ rest.head?, isTypeWord x.text = false := by
  induction h with
  | nil next => exact next
  | word _ _ _ ih => exact ih
  | tagged _ _ ih => exact ih
  | tagless => simp

namespace Tables

open DeclarationLine

variable {t : Tables} {raw : Text} {front after : List Token} {name : Token}

/-- **The name in a line is a word or a run of operator symbols**, and no type word. -/
theorem HasName.name_ofClass (h : HasName raw front name after) :
    (OfClass .word name.text ∨ OfClass .operator name.text) ∧ isTypeWord name.text = false := by
  obtain ⟨code, comment, -, htokens⟩ := h.tokens
  have hmem : name ∈ significant (trimEnd code) := by
    rw [htokens]
    exact List.mem_append_right _ List.mem_cons_self
  have htext : name.text ∈ tokenTexts (trimEnd code) := List.mem_map_of_mem hmem
  have hclass := (isRun_of_mem_tokenTexts htext).ofClass
  have hspace := ofRun_ne_space_of_mem_tokenTexts htext
  have hterminator : TokenClass.ofRun name.text ≠ .terminator := by
    rw [← cls_of_mem_significant hmem]
    simpa [Token.isTerminator] using h.isName
  refine ⟨?_, h.run.isTypeWord_next name rfl⟩
  cases hcls : TokenClass.ofRun name.text with
  | word => exact .inl (hcls ▸ hclass)
  | operator => exact .inr (hcls ▸ hclass)
  | space => exact absurd hcls hspace
  | terminator => exact absurd hcls hterminator

end Tables

/-- The names of the built-ins are words. -/
theorem Builtin.ofClass_of_all : ∀ d ∈ all.filterMap line?,
    OfClass .word d.name ∧ isTypeWord d.name = false := by
  decide +kernel

/-! ### Looking tokens up -/

namespace Substitution

/-- A substitution for some quantities leaves alone what is no name of them. -/
theorem replace_ofQuantities {qs : Quantities} {w : Text} (h : qs.get? w = none)
    (pick : Quantity → Option Text) : (ofQuantities pick qs).replace w = w := by
  cases hget : (ofQuantities pick qs).get? w with
  | none => rw [replace, hget]
  | some e =>
    obtain ⟨q, hq, hentry⟩ := List.mem_filterMap.1 (NameIndex.mem_of_get?_ofList hget)
    obtain ⟨text, -, rfl⟩ := Option.map_eq_some_iff.1 hentry
    have hname := NameIndex.name_of_get? hget
    obtain rfl : q.name = w := hname
    cases h.symm.trans (NameIndex.get?_of_mem hq)

end Substitution

namespace Body

variable {b : Body} {w : Text}

/-- **A body ignores a text** if tokens with that text do nothing: none is an operand, none is the
target of an assignment, and neither substitution replaces one. -/
structure Ignores (b : Body) (w : Text) : Prop where
  operand : ∀ ts, b.readOperands (ts.filter fun x ↦ x.text ≠ w) = b.readOperands ts
  target : ∀ n line a, Assignment.begin? b.quantities n line = some a → a.target ≠ w
  macros : b.macros.replace w = w
  contributions : b.contributions.replace w = w

theorem named_filter (h : b.quantities.get? w = none) (ts : List Token) :
    b.quantities.named (ts.filter fun x ↦ x.text ≠ w) = b.quantities.named ts := by
  induction ts with
  | nil => rfl
  | cons x ts ih =>
    by_cases hx : x.text = w
    · rw [List.filter_cons_of_neg (by simpa using hx), ih, Quantities.named, Quantities.named,
        List.filterMap_cons_none (by rw [hx, h])]
    · rw [List.filter_cons_of_pos (by simpa using hx)]
      unfold Quantities.named at ih ⊢
      rw [List.filterMap_cons, List.filterMap_cons, ih]

/-- **A body ignores what is no name in it.** -/
theorem ignores_iff : b.Ignores w ↔ b.quantities.contains w = false := by
  constructor
  · intro h
    by_contra hknown
    rw [Bool.not_eq_false] at hknown
    obtain ⟨q, hq⟩ := Option.isSome_iff_exists.1 hknown
    -- a token with the name is an operand, even if it cannot be read
    have hread := h.operand [⟨w, 0, .word⟩]
    have hnone : [(⟨w, 0, .word⟩ : Token)].filter (fun x ↦ x.text ≠ w) = [] := by simp
    have hnamed : b.quantities.named [⟨w, 0, .word⟩] = [q] := by simp [Quantities.named, hq]
    rw [hnone, readOperands, readOperands, hnamed] at hread
    dsimp only [Quantities.named, List.filterMap_nil, List.find?_nil] at hread
    split at hread
    · cases hread
    · cases (Prod.mk.inj (Except.ok.inj hread)).1
  · intro h
    have hget : b.quantities.get? w = none := by
      rwa [NameIndex.contains, Option.isSome_eq_false_iff, Option.isNone_iff_eq_none] at h
    refine ⟨fun ts ↦ ?_, fun n line a ha htarget ↦ ?_, Substitution.replace_ofQuantities hget _,
      Substitution.replace_ofQuantities hget _⟩
    · rw [readOperands, readOperands, named_filter hget]
    · obtain ⟨-, -, hbegun⟩ := Assignment.begun_of_begin? ha
      cases h.symm.trans (htarget ▸ hbegun.known)

end Body

/-! ### The names of calls -/

namespace Tables

variable {t : Tables} {calls : List Call} {s : Scope} {raw : Text} {n : Name}

/-- One of some calls has declared a line in a scope in which `n` is the first token behind the type
words. -/
def DeclaredAs (t : Tables) (calls : List Call) (s : Scope) (n : Name) : Prop :=
  ∃ raw front name after, DeclaredAmong t calls s raw n ∧ HasName raw front name after ∧
    name.text = n

theorem exists_hasName_of_declare {t' : Tables} {file : Text} {targets : List Scope} {line : Int}
    {level : Level} {attributes : Name → Attributes}
    (h : t.declare file targets raw line level attributes = .ok (n, t')) :
    ∃ front name after, HasName raw front name after ∧ name.text = n := by
  obtain ⟨d, hread, -, -, rfl, -⟩ := declare_eq_ok_iff.1 h
  obtain ⟨code, comment, front, name, rest, hsplit, htokens, hrun, hname, rfl⟩ :=
    DeclarationLine.read_eq_ok_iff.1 hread
  exact ⟨front, name, rest, ⟨⟨code, comment, hsplit, htokens⟩, hrun, hname⟩, rfl⟩

/-- What is declared under a name has it as its first token behind the type words. -/
theorem exists_declaredAmong_iff :
    (∃ raw, DeclaredAmong t calls s raw n) ↔ DeclaredAs t calls s n := by
  constructor
  · rintro ⟨raw, hdeclared⟩
    obtain ⟨before, c, later, -, hdeclares⟩ := id hdeclared
    have hname : ∃ front name after, HasName raw front name after ∧ name.text = n := by
      cases hdeclares with
      | declare _ declared => exact exists_hasName_of_declare declared
      | readDescription _ raw_eq accepted =>
        obtain ⟨line, -, haccepts⟩ := accepted.line
        exact raw_eq ▸ exists_hasName_of_declare haccepts.declare_eq
    obtain ⟨front, name, after, hline, htext⟩ := hname
    exact ⟨raw, front, name, after, hdeclared, hline, htext⟩
  · rintro ⟨raw, front, name, after, hdeclared, -, -⟩
    exact ⟨raw, hdeclared⟩

/-- The tables that calls start from have words for names, if they have any. -/
theorem ofClass_of_start (ht : t = empty ∨ t = withBuiltins)
    (hn : (t.quantities s).contains n = true) :
    OfClass .word n ∧ isTypeWord n = false := by
  obtain ⟨q, hq⟩ := Option.isSome_iff_exists.1 hn
  rcases ht with hempty | hbuiltins
  · have hnone : (t.quantities s).get? n = none := by
      rw [hempty]
      cases s with
      | params => rfl
      | routine r => cases r <;> rfl
    cases hnone.symm.trans hq
  · cases s with
    | params =>
      rw [quantities, hbuiltins, get?_withBuiltins_params] at hq
      cases hq
    | routine r =>
      rw [quantities, hbuiltins] at hq
      obtain ⟨b, hb, hgives⟩ := exists_builtin_of_get? hq
      obtain ⟨b', hb', d, hread, hname⟩ := hgives.isName hb
      rw [← NameIndex.name_of_get? hq, ← hname]
      exact Builtin.ofClass_of_all d (List.mem_filterMap.2 ⟨b', hb', Builtin.line?_of_read hread⟩)

/-- The tables that calls start from have no statements. -/
theorem statements_of_start (ht : t = empty ∨ t = withBuiltins) (r : Routine) :
    (t.body r).statements = [] := by
  rcases ht with hempty | hbuiltins
  · rw [hempty]
    cases r <;> rfl
  · rw [hbuiltins]
    exact withBuiltins_statements r

/-- An operator run is a name if and only if it was declared. -/
theorem contains_iff_declaredAs (ht : t = empty ∨ t = withBuiltins) (hop : OfClass .operator n) :
    ((calls.foldl after t).quantities s).contains n = true ↔ DeclaredAs t calls s n := by
  rw [contains_foldl_after_iff, exists_declaredAmong_iff, or_iff_right]
  intro hstart
  cases (ofClass_of_start ht hstart).1.unique hop

/-- **The names after any calls.** Each is a word or an operator run, and no type word. An operator
run is a name in a scope if and only if a line was declared there that has it as its first token
behind the type words. Where it is none, its tokens are ignored, and no statement reads it or
assigns to it. A line whose name is an operator run is judged as any other. As no name is lost, what
is no name in the end has been none at any moment within the calls. -/
theorem names_of_calls (ht : t = empty ∨ t = withBuiltins) (calls : List Call) :
    (∀ s n, ((calls.foldl after t).quantities s).contains n = true →
      (OfClass .word n ∨ OfClass .operator n) ∧ isTypeWord n = false) ∧
    ∀ n, OfClass .operator n →
      (∀ s, ((calls.foldl after t).quantities s).contains n = true ↔ DeclaredAs t calls s n) ∧
      (∀ r, ((calls.foldl after t).body r).Ignores n ↔ ¬ DeclaredAs t calls (.routine r) n) ∧
      (∀ r, ∀ s ∈ ((calls.foldl after t).body r).statements,
        n ∈ s.action.operands ∨ s.action.target? = some n → DeclaredAs t calls (.routine r) n) ∧
      ∀ raw front name later, HasName raw front name later → name.text = n →
        ∀ file targets line level attributes, ((calls.foldl after t).declare file targets raw line
            level attributes).map Prod.fst =
          if (calls.foldl after t).knows targets n then
            .error (.located file (errorLine line) (.duplicateDeclaration n) raw)
          else if (front ++ name :: later).getLast?.any Token.isTerminator then .ok n
          else .error (.located file (errorLine line) .missingTerminator raw) := by
  refine ⟨fun s n hn ↦ ?_, fun n hop ↦ ⟨fun s ↦ contains_iff_declaredAs ht hop, fun r ↦ ?_,
    fun r s hs hmentions ↦ ?_, ?_⟩⟩
  · rcases contains_foldl_after_iff.1 hn with hstart | hdeclared
    · obtain ⟨hword, htype⟩ := ofClass_of_start ht hstart
      exact ⟨.inl hword, htype⟩
    · obtain ⟨raw, front, name, after, -, hline, rfl⟩ := exists_declaredAmong_iff.1 hdeclared
      exact hline.name_ofClass
  · rw [Body.ignores_iff, ← contains_iff_declaredAs ht hop, Bool.not_eq_true]
    rfl
  · have hstart : ∀ r, (t.body r).KnowsOperands := by
      intro r s hs
      rw [statements_of_start ht] at hs
      cases hs
    exact (contains_iff_declaredAs ht hop).1
      (knowsOperands_foldl_after hstart calls r s hs n hmentions)
  · rintro raw front name later hline rfl file targets line level attributes
    rw [map_fst_declare, hline.judge_eq]
    split
    · rfl
    split <;> rfl

/-- A description that declares a pointer to a function and calls the function. -/
def pointerText : Text :=
  unlines <| List.map String.toList [
    "post() \x7b",
    "    float (*f)(int);",
    "    float t;",
    "    t = (*f)(1) * 2;",
    "\x7d"]

/-- Reading `pointerText`. -/
def pointerCall : Call :=
  .readDescription ⟨"pointer.metric".toList, "pointer".toList⟩ pointerText

theorem reading_of_pointerText :
    (([pointerCall].foldl after empty).quantities (.routine .post)).contains "(*".toList = true ∧
      (([pointerCall].foldl after empty).body .post).statements.map Statement.action =
        [.assignment ['t'] ['='] ["(*".toList]] := by
  decide +kernel

theorem names_of_calls_pointerText :
    DeclaredAs empty [pointerCall] (.routine .post) "(*".toList ∧
      ¬ (([pointerCall].foldl after empty).body .post).Ignores "(*".toList := by
  obtain ⟨-, hoperators⟩ := names_of_calls (t := empty) (.inl rfl) [pointerCall]
  obtain ⟨hnames, hignores, -, -⟩ := hoperators "(*".toList (by decide)
  have hdeclared := (hnames (.routine .post)).1 reading_of_pointerText.1
  exact ⟨hdeclared, fun h ↦ (hignores .post).1 h hdeclared⟩

/-- **A name need not be a word.** The line `float (*f)(int);` declares `(*`, and a statement with
that token reads it. -/
theorem exists_operator_name : ∃ (calls : List Call) (n : Name),
    ((calls.foldl after empty).quantities (.routine .post)).contains n = true ∧
      ¬ OfClass .word n ∧
      ∃ s ∈ ((calls.foldl after empty).body .post).statements, n ∈ s.action.operands := by
  obtain ⟨hknown, hactions⟩ := reading_of_pointerText
  obtain ⟨s, ss, hss, hs, -⟩ := List.map_eq_cons_iff.1 hactions
  refine ⟨[pointerCall], "(*".toList, hknown, by decide, s, ?_, ?_⟩
  · rw [hss]
    exact List.mem_cons_self
  · rw [hs]
    exact List.mem_singleton_self _

end Tables

end RankMetric
