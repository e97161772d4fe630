import RankMetric.Proofs.Provision
import RankMetric.Proofs.QuantityOrigins

/-!
# The order of the declarations

The text that is generated for the used quantities of a routine has two kinds of parts, declarations
and the code that gives values (`Body.Part`). All declarations come first, in the order of their
lines and those of one line in the order of names (`Quantity.Precedes`), and the built-ins stand on
the line before all others.

* `Metric.declarations_in_order`: there is one declaration for each used quantity that needs one,
  and what the initializer of a declaration could name is declared before it. The second half holds
  since an initializer names what earlier lines have declared (`DeclaredBy.origin_of_get?`), and
  what it names is used (`DeclaredBy.contains_used`).
* `Metric.declared_ahead_of_code`: an initializer may read a quantity that only code gives a value
  to. It is declared before it is read, but it gets its value after that, since the code of a
  quantity comes after all declarations (`Body.not_code_ahead`).
-/

namespace RankMetric

open List (Sublist)
open Text

/-! ### Pairs in order -/

/-- Of two members of a list whose members are related in order, one that is not related to the
other stands before it or is the other. -/
theorem pair_sublist_of_pairwise {α : Type} {R : α → α → Prop} {l : List α} {a b : α}
    (h : l.Pairwise R) (ha : a ∈ l) (hb : b ∈ l) (hne : b ≠ a) (hR : ¬ R b a) :
    [a, b].Sublist l := by
  obtain ⟨front, rest, rfl⟩ := List.append_of_mem ha
  rcases List.mem_append.1 hb with hfront | hrest
  · exact absurd ((List.pairwise_append.1 h).2.2 b hfront a List.mem_cons_self) hR
  · have hb' := (List.mem_cons.1 hrest).resolve_left hne
    exact ((List.singleton_sublist.2 hb').cons_cons a).trans (List.sublist_append_right _ _)

/-- Nothing that the second of two lists alone has stands before what the first alone has. -/
theorem not_pair_sublist_append {α : Type} {l l' : List α} {a b : α} (ha : a ∉ l) (hb : b ∉ l') :
    ¬ [a, b].Sublist (l ++ l') := by
  intro h
  obtain ⟨xs, ys, hxy, hxs, hys⟩ := List.sublist_append_iff.1 h
  cases xs with
  | nil =>
    obtain rfl : [a, b] = ys := hxy
    exact hb (hys.subset (by simp))
  | cons x xs =>
    obtain ⟨rfl, -⟩ := List.cons.inj hxy
    exact ha (hxs.subset List.mem_cons_self)

/-! ### The order of quantities -/

namespace Quantity

/-- The order of declarations: by line, and on one line by name. -/
def Precedes (p q : Quantity) : Prop :=
  p.line < q.line ∨ p.line = q.line ∧ p.name.before q.name = true

variable {p q : Quantity} {qs : List Quantity}

theorem Precedes.line_le (h : p.Precedes q) : p.line ≤ q.line := by
  rcases h with hlt | ⟨heq, -⟩
  · exact hlt.le
  · exact heq.le

theorem Precedes.ne (h : p.Precedes q) : p ≠ q := by
  rintro rfl
  rcases h with hlt | ⟨-, hbefore⟩
  · exact lt_irrefl _ hlt
  · rw [Name.before_irrefl] at hbefore
    cases hbefore

/-- A quantity finds its place among those that are in order and have later names. -/
theorem pairwise_insertByLine (h : qs.Pairwise Precedes)
    (hq : ∀ p ∈ qs, q.name.before p.name = true) : (insertByLine q qs).Pairwise Precedes := by
  induction qs with
  | nil => exact List.pairwise_singleton _ _
  | cons p qs ih =>
    obtain ⟨hp, hrest⟩ := List.pairwise_cons.1 h
    rw [insertByLine]
    split
    · next hle =>
      refine List.pairwise_cons.2 ⟨fun x hx ↦ ?_, h⟩
      have hline : q.line ≤ x.line := by
        rcases List.mem_cons.1 hx with rfl | hx'
        · exact hle
        · exact hle.trans (hp x hx').line_le
      exact hline.lt_or_eq.imp_right fun heq ↦ ⟨heq, hq x hx⟩
    · next hgt =>
      have hrest' := ih hrest fun x hx ↦ hq x (List.mem_cons_of_mem _ hx)
      refine List.pairwise_cons.2 ⟨fun x hx ↦ ?_, hrest'⟩
      rcases mem_insertByLine.1 hx with rfl | hx
      · exact .inl (not_le.1 hgt)
      · exact hp x hx

/-- **Sorting by line** puts quantities that are in the order of names into the order of
declarations. -/
theorem pairwise_sortByLine (h : qs.Pairwise fun p q ↦ p.name.before q.name = true) :
    (sortByLine qs).Pairwise Precedes := by
  induction qs with
  | nil => exact .nil
  | cons q qs ih =>
    obtain ⟨hq, hrest⟩ := List.pairwise_cons.1 h
    exact pairwise_insertByLine (ih hrest) fun p hp ↦ hq p (mem_sortByLine.1 hp)

theorem isRendered_iff : q.isRendered = true ↔ q.macroText = none ∧
    (q.isBuiltin = false ∨ q.initializer.isSome = true ∨ q.fallbackInit.isSome = true) := by
  simp [isRendered, or_assoc]

end Quantity

/-! ### The declarations of a body -/

namespace Body

variable {b : Body} {p q : Quantity} {dent : Nat} {m : Substitution}

theorem pairwise_usedQuantities (b : Body) : b.usedQuantities.Pairwise Quantity.Precedes := by
  refine Quantity.pairwise_sortByLine (b.used.ordered.filterMap _ ?_)
  intro n n' hn q hq q' hq'
  obtain rfl := NameIndex.name_of_get? hq
  obtain rfl := NameIndex.name_of_get? hq'
  exact hn

/-- The used quantities that are declared in the generated text, in order. -/
def declared (b : Body) : List Quantity :=
  b.usedQuantities.filter Quantity.isRendered

theorem mem_declared_iff : q ∈ b.declared ↔
    b.quantities.get? q.name = some q ∧ b.used.contains q.name = true ∧ q.macroText = none ∧
      (q.isBuiltin = false ∨ q.initializer.isSome = true ∨ q.fallbackInit.isSome = true) := by
  rw [declared, List.mem_filter, mem_usedQuantities_iff, Quantity.isRendered_iff, and_assoc]

theorem pairwise_declared (b : Body) : b.declared.Pairwise Quantity.Precedes :=
  b.pairwise_usedQuantities.filter _

/-- Every name is declared once. -/
theorem nodup_names_declared (b : Body) : (b.declared.map Quantity.name).Nodup := by
  refine List.Pairwise.map _ (fun p q h ↦ h) (b.pairwise_declared.imp_of_mem ?_)
  intro p q hp hq hprecedes hname
  have hp' := (mem_declared_iff.1 hp).1
  rw [hname, (mem_declared_iff.1 hq).1] at hp'
  exact hprecedes.ne (Option.some.inj hp').symm

/-- What stands on an earlier line is declared earlier. -/
theorem pair_sublist_declared (hp : p ∈ b.declared) (hq : q ∈ b.declared) (h : p.line < q.line) :
    [p, q].Sublist b.declared := by
  refine pair_sublist_of_pairwise b.pairwise_declared hp hq ?_ fun hprecedes ↦ ?_
  · rintro rfl
    exact lt_irrefl _ h
  · exact absurd hprecedes.line_le (not_le.2 h)

/-! ### The parts of the generated text -/

/-- A part of the text that is generated for the used quantities. -/
inductive Part where
  /-- The declaration of a quantity. -/
  | declaration (q : Quantity)
  /-- The code that gives a quantity its value. -/
  | code (q : Quantity)

/-- The text of a part. -/
def Part.text (dent : Nat) (m : Substitution) : Part → Text
  | .declaration q => q.render dent m
  | .code q => (q.renderFallback? dent).getD []

/-- The parts of the text that is generated for the used quantities, in order. -/
def parts (b : Body) : List Part :=
  b.declared.map .declaration ++
    (b.usedQuantities.filter fun q ↦ q.fallbackInit.isSome).map .code

/-- **The generated text is that of the parts.** -/
theorem renderQuantities_eq (b : Body) (dent : Nat) (m : Substitution) :
    b.renderQuantities dent m = unlines (b.parts.map (Part.text dent m)) := by
  have hcode : ∀ qs : List Quantity, qs.filterMap (Quantity.renderFallback? dent) =
      (qs.filter fun q ↦ q.fallbackInit.isSome).map (Part.text dent m ∘ .code) := by
    intro qs
    induction qs with
    | nil => rfl
    | cons q qs ih =>
      rw [List.filterMap_cons, List.filter_cons, ih]
      cases hq : q.fallbackInit <;> simp [Quantity.renderFallback?, Part.text, hq]
  rw [renderQuantities, hcode, parts, List.map_append, List.map_map, List.map_map]
  rfl

/-- **No code comes before a declaration.** -/
theorem not_code_ahead (b : Body) (p q : Quantity) :
    ¬ [Part.code p, .declaration q].Sublist b.parts :=
  not_pair_sublist_append (by simp) (by simp)

/-- Whether code that gives a quantity its value comes before every declaration that reads the
quantity. -/
def GivenBeforeRead (b : Body) : Prop :=
  ∀ q ∈ b.declared, ∀ s, q.initializer = some s → ∀ p ∈ b.usedQuantities, p.macroText = none →
    p.fallbackInit.isSome = true → p.name ∈ (tokenize s).map Token.text →
    [Part.code p, .declaration q].Sublist b.parts

end Body

/-! ### Compiled descriptions -/

namespace Metric

variable {src : Source} {pr : Propagation} {text : Text} {m : Metric} {r : Routine}
  {p q : Quantity}

theorem origin_of_declared (h : compile src pr text = .ok m) (hq : q ∈ (m.body r).declared) :
    Reader.Origin src Tables.withBuiltins (Text.lines text) r q :=
  origin_of_compile h (Body.mem_declared_iff.1 hq).1

/-- Built-ins are declared before all others. -/
theorem isBuiltin_of_precedes (hp : Reader.Origin src Tables.withBuiltins (Text.lines text) r p)
    (h : p.Precedes q) (hq : q.isBuiltin = true) : p.isBuiltin = true := by
  rcases hp.cases_builtin with ⟨hbuiltin, -⟩ | ⟨-, k, rd, D, hdeclared⟩
  · exact hbuiltin
  · have hle := h.line_le
    rw [hdeclared.line_eq, beq_iff_eq.1 hq, builtinLine] at hle
    omega

/-- What was there before a quantity was declared has the number of an earlier line, if each line
has a number of its own. -/
theorem line_lt_of_declaredBy {k : Nat} {rd : Reader} {D : Declaring} {n : Name}
    (hby : Reader.DeclaredBy src Tables.withBuiltins (Text.lines text) r q k rd D)
    (hp : (rd.tables.body r).quantities.get? n = some p) (hfits : FitsNumbers (Text.lines text)) :
    p.line < q.line := by
  have hk := hby.lt_length
  rw [hby.line_eq, hfits.lineNumber_eq (by omega)]
  rcases (hby.origin_of_get? hp).cases_builtin with ⟨hbuiltin, -⟩ | ⟨-, k', rd', D', hdeclared⟩
  · rw [beq_iff_eq.1 hbuiltin, builtinLine]
    omega
  · have hlt := hdeclared.lt_length
    rw [List.length_take] at hlt
    rw [hdeclared.line_eq, hfits.lineNumber_eq (by omega)]
    omega

/-- **What an initializer could name is declared too**, and before it if each line has a number of
its own. -/
theorem exists_declared_of_initializer {k : Nat} {rd : Reader} {D : Declaring} {s : Text}
    {w : Token} (h : compile src pr text = .ok m) (hq : q ∈ (m.body r).declared)
    (hby : Reader.DeclaredBy src Tables.withBuiltins (Text.lines text) r q k rd D)
    (hs : q.initializer = some s) (hw : w ∈ significant s) (hword : w.isWord = true)
    (hp : (rd.tables.body r).quantities.get? w.text = some p) (hrendered : p.isRendered = true) :
    ∃ p' ∈ (m.body r).declared, p' = { p with level := p'.level } ∧
      (FitsNumbers (Text.lines text) → [p', q].Sublist (m.body r).declared) := by
  obtain ⟨rd', hrun, hbody⟩ := exists_run_of_compile h
  obtain ⟨hquantities, -, hused⟩ := hbody r
  obtain ⟨p', hp', heq⟩ := hby.exists_get? hp hrun
  have hname : p'.name = w.text := NameIndex.name_of_get? hp'
  have hclass : TokenClass.ofRun w.text = .word :=
    (cls_of_mem_significant hw).symm.trans (beq_iff_eq.1 hword)
  have hknown : (rd.tables.body r).quantities.contains w.text = true := by
    rw [NameIndex.contains, hp, Option.isSome_some]
  have hmentioned := hby.contains_used hs (List.mem_map_of_mem hw) hclass hknown hrun
  have hdeclared : p' ∈ (m.body r).declared := by
    refine List.mem_filter.2 ⟨Body.mem_usedQuantities_iff.2 ?_, ?_⟩
    · rw [hquantities, hname]
      exact ⟨hp', hused _ hmentioned⟩
    · rw [heq]
      exact hrendered
  refine ⟨p', hdeclared, heq, fun hfits ↦ Body.pair_sublist_declared hdeclared hq ?_⟩
  -- it was there before the line, so it stands on an earlier one
  have hline : p'.line = p.line := by rw [heq]
  rw [hline]
  exact line_lt_of_declaredBy hby hp hfits

/-- **Declared before it is read, but given its value after that.** If an initializer reads a used
quantity that only code gives a value to, that quantity is a built-in and the initializer is one of
the description. So the built-in is declared before, but its code follows all declarations. -/
theorem declared_ahead_of_code (h : compile src pr text = .ok m) (r : Routine) :
    (∀ dent σ, (m.body r).renderQuantities dent σ =
      unlines ((m.body r).parts.map (Body.Part.text dent σ))) ∧
    ∀ q ∈ (m.body r).declared, ∀ s, q.initializer = some s → ∀ p ∈ (m.body r).usedQuantities,
      p.macroText = none → p.fallbackInit.isSome = true →
      p.name ∈ (tokenize s).map Token.text →
      [Body.Part.declaration p, .declaration q, .code p].Sublist (m.body r).parts ∧
        ¬ [Body.Part.code p, .declaration q].Sublist (m.body r).parts := by
  refine ⟨(m.body r).renderQuantities_eq, fun q hq s hs p hp hmacroText hcode hname ↦
    ⟨?_, Body.not_code_ahead _ p q⟩⟩
  rw [tokenize_texts] at hname
  -- only built-ins have such code
  obtain ⟨hpline, b, hb, hgives⟩ : p.line = builtinLine ∧ ∃ b ∈ Builtin.all, b.Gives p := by
    rcases (origin_of_compile h (Body.mem_usedQuantities_iff.1 hp).1).cases_builtin with
      ⟨hbuiltin, hb⟩ | ⟨-, k, rd, D, hby⟩
    · exact ⟨beq_iff_eq.1 hbuiltin, hb⟩
    · rw [hby.fallbackInit_eq_none] at hcode
      cases hcode
  -- and no initializer of a built-in mentions one
  have hlt : p.line < q.line := by
    rcases (origin_of_declared h hq).cases_builtin with
      ⟨-, b', hb', d, hread, hisOf⟩ | ⟨-, k, rd, D, hby⟩
    · have hd : d.initializer = some s := hisOf.initializer_eq.symm.trans hs
      exact absurd (hgives.isName hb) (Builtin.not_isName_of_mem_runs hb' hread hd hname)
    · rw [hpline, hby.line_eq, builtinLine]
      omega
  have hpdeclared : p ∈ (m.body r).declared :=
    List.mem_filter.2 ⟨hp, Quantity.isRendered_iff.2 ⟨hmacroText, .inr (.inr hcode)⟩⟩
  have hdeclarations := (Body.pair_sublist_declared hpdeclared hq hlt).map Body.Part.declaration
  have hcodes : [Body.Part.code p].Sublist
      (((m.body r).usedQuantities.filter fun q ↦ q.fallbackInit.isSome).map .code) :=
    List.singleton_sublist.2 (List.mem_map_of_mem (List.mem_filter.2 ⟨hp, hcode⟩))
  exact hdeclarations.append hcodes

/-! ### A description -/

/-- A description whose parameter has the name of a field of the search engine, and whose first
declaration reads an average over the collection. -/
def scaledText : Text :=
  Text.unlines <| List.map String.toList [
    "parameter float map = 0.5;",
    "decode() \x7b",
    "    float norm = map / avg_D_terms;",
    "    float scale = norm * f_dt;",
    "    accumulator += scale;",
    "\x7d",
    "post() \x7b",
    "    accumulator /= N;",
    "\x7d"]

/-- The file of `scaledText`. -/
def scaledSource : Source :=
  ⟨"scaled.metric".toList, "scaled".toList⟩

/-- What is generated for the used quantities of `decode`. -/
def scaledDeclarations : Text :=
  Text.unlines <| List.map String.toList [
    "    double avg_D_terms;",
    "    float norm = (opt->u.scaled.map) / avg_D_terms;",
    "    float scale = norm * f_dt;",
    "    if (docmap_avg_words(idx->map, &avg_D_terms) != DOCMAP_OK) \x7b",
    "        return SEARCH_EINVAL;",
    "    \x7d"]

/-- What `scaledText` is compiled to, and what is known before its fourth line is read. -/
theorem reading_of_scaledText :
    (∃ m ∈ (compile scaledSource .heuristic scaledText).toOption,
      m.decode.renderQuantities 4 m.decode.macros = scaledDeclarations ∧
      (∃ q ∈ m.decode.declared, q.initializer = some "= map / avg_D_terms".toList) ∧
      (∃ q ∈ m.decode.declared, q.initializer = some "= norm * f_dt".toList ∧ q.line = 4) ∧
      (∃ p ∈ m.decode.usedQuantities, p.name = "avg_D_terms".toList ∧ p.macroText = none ∧
        p.fallbackInit.isSome = true) ∧
      ∃ q ∈ m.post.declared, q.name = ['N'] ∧ q.type = "const unsigned int".toList ∧
        q.initializer = some "= docmap_entries(idx->map)".toList ∧ q.isBuiltin = true ∧
        q.render 4 m.post.macros =
          "    const unsigned int N = docmap_entries(idx->(opt->u.scaled.map));".toList) ∧
    ∃ rd ∈ (({ tables := Tables.withBuiltins } : Reader).run scaledSource 1
        ((Text.lines scaledText).take 3)).toOption,
      ∃ p ∈ (rd.tables.body .decode).quantities.get? "norm".toList, p.isRendered = true := by
  decide +kernel

theorem average_mem_tokens :
    "avg_D_terms".toList ∈ (tokenize "= map / avg_D_terms".toList).map Token.text := by
  decide +kernel

theorem declared_ahead_of_code_scaledText : ∃ m,
    compile scaledSource .heuristic scaledText = .ok m ∧
      ∃ p q, p.name = "avg_D_terms".toList ∧ q.initializer = some "= map / avg_D_terms".toList ∧
        [Body.Part.declaration p, .declaration q, .code p].Sublist (m.body .decode).parts := by
  obtain ⟨⟨m, hm, -, ⟨q, hq, hs⟩, -, ⟨p, hp, hname, hmacroText, hcode⟩, -⟩, -⟩ :=
    reading_of_scaledText
  have hcompile := toOption_eq_some_iff.1 hm
  have hmentioned : p.name ∈ (tokenize "= map / avg_D_terms".toList).map Token.text :=
    hname ▸ average_mem_tokens
  obtain ⟨-, hparts⟩ := declared_ahead_of_code hcompile .decode
  exact ⟨m, hcompile, p, q, hname, hs, (hparts q hq _ hs p hp hmacroText hcode hmentioned).1⟩

/-- **An average is read before it is given its value.** -/
theorem exists_read_ahead_of_code : ∃ m, compile scaledSource .heuristic scaledText = .ok m ∧
    (m.body .decode).renderQuantities 4 (m.body .decode).macros = scaledDeclarations ∧
      ¬ (m.body .decode).GivenBeforeRead := by
  obtain ⟨⟨m, hm, htext, ⟨q, hq, hs⟩, -, ⟨p, hp, hname, hmacroText, hcode⟩, -⟩, -⟩ :=
    reading_of_scaledText
  have hmentioned : p.name ∈ (tokenize "= map / avg_D_terms".toList).map Token.text :=
    hname ▸ average_mem_tokens
  refine ⟨m, toOption_eq_some_iff.1 hm, htext, fun hgiven ↦ ?_⟩
  exact Body.not_code_ahead _ p q (hgiven q hq _ hs p hp hmacroText hcode hmentioned)

end Metric

end RankMetric
