import RankMetric.Proofs.DeclarationOrder

/-!
# The initializers of built-ins

Some built-ins have an initializer, which is code of the search engine and no part of a description.
It is written out like any other initializer, so every token of it that is a name with a macro is
replaced. No token of it is the name of a built-in (`Builtin.not_isName_of_mem_runs`) and what a
routine declares has no macro, but a parameter may have the name of anything that the code mentions
(`Metric.contains_macros_iff`).

`Metric.render_builtin_eq_iff` is the result: the code is written as it is if and only if no
parameter has the name of one of its tokens. That a replacement cannot go unnoticed is seen from its
length, since the macro of a parameter ends with the name (`Substitution.apply_eq_self_iff`).
-/

namespace RankMetric

open Text

/-! ### Substitutions that change nothing -/

namespace Substitution

variable {m : Substitution} {w s : Text} {ws : List Text}

theorem replace_of_get?_eq_none (h : m.get? w = none) : m.replace w = w := by
  rw [replace, h]

theorem replace_of_get?_eq_some {e : Name × Text} (h : m.get? w = some e) : m.replace w = e.2 := by
  rw [replace, h]

/-- The substitution has only longer texts for some tokens. -/
def Lengthens (m : Substitution) (ws : List Text) : Prop :=
  ∀ w ∈ ws, ∀ e, m.get? w = some e → w.length < e.2.length

theorem Lengthens.length_le (h : m.Lengthens ws) :
    ws.flatten.length ≤ (ws.flatMap m.replace).length := by
  induction ws with
  | nil => exact le_rfl
  | cons w ws ih =>
    obtain ⟨hw, hws⟩ := List.forall_mem_cons.1 h
    rw [List.flatten_cons, List.flatMap_cons, List.length_append, List.length_append]
    refine Nat.add_le_add ?_ (ih hws)
    cases hget : m.get? w with
    | none => rw [replace_of_get?_eq_none hget]
    | some e =>
      rw [replace_of_get?_eq_some hget]
      exact (hw e hget).le

theorem Lengthens.flatMap_replace_eq_iff (h : m.Lengthens ws) :
    ws.flatMap m.replace = ws.flatten ↔ ∀ w ∈ ws, m.get? w = none := by
  induction ws with
  | nil => simp
  | cons w ws ih =>
    obtain ⟨hw, hws⟩ := List.forall_mem_cons.1 h
    rw [List.flatten_cons, List.flatMap_cons, List.forall_mem_cons]
    cases hget : m.get? w with
    | none =>
      rw [replace_of_get?_eq_none hget, List.append_cancel_left_eq, ih hws]
      simp
    | some e =>
      -- what is lost in length at this token cannot be made up for at the others
      have hlonger := hw e hget
      have hrest := Lengthens.length_le hws
      rw [replace_of_get?_eq_some hget]
      refine iff_of_false (fun heq ↦ ?_) (by simp)
      have hlength := congrArg List.length heq
      rw [List.length_append, List.length_append] at hlength
      omega

/-- **A substitution by longer texts** leaves a text as it is if and only if it has no token of the
text for a name. -/
theorem apply_eq_self_iff (h : m.Lengthens (runs s)) :
    m.apply s = s ↔ ∀ w ∈ runs s, m.get? w = none := by
  rw [← h.flatMap_replace_eq_iff, flatten_runs]
  rfl

end Substitution

/-! ### Parameters and macros -/

namespace Reader

variable {src : Source} {t : Tables} {lines : List Text} {rd : Reader} {n : Name}

/-- The macro of a parameter. -/
theorem DeclaresParameter.exists_macroText (h : DeclaresParameter src t lines n)
    (hrun : ({ tables := t } : Reader).run src 1 lines = .ok rd) (r : Routine) :
    ∃ q text, (rd.tables.body r).quantities.get? n = some q ∧ q.macroText = some text := by
  obtain ⟨k, rd₀, raw, t', haccepted⟩ := h
  obtain ⟨line, -, haccepts⟩ := haccepted.line
  obtain ⟨d, q, -, -, -, hisOf, -, -, hget⟩ := Tables.exists_record_of_declare haccepts.declare_eq
  have hq : (t'.body r).quantities.get? n = some q :=
    (hget (.routine r) n).trans (if_pos ⟨mem_parameterScopes _, rfl⟩)
  obtain ⟨q', hq', -, heq⟩ := ((haccepted.grows hrun).body r).quantities n q hq
  refine ⟨q', "opt->u.".toList ++ src.metric ++ '.' :: n, hq', ?_⟩
  rw [heq]
  exact hisOf.macroText_eq

end Reader

namespace Metric

variable {src : Source} {pr : Propagation} {text : Text} {m : Metric} {r : Routine} {n : Name}
  {q : Quantity} {s : Text}

/-- **A macro for a name that is no built-in** is that of a parameter. -/
theorem declaresParameter_of_get?_macros (h : compile src pr text = .ok m)
    (hn : ¬ Builtin.IsName n) {e : Name × Text} (he : (m.body r).macros.get? n = some e) :
    Reader.DeclaresParameter src Tables.withBuiltins (Text.lines text) n ∧
      e.2 = '(' :: ("opt->u.".toList ++ src.metric ++ '.' :: n) ++ [')'] := by
  obtain ⟨q, macroText, hq, hmacroText, rfl⟩ := Body.get?_macros_eq_some_iff.1 he
  obtain rfl := NameIndex.name_of_get? hq
  rcases (origin_of_compile h hq).cases_builtin with ⟨-, b, hb, hgives⟩ | ⟨-, k, rd, D, hby⟩
  · exact absurd (hgives.isName hb) hn
  · obtain ⟨⟨raw, rfl⟩, rfl⟩ := hby.exists_ofParameter hmacroText
    obtain ⟨t', haccepted⟩ := hby.accepted
    exact ⟨⟨k, rd, raw, t', haccepted⟩, rfl⟩

/-- **Among the names that are no built-ins** those with a macro are the parameters. -/
theorem contains_macros_iff (h : compile src pr text = .ok m) (hn : ¬ Builtin.IsName n) :
    (m.body r).macros.contains n = true ↔ m.params.contains n = true := by
  obtain ⟨comments, t, hread, rfl⟩ := readDescription_of_compile h
  obtain ⟨rd, hrun, rfl⟩ := Tables.exists_run_of_readDescription hread
  show _ ↔ rd.tables.params.contains n = true
  rw [Tables.contains_params_iff hrun]
  constructor
  · intro hnames
    obtain ⟨e, he⟩ := Option.isSome_iff_exists.1 hnames
    exact (declaresParameter_of_get?_macros h hn he).1
  · intro hdeclares
    obtain ⟨q, macroText, hq, hmacroText⟩ := hdeclares.exists_macroText hrun r
    have hq' : ((ofTables src pr comments rd.tables).body r).quantities.get? n = some q := by
      rw [body_ofTables_quantities, hq]
    rw [NameIndex.contains, Body.get?_macros hq' hmacroText, Option.isSome_some]

/-- The macro of a parameter is longer than its name. -/
theorem lengthens_macros (h : compile src pr text = .ok m) {ws : List Text}
    (hws : ∀ w ∈ ws, ¬ Builtin.IsName w) : (m.body r).macros.Lengthens ws := by
  intro w hw e he
  rw [(declaresParameter_of_get?_macros h (hws w hw) he).2]
  simp only [List.cons_append, List.length_cons, List.length_append]
  omega

/-- A declaration is written as it is if and only if its initializer is. -/
theorem render_eq_iff {dent : Nat} {σ : Substitution} (hs : q.initializer = some s)
    (hstar : q.type.getLast? ≠ some '*') :
    q.render dent σ = spaces dent ++ q.type ++ ' ' :: q.name ++ ' ' :: s ++ [';'] ↔
      σ.apply s = s := by
  unfold Quantity.render renderDeclaration
  simp [hs, hstar]

/-- **When the code of a built-in is written as it is.** A used built-in with an initializer is
declared under its own name, with its own type and its own initializer. But the tokens of the
initializer that parameters have for a name are replaced, so it is written as it is if and only if
there are none. -/
theorem render_builtin_eq_iff (h : compile src pr text = .ok m)
    (hq : q ∈ (m.body r).usedQuantities) (hbuiltin : q.isBuiltin = true)
    (hs : q.initializer = some s) (dent : Nat) :
    (∃ b ∈ Builtin.all, ∃ d, DeclarationLine.read b.declaration = .ok d ∧ q.name = d.name ∧
      q.type = d.type ∧ d.initializer = some s) ∧
    q.render dent (m.body r).macros ++ ['\n'] <:+:
      (m.body r).renderQuantities dent (m.body r).macros ∧
    (q.render dent (m.body r).macros =
        spaces dent ++ q.type ++ ' ' :: q.name ++ ' ' :: s ++ [';'] ↔
      ∀ w ∈ tokenize s, m.params.contains w.text = false) := by
  have hget := (Body.mem_usedQuantities_iff.1 hq).1
  obtain ⟨b, hb, d, hread, hisOf⟩ := (origin_of_compile h hget).exists_builtin hbuiltin
  have hd : d.initializer = some s := hisOf.initializer_eq.symm.trans hs
  obtain ⟨hmacroText, hstar⟩ :=
    Builtin.initializers_of_all.1 b hb d (Builtin.line?_of_read hread) s hd
  have hforeign : ∀ w ∈ runs s, ¬ Builtin.IsName w := fun w hw ↦
    Builtin.not_isName_of_mem_runs hb hread hd hw
  refine ⟨⟨b, hb, d, hread, hisOf.name_eq, hisOf.type_eq, hd⟩, ?_, ?_⟩
  · refine Body.isInfix_renderQuantities hq (Quantity.isRendered_iff.2 ⟨?_, .inr (.inl ?_)⟩)
    · rw [hisOf.macroText_eq, hmacroText]
      rfl
    · rw [hs, Option.isSome_some]
  · rw [render_eq_iff hs (hisOf.type_eq ▸ hstar),
      Substitution.apply_eq_self_iff (lengthens_macros h hforeign), ← tokenize_texts,
      List.forall_mem_map]
    refine forall₂_congr fun w hw ↦ ?_
    have hw' : w.text ∈ runs s := tokenize_texts s ▸ List.mem_map_of_mem hw
    rw [← Option.isNone_iff_eq_none, ← Option.isSome_eq_false_iff, ← NameIndex.contains,
      ← Bool.not_eq_true, contains_macros_iff h (hforeign _ hw'), Bool.not_eq_true]

/-- The parameter of `scaledText` has the name of a token in the code of `N`. -/
theorem exists_builtin_of_scaledText : ∃ m, compile scaledSource .heuristic scaledText = .ok m ∧
    ∃ q ∈ (m.body .post).declared, q.isBuiltin = true ∧
      q.initializer = some "= docmap_entries(idx->map)".toList ∧
      q.render 4 (m.body .post).macros ≠ spaces 4 ++ q.type ++ ' ' :: q.name ++
        ' ' :: "= docmap_entries(idx->map)".toList ++ [';'] := by
  obtain ⟨⟨m, hm, -, -, -, -, q, hq, hname, htype, hs, hbuiltin, hrender⟩, -⟩ :=
    reading_of_scaledText
  have hrender' : q.render 4 (m.body .post).macros = _ := hrender
  refine ⟨m, toOption_eq_some_iff.1 hm, q, hq, hbuiltin, hs, ?_⟩
  rw [hrender', htype, hname]
  decide +kernel

theorem render_builtin_eq_iff_scaledText : ∃ m, compile scaledSource .heuristic scaledText = .ok m ∧
    ∃ w ∈ tokenize "= docmap_entries(idx->map)".toList, m.params.contains w.text = true := by
  obtain ⟨m, hm, q, hq, hbuiltin, hs, hchanged⟩ := exists_builtin_of_scaledText
  obtain ⟨-, -, hiff⟩ := render_builtin_eq_iff hm (List.mem_of_mem_filter hq) hbuiltin hs 4
  refine ⟨m, hm, ?_⟩
  by_contra hnone
  exact hchanged (hiff.2 fun w hw ↦ Bool.eq_false_iff.2 fun hw' ↦ hnone ⟨w, hw, hw'⟩)

/-- **A parameter takes over a name in the code of the search engine.** -/
theorem exists_parameter_in_builtin : ∃ m,
    compile scaledSource .heuristic scaledText = .ok m ∧
      ∃ q ∈ (m.body .post).usedQuantities, q.isBuiltin = true ∧
        q.initializer = some "= docmap_entries(idx->map)".toList ∧
        q.render 4 (m.body .post).macros ++ ['\n'] <:+:
          (m.body .post).renderQuantities 4 (m.body .post).macros ∧
        q.render 4 (m.body .post).macros ≠ spaces 4 ++ q.type ++ ' ' :: q.name ++
          ' ' :: "= docmap_entries(idx->map)".toList ++ [';'] := by
  obtain ⟨m, hm, q, hq, hbuiltin, hs, hchanged⟩ := exists_builtin_of_scaledText
  obtain ⟨hused, hrendered⟩ := List.mem_filter.1 hq
  exact ⟨m, hm, q, hused, hbuiltin, hs, Body.isInfix_renderQuantities hused hrendered, hchanged⟩

end Metric

end RankMetric
