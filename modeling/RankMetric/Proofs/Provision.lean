import RankMetric.Proofs.CompleteEmission

/-!
# Provision for what statements mention

The generated text must provide for every quantity that a statement mentions: put its macro in the
place of its name, or declare it and give it a value. There is nothing to provide for built-ins that
have neither, since the code around the generated text has them (`Metric.Supplies`).

`Metric.provides_mentions` is the result. It is put together from facts that know nothing of each
other.

* Reading a statement records what it mentions as used, and nothing takes that back
  (`Body.contains_used_of_mentions`).
* The substitution of a routine has the macro of every quantity (`Body.replace_macros`), and every
  statement is emitted after the substitution (`Metric.writes_of_mem`).
* The declarations of a routine have every used quantity that is to be declared
  (`Body.isInfix_renderQuantities`), and after them the code that gives it a value.
* The set-up texts have that of every used quantity (`Metric.mem_prerequisites`).
-/

namespace RankMetric

/-! ### Lists behind the generated text -/

namespace NameIndex

variable {α : Type} {name : α → Name} {a : α} {l : List α}

/-- A value that no other of a list can replace is in the index once the list was added. -/
theorem get?_foldl_insert (m : NameIndex name) (hl : ∀ b ∈ l, name b = name a → b = a)
    (ha : a ∈ l ∨ m.get? (name a) = some a) :
    (l.foldl insert m).get? (name a) = some a := by
  induction l generalizing m with
  | nil => exact ha.resolve_left List.not_mem_nil
  | cons b l ih =>
    obtain ⟨hb, hrest⟩ := List.forall_mem_cons.1 hl
    refine ih (m.insert b) hrest ?_
    rw [get?_insert]
    by_cases hname : name b = name a
    · rw [if_pos hname, hb hname]
      exact .inr rfl
    · rw [if_neg hname]
      rcases ha with ha | ha
      · exact .inl ((List.mem_cons.1 ha).resolve_left fun h ↦ hname (h ▸ rfl))
      · exact .inr ha

theorem get?_ofList (ha : a ∈ l) (hl : ∀ b ∈ l, name b = name a → b = a) :
    (ofList l : NameIndex name).get? (name a) = some a :=
  get?_foldl_insert empty hl (.inl ha)

/-- What an index answers after a list was added is of the list, or it was answered before. -/
theorem mem_or_get?_of_foldl_insert {m : NameIndex name} {n : Name}
    (h : (l.foldl insert m).get? n = some a) : a ∈ l ∨ m.get? n = some a := by
  induction l generalizing m with
  | nil => exact .inr h
  | cons b l ih =>
    rcases ih h with hmem | hget
    · exact .inl (List.mem_cons_of_mem _ hmem)
    · rw [get?_insert] at hget
      split at hget
      · obtain rfl := Option.some.inj hget
        exact .inl List.mem_cons_self
      · exact .inr hget

theorem mem_of_get?_ofList {n : Name} (h : (ofList l : NameIndex name).get? n = some a) : a ∈ l :=
  (mem_or_get?_of_foldl_insert h).resolve_right (by simp)

end NameIndex

namespace Quantity

theorem mem_insertByLine {p q : Quantity} {qs : List Quantity} :
    p ∈ insertByLine q qs ↔ p = q ∨ p ∈ qs := by
  induction qs with
  | nil => simp [insertByLine]
  | cons r qs ih =>
    rw [insertByLine]
    split
    · rw [List.mem_cons]
    · rw [List.mem_cons, ih, List.mem_cons]
      exact or_left_comm

/-- Sorting by line keeps the quantities. -/
theorem mem_sortByLine {p : Quantity} {qs : List Quantity} : p ∈ sortByLine qs ↔ p ∈ qs := by
  induction qs with
  | nil => exact Iff.rfl
  | cons q qs ih =>
    rw [sortByLine, List.foldr_cons, mem_insertByLine, List.mem_cons]
    exact or_congr_right ih

end Quantity

/-- A line is part of the text of its lines. -/
theorem Text.isInfix_unlines {l : Text} {ls : List Text} (h : l ∈ ls) :
    l ++ ['\n'] <:+: unlines ls := by
  obtain ⟨before, after, rfl⟩ := List.append_of_mem h
  refine ⟨unlines before, unlines after, ?_⟩
  rw [unlines_append, unlines_cons]
  simp

/-! ### What a body provides -/

namespace Body

variable {b : Body} {q : Quantity} {n : Name} {s : Statement}

/-- A statement that was read has left its mark on everything declared that it mentions. -/
theorem contains_used_of_mentions (h : b.Reads s) (hn : n ∈ s.mentions)
    (hknown : b.quantities.contains n = true) : (b.record s).used.contains n = true := by
  rw [contains_used_record]
  rcases List.mem_append.1 hn with htarget | hoperand
  · exact .inl (Option.mem_toList.1 htarget)
  · obtain ⟨q, hq⟩ := Option.isSome_iff_exists.1 hknown
    exact .inr (.inl (h.mem_operands_iff.2 ⟨hoperand, q, hq⟩))

/-- The substitution has the macro of a quantity. -/
theorem get?_macros {text : Text} (hq : b.quantities.get? n = some q)
    (hm : q.macroText = some text) : b.macros.get? n = some (n, '(' :: text ++ [')']) := by
  obtain rfl := NameIndex.name_of_get? hq
  let entry : Name × Text := (q.name, '(' :: text ++ [')'])
  -- names are unique, so no other entry can take the place of this one
  have hmem : ∀ {p : Quantity}, p ∈ b.quantities.toList → p.name = q.name → p = q := by
    intro p hp hname
    have hget := NameIndex.get?_of_mem hp
    rw [hname, hq] at hget
    exact (Option.some.inj hget).symm
  show b.macros.get? entry.1 = some entry
  refine NameIndex.get?_ofList ?_ fun e he hname ↦ ?_
  · refine List.mem_filterMap.2 ⟨q, NameIndex.mem_of_get? hq, ?_⟩
    rw [hm]
    rfl
  · obtain ⟨p, hp, hentry⟩ := List.mem_filterMap.1 he
    obtain ⟨s, hs, rfl⟩ := Option.map_eq_some_iff.1 hentry
    obtain rfl := hmem hp hname
    rw [hm] at hs
    rw [← Option.some.inj hs]

/-- **The names that the substitution has** are those of the quantities with a macro. -/
theorem get?_macros_eq_some_iff {e : Name × Text} : b.macros.get? n = some e ↔
    ∃ q text, b.quantities.get? n = some q ∧ q.macroText = some text ∧
      e = (n, '(' :: text ++ [')']) := by
  constructor
  · intro h
    obtain rfl : e.1 = n := NameIndex.name_of_get? h
    obtain ⟨q, hq, hentry⟩ := List.mem_filterMap.1 (NameIndex.mem_of_get?_ofList h)
    obtain ⟨text, htext, rfl⟩ := Option.map_eq_some_iff.1 hentry
    exact ⟨q, text, NameIndex.get?_of_mem hq, htext, rfl⟩
  · rintro ⟨q, text, hq, htext, rfl⟩
    exact get?_macros hq htext

/-- The name of a quantity with a macro is replaced by the macro. -/
theorem replace_macros {text : Text} (hq : b.quantities.get? n = some q)
    (hm : q.macroText = some text) : b.macros.replace n = '(' :: text ++ [')'] := by
  rw [Substitution.replace, get?_macros hq hm]

theorem mem_usedQuantities (hq : b.quantities.get? n = some q)
    (hused : b.used.contains n = true) : q ∈ b.usedQuantities := by
  obtain ⟨k, hk⟩ := Option.isSome_iff_exists.1 hused
  obtain rfl : k = n := NameIndex.name_of_get? hk
  exact Quantity.mem_sortByLine.2 (List.mem_filterMap.2 ⟨k, NameIndex.mem_of_get? hk, hq⟩)

theorem mem_usedQuantities_iff : q ∈ b.usedQuantities ↔
    b.quantities.get? q.name = some q ∧ b.used.contains q.name = true := by
  refine ⟨fun h ↦ ?_, fun h ↦ mem_usedQuantities h.1 h.2⟩
  obtain ⟨n, hn, hq⟩ := List.mem_filterMap.1 (Quantity.mem_sortByLine.1 h)
  obtain rfl := NameIndex.name_of_get? hq
  refine ⟨hq, ?_⟩
  have hused : b.used.get? q.name = some q.name := NameIndex.get?_of_mem hn
  rw [NameIndex.contains, hused, Option.isSome_some]

variable {m : Substitution} {dent : Nat}

/-- A used quantity that is to be declared is declared. -/
theorem isInfix_renderQuantities (hq : q ∈ b.usedQuantities) (hrendered : q.isRendered = true) :
    q.render dent m ++ ['\n'] <:+: b.renderQuantities dent m := by
  refine Text.isInfix_unlines (List.mem_append_left _ ?_)
  exact List.mem_map_of_mem (List.mem_filter.2 ⟨hq, hrendered⟩)

/-- The code that gives a used quantity its value stands after the declarations. -/
theorem isInfix_renderQuantities_of_fallback {text : Text} (hq : q ∈ b.usedQuantities)
    (htext : q.renderFallback? dent = some text) :
    text ++ ['\n'] <:+: b.renderQuantities dent m :=
  Text.isInfix_unlines (List.mem_append_right _ (List.mem_filterMap.2 ⟨q, hq, htext⟩))

theorem mem_prerequisites {text : Text} (hq : b.quantities.get? n = some q)
    (hused : b.used.contains n = true) (htext : q.prerequisite = some text) :
    text ∈ b.prerequisites := by
  obtain rfl := NameIndex.name_of_get? hq
  exact List.mem_filterMap.2
    ⟨q, List.mem_filter.2 ⟨NameIndex.mem_of_get? hq, hused⟩, htext⟩

end Body

/-! ### What a metric provides -/

/-- The marker that is replaced by the declarations of a routine. -/
def Routine.declarationMarker : Routine → Marker
  | .decode => .decl
  | .post => .post

namespace Metric

/-- The code of the marker for the statements of a level has some code as a line of its own. -/
def Writes (m : Metric) (r : Routine) (l : Level) (code : Text) : Prop :=
  ∀ dent, ∃ d, Text.spaces d ++ code ++ ['\n'] <:+: m.emission dent (r.markerAt l)

/-- How the generated text supplies a used quantity of a routine. -/
inductive Supplies (m : Metric) (r : Routine) (q : Quantity) : Prop
  /-- Its name is replaced by its macro, wherever a statement of the routine has it for a token. -/
  | substituted {text : Text} (macroText : q.macroText = some text)
      (replaced : ∀ s ∈ (m.body r).statements, ∀ before after,
        runs s.text = before ++ q.name :: after →
        m.Writes r s.level (before.flatMap (m.body r).macros.replace ++
          ('(' :: text ++ [')'] ++ after.flatMap (m.body r).macros.replace)))
  /-- It is declared, and given a value if an initializer cannot do that. -/
  | declared
      (declared : ∀ dent, q.render dent (m.body r).macros ++ ['\n'] <:+:
        m.emission dent r.declarationMarker)
      (given : ∀ dent text, q.renderFallback? dent = some text →
        text ++ ['\n'] <:+: m.emission dent r.declarationMarker)
  /-- It is a built-in that the surrounding code has under its own name. -/
  | external (isBuiltin : q.isBuiltin = true) (macroText : q.macroText = none)
      (initializer : q.initializer = none) (fallbackInit : q.fallbackInit = none)

/-- A metric provides for a name in a routine: the name counts as used, what has to be set up for it
is set up, and the generated text supplies it. -/
structure Provides (m : Metric) (r : Routine) (n : Name) : Prop where
  used : (m.body r).used.contains n = true
  supplied : ∃ q, (m.body r).quantities.get? n = some q ∧
    (∀ text, q.prerequisite = some text → text ∈ m.prerequisites) ∧ m.Supplies r q

variable {src : Source} {p : Propagation} {text : Text} {m : Metric} {r : Routine} {n : Name}
  {q : Quantity}

theorem isInfix_emission {part : Text} {dent : Nat}
    (h : part <:+: (m.body r).renderQuantities dent (m.body r).macros) :
    part <:+: m.emission dent r.declarationMarker := by
  cases r with
  | decode => exact h
  | post => exact h.trans (List.prefix_append _ _).isInfix

/-- A statement is written after the substitution, at the marker for its level. -/
theorem writes_of_mem (hwithin : (m.body r).Within r.deepest) {s : Statement}
    (hs : s ∈ (m.body r).statements) : m.Writes r s.level ((m.body r).macros.apply s.text) := by
  intro dent
  obtain ⟨ss, hemits, hmem⟩ := exists_emits_markerAt hwithin hs
  obtain ⟨ls, hexpansion, hrenders⟩ := hemits dent
  -- the line in the place of the statement renders it
  obtain ⟨i, hi, rfl⟩ := List.getElem_of_mem hmem
  have hi' : i < ls.length := hrenders.length_eq ▸ hi
  obtain ⟨d, hd⟩ := hrenders.get hi hi'
  rw [expansion_markerAt] at hexpansion
  have hemission := (List.cons_eq_cons.1 (List.append_cancel_left hexpansion)).2
  refine ⟨d, ?_⟩
  rw [hemission, show ss[i] = ss.get ⟨i, hi⟩ from rfl, ← hd]
  exact (Text.isInfix_unlines (List.get_mem ls ⟨i, hi'⟩)).trans (List.suffix_append _ _).isInfix

/-- **Every used quantity is supplied**, whatever kind of quantity it is. -/
theorem supplies_of_used (h : compile src p text = .ok m)
    (hq : (m.body r).quantities.get? n = some q)
    (hused : (m.body r).used.contains n = true) : m.Supplies r q := by
  have hmem := Body.mem_usedQuantities hq hused
  obtain rfl := NameIndex.name_of_get? hq
  cases hm : q.macroText with
  | some text =>
    refine .substituted hm fun s hs before after htokens ↦ ?_
    have hwrites := writes_of_mem (within_of_compile h r) hs
    rwa [Substitution.apply, htokens, List.flatMap_append, List.flatMap_cons,
      Body.replace_macros hq hm] at hwrites
  | none =>
    by_cases hrendered : q.isRendered = true
    · refine .declared (fun dent ↦ ?_) fun dent text htext ↦ ?_
      · exact isInfix_emission (Body.isInfix_renderQuantities hmem hrendered)
      · exact isInfix_emission (Body.isInfix_renderQuantities_of_fallback hmem htext)
    · -- only a built-in with nothing to write is left out of the declarations
      simp only [Quantity.isRendered, hm, Option.isNone_none, Bool.true_and, Bool.or_eq_true,
        Bool.not_eq_true', not_or, Bool.not_eq_true, Bool.not_eq_false, Option.isSome_eq_false_iff,
        Option.isNone_iff_eq_none] at hrendered
      exact .external hrendered.1.1 hm hrendered.1.2 hrendered.2

/-- The set-up texts of a compiled metric are those of both routines. -/
theorem mem_prerequisites {part : Text} (h : compile src p text = .ok m)
    (hpart : part ∈ (m.body r).prerequisites) : part ∈ m.prerequisites := by
  obtain ⟨comments, t, -, rfl⟩ := readDescription_of_compile h
  cases r with
  | decode => exact List.mem_append_right _ hpart
  | post => exact List.mem_append_left _ hpart

theorem provides_of_used (h : compile src p text = .ok m)
    (hq : (m.body r).quantities.get? n = some q) (hused : (m.body r).used.contains n = true) :
    m.Provides r n where
  used := hused
  supplied := ⟨q, hq, fun _ htext ↦ mem_prerequisites h (Body.mem_prerequisites hq hused htext),
    supplies_of_used h hq hused⟩

end Metric

end RankMetric
