import RankMetric.Proofs.AlikeReadings

/-!
# Metrics of alike descriptions

What is made of two tables that are alike is alike too. Closing the used sets goes by names and by
what contributions read, which every view shows (`Body.used_closeUsed_eq`).
Propagation goes by the levels and the shapes of the statements and by nothing else
(`Propagation.map_level_apply`). This is a fact on all ways to change statements that keep both
(`Propagation.apply_map`), and it rests on the same for outlines (`Outline.ofList_map`).

`Metric.SameReading` is what the metrics of two descriptions have in common that are alike by the
full view, and `Metric.sameReading_ofTables` says so.
-/

namespace RankMetric

open Text

/-! ### Used sets -/

namespace NameIndex

variable {α : Type} {name : α → Name}

/-- An index with other values under the same names. -/
def mapValues (f : α → α) (hf : ∀ a, name (f a) = name a) (m : NameIndex name) : NameIndex name :=
  ⟨m.toList.map f, List.pairwise_map.2 (by simpa only [hf] using m.ordered)⟩

theorem get?_mapValues {f : α → α} (hf : ∀ a, name (f a) = name a) (m : NameIndex name) (n : Name) :
    (m.mapValues f hf).get? n = (m.get? n).map f := by
  have hname : (fun a ↦ name a == n) ∘ f = fun a ↦ name a == n :=
    funext fun a ↦ by rw [Function.comp_apply, hf]
  rw [get?, get?, mapValues, List.find?_map, hname]

end NameIndex

namespace Quantities.Alike

variable {v : View} {qs qs' : Quantities}

/-- Scopes that are alike hold the same quantities in the same order. -/
theorem map_toList (h : qs.Alike v qs') :
    qs.toList.map (Quantity.seen v) = qs'.toList.map (Quantity.seen v) := by
  have hseen : NameIndex.mapValues (Quantity.seen v) (Quantity.seen_name v) qs =
      NameIndex.mapValues (Quantity.seen v) (Quantity.seen_name v) qs' :=
    NameIndex.ext_get? fun n ↦ by
      rw [NameIndex.get?_mapValues, NameIndex.get?_mapValues, h n]
  exact congrArg NameIndex.toList hseen

end Quantities.Alike

/-- Quantities that are seen to be the same bring in the same names. -/
theorem flatMap_broughtIn_eq {v : View} {r : Routine} {qs qs' : List Quantity}
    (h : qs.map (Quantity.seen v) = qs'.map (Quantity.seen v)) :
    qs.flatMap (Body.broughtIn r) = qs'.flatMap (Body.broughtIn r) := by
  have hseen : ∀ qs : List Quantity, qs.flatMap (Body.broughtIn r) =
      (qs.map (Quantity.seen v)).flatMap (Body.broughtIn r) := by
    intro qs
    rw [List.flatMap_map]
    rfl
  rw [hseen qs, hseen qs', h]

namespace Body

variable {v : View} {b b' : Body}

theorem closeRounds_eq {qs qs' : Quantities} (h : qs.Alike v qs') (r : Routine) (k : Nat)
    (u : NameSet) : closeRounds r qs k u = closeRounds r qs' k u := by
  induction k generalizing u with
  | zero => rfl
  | succ k ih =>
    have hround : broughtInBy r qs u = broughtInBy r qs' u :=
      flatMap_broughtIn_eq (h.map_namedBy u.toList)
    rw [closeRounds, closeRounds, hround, ih]

/-- **Used sets that are the same stay the same when they are closed**, if the quantities are
alike. -/
theorem used_closeUsed_eq (hquantities : b.quantities.Alike v b'.quantities)
    (hused : b.used = b'.used) (r : Routine) : (b.closeUsed r).used = (b'.closeUsed r).used := by
  have hnames : contributionNames r b.quantities = contributionNames r b'.quantities :=
    flatMap_broughtIn_eq hquantities.map_toList
  rw [closeUsed, closeUsed]
  dsimp only
  rw [hused, hnames, closeRounds_eq hquantities]

end Body

/-! ### Outlines of changed lines -/

namespace Outline

variable {α β : Type} {f : α → β} {shape : α → Shape} {shape' : β → Shape}

theorem map_append (f : α → β) (o r : Outline α) :
    (o.append r).map f = (o.map f).append (r.map f) := by
  induction o with
  | nil => rfl
  | line a rest ih => rw [Outline.append, Outline.map, ih]; rfl
  | block a inner c rest _ ih => rw [Outline.append, Outline.map, ih]; rfl

/-- Change every line of a draft. -/
def Draft.map (f : α → β) (d : Draft α) : Draft β :=
  ⟨d.here.map f, d.waiting.map fun (c, after) ↦ (f c, after.map f)⟩

theorem Draft.map_add (hf : ∀ a, shape' (f a) = shape a) (a : α) (d : Draft α) :
    (d.add shape a).map f = (d.map f).add shape' (f a) := by
  unfold Draft.add
  rw [hf]
  cases shape a with
  | plain => rfl
  | closing => rfl
  | opening => obtain ⟨here, - | ⟨⟨c, after⟩, ws⟩⟩ := d <;> rfl

theorem Draft.map_close (f : α → β) (d : Draft α) : d.close.map f = (d.map f).close := by
  obtain ⟨here, waiting⟩ := d
  rw [Draft.close, Draft.close, map_append]
  refine congrArg ((here.map f).append ·) ?_
  induction waiting with
  | nil => rfl
  | cons w ws ih =>
    rw [List.foldr_cons, Outline.map, map_append, ih]
    rfl

/-- **The outline of changed lines** is the outline with the lines changed, if they keep their
shapes. -/
theorem ofList_map (hf : ∀ a, shape' (f a) = shape a) (l : List α) :
    ofList shape' (l.map f) = (ofList shape l).map f := by
  have hdraft : (l.map f).foldr (Draft.add shape') {} = (l.foldr (Draft.add shape) {}).map f := by
    induction l with
    | nil => rfl
    | cons a l ih => rw [List.map_cons, List.foldr_cons, List.foldr_cons, ih, Draft.map_add hf]
  rw [ofList, ofList, hdraft, Draft.map_close]

theorem mapBlocks_map {g : List α → α → α} {g' : List β → β → β}
    (hg : ∀ b a, g' (b.map f) (f a) = f (g b a)) (o : Outline α) :
    (o.map f).mapBlocks g' = (o.mapBlocks g).map f := by
  have hmap : ∀ (b : List α) (o : Outline α),
      (o.map f).map (g' (b.map f)) = (o.map (g b)).map f := by
    intro b o
    induction o with
    | nil => rfl
    | line a rest ih => simp only [Outline.map, hg, ih]
    | block a inner c rest ih₁ ih₂ => cases c <;> simp only [Outline.map, hg, ih₁, ih₂, Option.map]
  induction o with
  | nil => rfl
  | line a rest ih => rw [Outline.map, mapBlocks, ih]; rfl
  | block a inner c rest _ ih =>
    have hlines : blockLines (f a) (inner.map f) (c.map f) = (blockLines a inner c).map f := by
      rw [blockLines, blockLines, toList_map]
      cases c <;> simp
    rw [Outline.map, mapBlocks, mapBlocks, Outline.map, ih, hlines, hg, hmap]
    cases c with
    | none => rfl
    | some c => simp only [Option.map, hg]

end Outline

/-! ### Propagation -/

namespace Propagation

variable {f : Statement → Statement} {ss ss' : List Statement}

theorem liftClosing_map (hshape : ∀ s, (f s).shape = s.shape) (hlevel : ∀ s, (f s).level = s.level)
    (hraise : ∀ s l, (f s).raise l = f (s.raise l)) (l : Level) (ss : List Statement) :
    liftClosing l (ss.map f) = (liftClosing l ss).map f := by
  induction ss generalizing l with
  | nil => rfl
  | cons s ss ih =>
    rw [List.map_cons, liftClosing, liftClosing, hshape]
    split <;> simp only [hraise, hlevel, ih, List.map_cons]

theorem headLevel_map (hlevel : ∀ s, (f s).level = s.level) (ss : List Statement) :
    headLevel (ss.map f) = headLevel ss := by
  cases ss with
  | nil => rfl
  | cons s ss => exact hlevel s

theorem liftOpening_map (hshape : ∀ s, (f s).shape = s.shape) (hlevel : ∀ s, (f s).level = s.level)
    (hraise : ∀ s l, (f s).raise l = f (s.raise l)) (ss : List Statement) :
    liftOpening (ss.map f) = (liftOpening ss).map f := by
  induction ss with
  | nil => rfl
  | cons s ss ih =>
    rw [List.map_cons, liftOpening, liftOpening, hshape, ih, headLevel_map hlevel]
    split <;> simp only [hraise, List.map_cons]

theorem raiseToJoin_map (hlevel : ∀ s, (f s).level = s.level)
    (hraise : ∀ s l, (f s).raise l = f (s.raise l)) (ss : List Statement) (s : Statement) :
    raiseToJoin (ss.map f) (f s) = f (raiseToJoin ss s) := by
  rw [raiseToJoin, raiseToJoin, List.map_map, hraise]
  exact congrArg (fun k ↦ f (s.raise (Level.join (ss.map k)))) (funext hlevel)

/-- **Propagation goes by levels and shapes.** A change of the statements that keeps both, and does
not mind whether they have been raised before, may be made before or after it. -/
theorem apply_map (p : Propagation) (hshape : ∀ s, (f s).shape = s.shape)
    (hlevel : ∀ s, (f s).level = s.level) (hraise : ∀ s l, (f s).raise l = f (s.raise l))
    (ss : List Statement) : p.apply (ss.map f) = (p.apply ss).map f := by
  cases p with
  | heuristic =>
    show byNeighbours (ss.map f) = (byNeighbours ss).map f
    rw [byNeighbours, byNeighbours, liftClosing_map hshape hlevel hraise,
      liftOpening_map hshape hlevel hraise]
  | blockTree =>
    show byBlocks (ss.map f) = (byBlocks ss).map f
    rw [byBlocks, byBlocks, Outline.ofList_map hshape,
      Outline.mapBlocks_map (raiseToJoin_map hlevel hraise), Outline.toList_map]

/-- What raising leaves alone, propagation leaves alone. -/
theorem map_apply {β : Type} {g : Statement → β} (hg : ∀ s l, g (Statement.raise l s) = g s)
    (p : Propagation) (ss : List Statement) : (p.apply ss).map g = ss.map g := by
  have hlifts : ∀ {ss ss' : List Statement}, List.Forall₂ Statement.Lifts ss ss' →
      ss'.map g = ss.map g := by
    intro ss ss' h
    induction h with
    | nil => rfl
    | cons hs _ ih =>
      obtain ⟨l, rfl⟩ := hs
      rw [List.map_cons, List.map_cons, ih, hg]
  exact hlifts (p.lifts_apply ss)

/-- A text of a given shape. -/
def sign : Shape → Text
  | .opening => ['{']
  | .closing => ['}']
  | .plain => []

/-- A statement of which only level and shape are left. -/
def bare (s : Statement) : Statement :=
  ⟨0, s.level, sign s.shape, .remark⟩

/-- **The levels after propagation** are determined by the levels and the shapes before it. -/
theorem map_level_apply (p : Propagation)
    (h : ss.map (fun s ↦ (s.level, s.shape)) = ss'.map fun s ↦ (s.level, s.shape)) :
    (p.apply ss).map Statement.level = (p.apply ss').map Statement.level := by
  have hbare : ∀ ss : List Statement, (p.apply ss).map Statement.level =
      (p.apply ((ss.map fun s ↦ (s.level, s.shape)).map fun x ↦
        (⟨0, x.1, sign x.2, .remark⟩ : Statement))).map Statement.level := by
    intro ss
    have hshape : ∀ s : Statement, (bare s).shape = s.shape := by
      intro s
      show Shape.ofText (sign s.shape) = s.shape
      cases s.shape <;> decide
    rw [List.map_map]
    show _ = (p.apply (ss.map bare)).map Statement.level
    rw [p.apply_map hshape (fun _ ↦ rfl) (fun _ _ ↦ rfl), List.map_map]
    rfl
  rw [hbare ss, hbare ss', h]

end Propagation

/-! ### Metrics -/

/-- The tokens of a statement decide how it takes part in the nesting of blocks. -/
theorem Statement.shape_eq (s : Statement) : s.shape = Shape.ofText s.tokens.flatten := by
  have hcontains : ∀ {c : Char}, isBlank c = false →
      s.text.contains c = s.tokens.flatten.contains c := by
    intro c hc
    rw [tokens, flatten_tokenTexts, Bool.eq_iff_iff, List.contains_iff_mem, List.contains_iff_mem,
      List.mem_filter]
    simp [hc]
  rw [shape, Shape.ofText, Shape.ofText, hcontains rfl, hcontains rfl]

/-- What the full view shows of statements is what was read. -/
theorem Statement.map_reading_eq {ss ss' : List Statement}
    (h : ss.map (Statement.seen .full) = ss'.map (Statement.seen .full)) :
    ss.map Statement.reading = ss'.map Statement.reading := by
  have hseen : ∀ ss : List Statement,
      ss.map (Statement.seen .full) = (ss.map Statement.reading).map some :=
    fun ss ↦ List.map_map.symm
  rw [hseen, hseen] at h
  exact List.map_injective_iff.2 (Option.some_injective _) h

namespace Metric

/-- Whether the descriptions of two metrics were read as the same: the same statements, but for
their lines and the blanks in them, the same names used, and every quantity at the same level. -/
structure SameReading (m m' : Metric) : Prop where
  statements : ∀ r, (m.body r).statements.map Statement.reading =
    (m'.body r).statements.map Statement.reading
  used : ∀ r, (m.body r).used = (m'.body r).used
  levels : ∀ s n, ((m.quantities s).get? n).map Quantity.level =
    ((m'.quantities s).get? n).map Quantity.level

variable {src : Source} {p : Propagation} {comments comments' : List Text} {t t' : Tables}

theorem quantities_ofTables (s : Scope) :
    (ofTables src p comments t).quantities s = t.quantities s := by
  rcases s with - | ⟨- | -⟩ <;> rfl

theorem body_ofTables_used (r : Routine) :
    ((ofTables src p comments t).body r).used = ((t.body r).closeUsed r).used := by
  cases r <;> rfl

/-- Propagation changes levels only. -/
theorem map_tokens_apply (p : Propagation) (ss : List Statement) :
    (p.apply ss).map (fun s ↦ (s.tokens, s.action)) = ss.map fun s ↦ (s.tokens, s.action) :=
  p.map_apply (fun _ _ ↦ rfl) ss

/-- Propagation keeps statements alike. -/
theorem map_reading_apply {ss ss' : List Statement} (p : Propagation)
    (h : ss.map Statement.reading = ss'.map Statement.reading) :
    (p.apply ss).map Statement.reading = (p.apply ss').map Statement.reading := by
  have hlevel : (p.apply ss).map Statement.level = (p.apply ss').map Statement.level := by
    refine p.map_level_apply ?_
    have hshape := congrArg (List.map fun x ↦ (x.1, Shape.ofText x.2.1.flatten)) h
    rw [List.map_map, List.map_map] at hshape
    simp only [Statement.shape_eq]
    exact hshape
  have hrest : (p.apply ss).map (fun s ↦ (s.tokens, s.action)) =
      (p.apply ss').map fun s ↦ (s.tokens, s.action) := by
    have hsnd := congrArg (List.map Prod.snd) h
    rw [List.map_map, List.map_map] at hsnd
    rw [map_tokens_apply, map_tokens_apply]
    exact hsnd
  have hzip : ∀ ss : List Statement, ss.map Statement.reading =
      (ss.map Statement.level).zip (ss.map fun s ↦ (s.tokens, s.action)) :=
    fun ss ↦ List.zip_map'.symm
  rw [hzip (p.apply ss), hzip (p.apply ss'), hlevel, hrest]

/-- **Tables that are alike make up metrics that are read as the same.** -/
theorem sameReading_ofTables (h : t.Alike .full t') :
    SameReading (ofTables src p comments t) (ofTables src p comments' t') where
  statements r := by
    rw [body_ofTables_statements, body_ofTables_statements]
    exact map_reading_apply p (Statement.map_reading_eq (h.body r).statements)
  used r := by
    rw [body_ofTables_used, body_ofTables_used,
      Body.used_closeUsed_eq (h.body r).quantities (h.body r).used]
  levels s n := by
    have hget := congrArg (Option.map Quantity.level) (h.quantities s n)
    rw [Option.map_map, Option.map_map] at hget
    rw [quantities_ofTables, quantities_ofTables]
    exact hget

end Metric

end RankMetric
