import RankMetric.Dump
import RankMetric.Proofs.UnbrokenTexts

/-!
# What a dump shows

A dump quotes nothing. Comments and statements stand in it as they are, so they may look like
titles, like levels or like other statements, and a line number may be wider than its column. All
the same the dump can be taken apart again, from its layout alone:

* A compiled metric is unbroken, so the entries of the dump are the lines that are cut out of it
  (`Metric.cells_dump`). Only the set-up texts are left as they are, and they come last.
* An entry is indented, so it is no empty line, and the first empty line ends its part
  (`Dump.part_append_inj`).
* The line number of a statement goes up to the first bracket, and its level from there to the next
  one; the rest is the text (`Dump.shown_of_statement_eq`).

So two metrics with one dump have the same comments and show the same statements
(`Metric.shown_of_dump_eq`).
-/

namespace RankMetric

open Text

/-- A list is cut in one way only at the first place of an element. -/
theorem append_cons_inj_of_notMem {α : Type} {a : α} {s s' t t' : List α} (hs : a ∉ s)
    (hs' : a ∉ s') (h : s ++ a :: t = s' ++ a :: t') : s = s' ∧ t = t' := by
  rcases List.append_eq_append_iff.1 h with ⟨u, rfl, hu⟩ | ⟨u, rfl, hu⟩
  · rcases u with - | ⟨b, u⟩
    · exact ⟨(List.append_nil s).symm, (List.cons.inj hu).2⟩
    · obtain ⟨rfl, -⟩ := List.cons.inj hu
      simp at hs'
  · rcases u with - | ⟨b, u⟩
    · exact ⟨List.append_nil s', (List.cons.inj hu).2.symm⟩
    · obtain ⟨rfl, -⟩ := List.cons.inj hu
      simp at hs

/-- What a dump shows of a statement: its line, its level and its text. -/
def Statement.shown (s : Statement) : Nat × Level × Text :=
  (s.line, s.level, s.text)

theorem Level.text_inj {l l' : Level} (h : l.text = l'.text) : l = l' :=
  toNat_inj.1 (ofNat_inj h)

namespace Dump

variable {s s' : Statement} {q : Quantity} {b b' : Body} {r : Routine}

/-! ### Entries -/

theorem entry_inj {s t : Text} (h : entry s = entry t) : s = t :=
  List.append_cancel_left h

/-- An entry is no empty line. -/
theorem entry_ne_nil (s : Text) : entry s ≠ [] :=
  List.append_ne_nil_of_left_ne_nil (by decide) s

theorem nil_notMem_map {α : Type} (f : α → Text) (xs : List α) :
    [] ∉ xs.map fun x ↦ entry (f x) := by
  simp [entry_ne_nil]

/-- The number of a line can be read off its column, and off a wider one. -/
theorem leftpad_ofNat_inj {k m n : Nat}
    (h : (ofNat m).leftpad k ' ' = (ofNat n).leftpad k ' ') : m = n := by
  have hdigits : ∀ n, ((ofNat n).leftpad k ' ').filter Char.isDigit = ofNat n := by
    intro n
    have hnumber : (ofNat n).filter Char.isDigit = ofNat n :=
      List.filter_eq_self.2 fun _ ↦ isDigit_of_mem_ofNat
    rw [List.leftpad, List.filter_append, hnumber, List.filter_replicate_of_neg (by decide)]
    rfl
  exact ofNat_inj (by rw [← hdigits m, h, hdigits])

/-- **A statement is shown in one way only.** -/
theorem shown_of_statement_eq (h : statement s = statement s') : s.shown = s'.shown := by
  have hcolumn : ∀ n : Nat, '[' ∉ (ofNat n).leftpad 4 ' ' ++ [' '] := by
    intro n
    simp [List.leftpad, notMem_ofNat (show '['.isDigit = false from rfl)]
  have hlevel : ∀ l : Level, ']' ∉ l.text := fun l ↦ notMem_ofNat rfl _
  have hlayout : ∀ s : Statement, statement s = entry (((ofNat s.line).leftpad 4 ' ' ++ [' ']) ++
      '[' :: (s.level.text ++ ']' :: ' ' :: s.text)) := by
    intro s
    simp [statement]
  rw [hlayout, hlayout] at h
  obtain ⟨hline, hrest⟩ := append_cons_inj_of_notMem (hcolumn _) (hcolumn _) (entry_inj h)
  obtain ⟨hlevels, htext⟩ := append_cons_inj_of_notMem (hlevel _) (hlevel _) hrest
  exact Prod.ext (leftpad_ofNat_inj (List.append_cancel_right hline))
    (Prod.ext (Level.text_inj hlevels) (List.cons.inj htext).2)

/-! ### Parts -/

/-- **An empty line ends a part.** -/
theorem part_append_inj {title : Text} {es es' rest rest' : List Text} (hes : [] ∉ es)
    (hes' : [] ∉ es') (h : part title es ++ rest = part title es' ++ rest') :
    es = es' ∧ rest = rest' := by
  have hentries : es ++ [] :: rest = es' ++ [] :: rest' := by simpa [part] using h
  exact append_cons_inj_of_notMem hes hes' hentries

theorem shown_of_body_eq {rest rest' : List Text} (h : body r b ++ rest = body r b' ++ rest') :
    b.statements.map Statement.shown = b'.statements.map Statement.shown ∧ rest = rest' := by
  rw [body, body, List.append_assoc, List.append_assoc, List.append_assoc, List.append_assoc] at h
  obtain ⟨-, h⟩ := part_append_inj (nil_notMem_map _ _) (nil_notMem_map _ _) h
  obtain ⟨hstatements, h⟩ := part_append_inj (nil_notMem_map _ _) (nil_notMem_map _ _) h
  obtain ⟨-, h⟩ := part_append_inj (nil_notMem_map id [_]) (nil_notMem_map id [_]) h
  refine ⟨?_, h⟩
  rw [← List.forall₂_eq_eq_eq, List.forall₂_map_left_iff, List.forall₂_map_right_iff] at *
  exact hstatements.imp fun _ _ ↦ shown_of_statement_eq

/-! ### Lines -/

theorem notMem_entry {s : Text} (h : '\n' ∉ s) : '\n' ∉ entry s := by
  simp [entry, spaces, h]

theorem notMem_statement (h : '\n' ∉ s.text) : '\n' ∉ statement s := by
  have hnumber : ∀ n, '\n' ∉ ofNat n := notMem_ofNat rfl
  refine notMem_entry ?_
  simp [List.leftpad, Level.text, hnumber, h]

theorem notMem_quantity (h : q.Unbroken) : '\n' ∉ quantity q := by
  have hnumber : ∀ n, '\n' ∉ ofNat n := notMem_ofNat rfl
  have hline : '\n' ∉ ofInt q.line := by
    unfold ofInt
    split <;> simp [hnumber]
  have hinitializer := h.initializer
  have hmacroText := h.macroText
  refine notMem_entry ?_
  rcases hs : q.initializer with - | s <;> rcases ht : q.macroText with - | t <;>
    rcases q.isBuiltin with - | - <;>
    simp_all [Level.text, h.type, h.name]

theorem notMem_of_mem_part {title : Text} {es : List Text} (htitle : '\n' ∉ title)
    (hes : ∀ e ∈ es, '\n' ∉ e) : ∀ l ∈ part title es, '\n' ∉ l := by
  simpa [part, or_imp, forall_and, htitle] using hes

theorem notMem_of_mem_body {m : Metric} (h : m.Unbroken) (r : Routine) :
    ∀ l ∈ body r (m.body r), '\n' ∉ l := by
  have hname : '\n' ∉ r.name := by rcases r with - | - <;> decide
  have hused : ∀ n ∈ (m.body r).used.names, '\n' ∉ n := by
    refine List.forall_mem_map.2 fun n hn ↦ h.tables.used r n ?_
    exact Option.isSome_iff_exists.2 ⟨n, NameIndex.get?_of_mem hn⟩
  have hdeclared : ∀ l ∈ part (r.name ++ "_decl".toList)
      ((m.body r).quantities.toList.map quantity), '\n' ∉ l :=
    notMem_of_mem_part (by simp [hname]) (List.forall_mem_map.2 fun q hq ↦
      notMem_quantity (h.tables.quantities (.routine r) q.name q (NameIndex.get?_of_mem hq)))
  have hstatements : ∀ l ∈ part r.name ((m.body r).statements.map statement), '\n' ∉ l :=
    notMem_of_mem_part hname
      (List.forall_mem_map.2 fun s hs ↦ notMem_statement (h.statements r s hs))
  have husedPart : ∀ l ∈ part (r.name ++ "_used".toList)
      [entry (List.intercalate ", ".toList (m.body r).used.names)], '\n' ∉ l :=
    notMem_of_mem_part (by simp [hname]) (List.forall_mem_singleton.2
      (notMem_entry (notMem_intercalate (by decide) hused)))
  exact List.forall_mem_append.2 ⟨List.forall_mem_append.2 ⟨hdeclared, hstatements⟩, husedPart⟩

end Dump

/-! ### Dumps -/

namespace Metric

variable {m m' : Metric} {src src' : Source} {p p' : Propagation} {text text' : Text}

/-- The lines of a dump, up to the set-up texts, are its entries with titles and empty lines. -/
theorem cells_dump (h : m.Unbroken) : ∃ rest, cells m.dump =
    Dump.part "comments".toList (m.comments.map Dump.entry) ++
      (Dump.part "params".toList (m.params.toList.map Dump.quantity) ++
        (Dump.body .decode m.decode ++ (Dump.body .post m.post ++ rest))) := by
  have hcomments : ∀ l ∈ Dump.part "comments".toList (m.comments.map Dump.entry), '\n' ∉ l :=
    Dump.notMem_of_mem_part (by decide)
      (List.forall_mem_map.2 fun c hc ↦ Dump.notMem_entry (h.comments c hc))
  have hparams : ∀ l ∈ Dump.part "params".toList (m.params.toList.map Dump.quantity), '\n' ∉ l :=
    Dump.notMem_of_mem_part (by decide) (List.forall_mem_map.2 fun q hq ↦
      Dump.notMem_quantity (h.tables.quantities .params q.name q (NameIndex.get?_of_mem hq)))
  refine ⟨cells (unlines ("pre".toList :: m.prerequisites.map Dump.entry)), ?_⟩
  rw [dump, unlines_append, cells_unlines_append]
  · simp only [List.append_assoc]
  · simp only [List.forall_mem_append]
    exact ⟨⟨⟨hcomments, hparams⟩, Dump.notMem_of_mem_body h .decode⟩,
      Dump.notMem_of_mem_body h .post⟩

/-- **A dump hides no statement.** Two compiled metrics whose names have no line feed and which have
the same dump have the same comments, and in each routine the same statements, with their lines,
levels and texts. -/
theorem shown_of_dump_eq (h : compile src p text = .ok m) (h' : compile src' p' text' = .ok m')
    (hname : '\n' ∉ src.metric) (hname' : '\n' ∉ src'.metric) (hdump : m.dump = m'.dump) :
    m.comments = m'.comments ∧ ∀ r,
      (m.body r).statements.map Statement.shown = (m'.body r).statements.map Statement.shown := by
  obtain ⟨rest, hcells⟩ := cells_dump (unbroken_of_compile h hname)
  obtain ⟨rest', hcells'⟩ := cells_dump (unbroken_of_compile h' hname')
  rw [← hdump, hcells] at hcells'
  obtain ⟨hcomments, hparts⟩ := Dump.part_append_inj (Dump.nil_notMem_map id _)
    (Dump.nil_notMem_map id _) hcells'
  obtain ⟨-, hbodies⟩ := Dump.part_append_inj (Dump.nil_notMem_map _ _) (Dump.nil_notMem_map _ _)
    hparts
  obtain ⟨hdecode, hpost⟩ := Dump.shown_of_body_eq hbodies
  refine ⟨List.map_injective_iff.2 (fun s t ↦ Dump.entry_inj) hcomments, fun r ↦ ?_⟩
  rcases r with - | -
  · exact hdecode
  · exact (Dump.shown_of_body_eq hpost).1

/-- A description whose comments look like parts of a dump. -/
def titledText : Text :=
  unlines <| List.map String.toList [
    "# decode",
    "#",
    "#    4 [1] accumulator = 0;",
    "decode() \x7b",
    "    accumulator += f_dt;",
    "\x7d"]

/-- The file of `titledText`. -/
def titledSource : Source :=
  ⟨"titled.metric".toList, "titled".toList⟩

/-- The same description with other blanks. -/
def respacedText : Text :=
  unlines <| List.map String.toList [
    "#decode",
    " ",
    "#   4 [1] accumulator = 0;   ",
    "  decode()  \x7b",
    "accumulator += f_dt;",
    "\x7d  "]

/-- The file of `respacedText`. -/
def respacedSource : Source :=
  ⟨"respaced.metric".toList, "titled".toList⟩

theorem reading_of_titledText :
    ∃ m ∈ (compile titledSource .heuristic titledText).toOption,
    ∃ m' ∈ (compile respacedSource .blockTree respacedText).toOption,
      m.source ≠ m'.source ∧ m.dump = m'.dump := by
  decide +kernel

theorem shown_of_dump_eq_titledText : ∃ m m',
    compile titledSource .heuristic titledText = .ok m ∧
      compile respacedSource .blockTree respacedText = .ok m' ∧
      m.source ≠ m'.source ∧ m.dump = m'.dump ∧ m.comments = m'.comments ∧ ∀ r,
        (m.body r).statements.map Statement.shown = (m'.body r).statements.map Statement.shown := by
  obtain ⟨m, hm, m', hm', hsource, hdump⟩ := reading_of_titledText
  have h := toOption_eq_some_iff.1 hm
  have h' := toOption_eq_some_iff.1 hm'
  exact ⟨m, m', h, h', hsource, hdump, shown_of_dump_eq h h' (by decide) (by decide) hdump⟩

end Metric

end RankMetric
