import RankMetric.Proofs.ClosedComments
import RankMetric.Proofs.ContributionClosure
import RankMetric.Proofs.ErrorPlaces
import RankMetric.Proofs.LeadingComments
import RankMetric.Proofs.QuantityOrigins

/-!
# Texts on one line

Reading cuts a description into lines, and what it takes from them gets no line feed: a token has no
blank at all, an initializer and a comment are cut out of one line, and the lines of an assignment
are joined by spaces. One text comes from elsewhere, the name of the metric, which stands in the
macros of the parameters. So a compiled metric is *unbroken* if this name is: its quantities, its
used names, its statements and its comments have no line feed.

* `DeclarationLine.UnbrokenParts`: what a declaration line is taken apart into.
* `Tables.Unbroken`: the quantities and used names of tables, which a declaration
  (`Unbroken.declare`), a statement (`Unbroken.record`) and the closure of the used sets
  (`Unbroken.closeContributions`) keep.
* `Reader.unbroken_of_run`, `Reader.notMem_text_of_run`: the run over the lines, once for the tables
  and once for the texts of the statements, which may come from several lines.
* `Metric.unbroken_of_compile`: all of it for a compiled metric.
-/

namespace RankMetric

open Text

/-! ### Tokens -/

namespace Text

variable {c : Char} {s w : Text}

/-- A token has no blank. -/
theorem notMem_of_mem_tokenTexts (hw : w ∈ tokenTexts s) (hc : isBlank c = true) : c ∉ w := by
  intro hmem
  have hs : c ∈ (tokenTexts s).flatten := List.mem_flatten.2 ⟨w, hw, hmem⟩
  rw [flatten_tokenTexts, List.mem_filter, hc] at hs
  exact Bool.false_ne_true hs.2

theorem notMem_intercalate {sep : Text} {ws : List Text} (hsep : c ∉ sep) (hws : ∀ w ∈ ws, c ∉ w) :
    c ∉ List.intercalate sep ws := by
  have hparts : ∀ w ∈ List.intersperse sep ws, c ∉ w := by
    induction ws with
    | nil => simp
    | cons w ws ih =>
      obtain ⟨hw, hws⟩ := List.forall_mem_cons.1 hws
      rcases ws with - | ⟨v, ws⟩
      · simpa using hw
      · rw [List.intersperse_cons_cons]
        exact List.forall_mem_cons.2 ⟨hw, List.forall_mem_cons.2 ⟨hsep, ih hws⟩⟩
  intro h
  obtain ⟨w, hw, hc⟩ := List.mem_flatten.1 h
  exact hparts w hw hc

end Text

/-! ### Declaration lines -/

namespace DeclarationLine

variable {raw code comment : Text} {d : DeclarationLine} {c : Char}

/-- Whether no part of a declaration line that goes into a quantity or names one has a line feed. -/
structure UnbrokenParts (d : DeclarationLine) : Prop where
  type : '\n' ∉ d.type
  name : '\n' ∉ d.name
  mentions : ∀ n ∈ d.mentions, '\n' ∉ n
  initializer : ∀ s ∈ d.initializer, '\n' ∉ s

/-- What is left of a line without its comment is made of the line. -/
theorem mem_of_splitComment (h : splitComment raw = some (code, comment)) (hc : c ∈ code) :
    c ∈ raw := by
  obtain ⟨remark, hsplit⟩ := exists_splitComment_eq raw
  have huncommented : c ∈ uncommented raw → c ∈ raw := by
    rw [uncommented]
    split
    · exact id
    · exact fun hc ↦ (List.takeWhile_prefix _).subset hc
  rw [hsplit, cutBlock] at h
  split at h
  · next d before after hbreak =>
    obtain ⟨⟨inside, rest⟩, hclose, heq⟩ := Option.map_eq_some_iff.1 h
    obtain ⟨rfl, -⟩ := Prod.mk.inj heq
    refine huncommented ?_
    rw [breakOn_eq_some hbreak, breakOn_eq_some hclose]
    rcases List.mem_append.1 hc with hc | hc
    · exact List.mem_append_left _ (List.mem_append_left _ hc)
    · exact List.mem_append_right _ (List.mem_append_right _ hc)
  · obtain ⟨rfl, -⟩ := Prod.mk.inj (Option.some.inj h)
    exact huncommented hc

/-- **A line without a line feed has unbroken parts.** -/
theorem unbrokenParts_of_read (h : read raw = .ok d) (hraw : '\n' ∉ raw) : d.UnbrokenParts := by
  obtain ⟨code, comment, front, name, rest, hsplit, htokens, -, -, rfl⟩ := read_eq_ok_iff.1 h
  have htoken : ∀ x ∈ front ++ name :: rest, '\n' ∉ x.text := fun x hx ↦
    notMem_of_mem_tokenTexts (s := trimEnd code) (List.mem_map_of_mem (htokens ▸ hx)) rfl
  refine ⟨notMem_intercalate (by decide) ?_, htoken name (by simp), ?_, fun s hs hmem ↦ hraw ?_⟩
  · exact List.forall_mem_map.2 fun x hx ↦ htoken x (List.mem_append_left _ hx)
  · refine List.forall_mem_map.2 fun x hx ↦ htoken x ?_
    have hrest := (List.dropLast_sublist rest).subset (List.mem_of_mem_filter hx)
    exact List.mem_append_right _ (List.mem_cons_of_mem _ hrest)
  · obtain rfl := eq_of_nonempty?_eq_some hs
    refine mem_of_splitComment hsplit ((trimEnd_isPrefix code).subset ?_)
    exact (dropBytes_suffix _ _).subset ((List.takeWhile_prefix _).subset (mem_of_mem_trim hmem))

end DeclarationLine

/-! ### Quantities -/

/-- Whether no text of a quantity that is shown and no name that its contribution reads has a line
feed. -/
structure Quantity.Unbroken (q : Quantity) : Prop where
  type : '\n' ∉ q.type
  name : '\n' ∉ q.name
  initializer : ∀ s ∈ q.initializer, '\n' ∉ s
  macroText : ∀ s ∈ q.macroText, '\n' ∉ s
  contributionReads : ∀ n ∈ q.contributionReads, '\n' ∉ n

theorem Quantity.Unbroken.raise {q : Quantity} (h : q.Unbroken) (l : Level) :
    (q.raise l).Unbroken :=
  ⟨h.type, h.name, h.initializer, h.macroText, h.contributionReads⟩

theorem DeclarationLine.UnbrokenParts.quantity {d : DeclarationLine} (h : d.UnbrokenParts)
    (line : Int) (level : Level) {a : Attributes} (hmacroText : '\n' ∉ a.macroText) :
    (d.quantity line level a).Unbroken where
  type := h.type
  name := h.name
  initializer := h.initializer
  macroText _ hs := eq_of_nonempty?_eq_some hs ▸ hmacroText
  contributionReads := by simp [DeclarationLine.quantity]

/-- The texts of a built-in that are shown have no line feed. -/
theorem Builtin.unbroken_of_all :
    ∀ b ∈ all, '\n' ∉ b.declaration ∧ '\n' ∉ b.attributes.macroText := by
  decide +kernel

/-! ### Tables -/

namespace Tables

/-- Whether no quantity of a scope and no used name has a line feed. -/
structure Unbroken (t : Tables) : Prop where
  quantities : ∀ s n q, (t.quantities s).get? n = some q → q.Unbroken
  used : ∀ r n, (t.body r).used.contains n = true → '\n' ∉ n

variable {t t' : Tables} {targets : List Scope} {file raw : Text} {line : Int} {level : Level}
  {attributes : Name → Attributes} {n : Name} {q : Quantity} {r : Routine} {s : Statement}
  {d : DeclarationLine}

theorem Unbroken.notMem_name {b : Scope} (h : t.Unbroken)
    (hq : (t.quantities b).get? n = some q) : '\n' ∉ n :=
  NameIndex.name_of_get? hq ▸ (h.quantities b n q hq).name

/-- What a contribution reads are tokens of it. -/
theorem unbroken_resolveContribution (t : Tables) (targets : List Scope) (hq : q.Unbroken) :
    (t.resolveContribution targets q).Unbroken := by
  unfold resolveContribution
  split
  · next first text _ _ =>
    refine ⟨hq.type, hq.name, hq.initializer, hq.macroText, fun n hn ↦ ?_⟩
    obtain ⟨x, hx, rfl⟩ := List.mem_map.1 (List.mem_of_mem_filter hn)
    exact notMem_of_mem_tokenTexts (List.mem_map_of_mem (List.mem_of_mem_filter hx)) rfl
  · exact hq

/-- **A declaration keeps tables unbroken.** -/
theorem Unbroken.declare (h : t.Unbroken)
    (hd : t.declare file targets raw line level attributes = .ok (n, t')) (hraw : '\n' ∉ raw)
    (hmacroText : '\n' ∉ n → '\n' ∉ (attributes n).macroText) : t'.Unbroken := by
  refine ⟨fun b m q hq ↦ ?_, fun r m hm ↦ ?_⟩
  · obtain ⟨d, hread, -, -, rfl, rfl⟩ := declare_eq_ok_iff.1 hd
    have hparts := DeclarationLine.unbrokenParts_of_read hread hraw
    have hnew := unbroken_resolveContribution t targets
      (hparts.quantity line level (hmacroText hparts.name))
    rw [enter, quantities_foldl_insert] at hq
    split at hq
    · rw [NameIndex.get?_insert] at hq
      split at hq
      · exact Option.some.inj hq ▸ hnew
      · exact h.quantities b m q hq
    · exact h.quantities b m q hq
  · rcases (contains_used_of_declare hd).1 hm with hm | ⟨-, hmentioned, -⟩
    · exact h.used r m hm
    · obtain ⟨d, hread, -⟩ := declare_eq_ok_iff.1 hd
      exact (DeclarationLine.unbrokenParts_of_read hread hraw).mentions m
        ((mem_mentions_iff hread).2 hmentioned)

/-- **A statement keeps tables unbroken**: the names that it uses are declared. -/
theorem Unbroken.record (h : t.Unbroken) (hs : (t.body r).Reads s) :
    (t.setBody r ((t.body r).record s)).Unbroken := by
  refine ⟨fun b m q hq ↦ ?_, fun r' m hm ↦ ?_⟩
  · rcases b with - | r'
    · rw [Tables.quantities, params_setBody] at hq
      exact h.quantities .params m q hq
    · rw [Tables.quantities] at hq
      rcases eq_or_ne r' r with rfl | hr
      · rw [body_setBody_self, Body.get?_record] at hq
        split at hq
        · obtain ⟨p, hp, rfl⟩ := Option.map_eq_some_iff.1 hq
          exact (h.quantities (.routine r') m p hp).raise _
        · exact h.quantities (.routine r') m q hq
      · rw [body_setBody_ne _ hr] at hq
        exact h.quantities (.routine r') m q hq
  · rcases eq_or_ne r' r with rfl | hr
    · rw [body_setBody_self] at hm
      rcases (Body.contains_used_record _ _ _).1 hm with htarget | hoperand | hm
      · obtain ⟨q, hq⟩ := Option.isSome_iff_exists.1 (hs.contains_target htarget)
        exact h.notMem_name (b := .routine r') hq
      · obtain ⟨-, q, hq⟩ := hs.mem_operands_iff.1 hoperand
        exact h.notMem_name (b := .routine r') hq
      · exact h.used r' m hm
    · rw [body_setBody_ne _ hr] at hm
      exact h.used r' m hm

theorem withBuiltins_unbroken : withBuiltins.Unbroken := by
  refine of_reached_foldlM (fun b hb t t' ht hdeclare ↦ ?_) ⟨fun s n q hq ↦ ?_, fun r n hn ↦ ?_⟩
  · obtain ⟨name, hdeclare⟩ := declare_of_declareBuiltin hdeclare
    obtain ⟨hraw, hmacroText⟩ := Builtin.unbroken_of_all b hb
    exact ht.declare hdeclare hraw fun _ ↦ hmacroText
  · have hempty : (empty.quantities s).get? n = none := by rcases s with - | - | - <;> rfl
    exact nomatch hempty.symm.trans hq
  · have hempty : (empty.body r).used.contains n = false := by rcases r with - | - <;> rfl
    exact nomatch hempty.symm.trans hn

/-- Propagation changes the levels of statements and nothing else. -/
theorem Unbroken.propagate (h : t.Unbroken) (p : Propagation) : (t.propagate p).Unbroken := by
  refine ⟨fun b n q hq ↦ h.quantities b n q ?_, fun r n hn ↦ h.used r n ?_⟩
  · rcases b with - | - | - <;> exact hq
  · rcases r with - | - <;> exact hn

/-- **Closing the used sets keeps tables unbroken**, since the names without a line feed are closed
under what contributions read. -/
theorem Unbroken.closeContributions (h : t.Unbroken) : t.closeContributions.Unbroken := by
  refine ⟨fun b n q hq ↦ h.quantities b n q ?_, fun r n hn ↦ ?_⟩
  · rcases b with - | r
    · exact hq
    · rw [Tables.quantities, body_closeContributions] at hq
      exact hq
  · obtain ⟨k, -, hcloses⟩ := Body.exists_closes_closeUsed r (t.body r)
    rw [body_closeContributions] at hn
    exact hcloses.isLeast.2 ⟨fun m hm ↦ h.used r m hm,
      fun m _ q hq _ ↦ (h.quantities (.routine r) m q hq).contributionReads⟩ hn

end Tables

/-! ### Lines -/

section Lines

variable {line : Text} {lines : List Text}

theorem notMem_trim (h : '\n' ∉ line) : '\n' ∉ trim line :=
  fun hmem ↦ h (mem_of_mem_trim hmem)

/-- The text of a comment at the top is cut out of its line. -/
theorem notMem_topComment (h : '\n' ∉ line) : '\n' ∉ topComment line :=
  notMem_trim fun hmem ↦ h ((List.dropWhile_suffix _).subset (List.mem_of_mem_drop hmem))

/-- So is the text of a statement that is a line by itself. -/
theorem notMem_lineText (h : '\n' ∉ line) : '\n' ∉ lineText line := by
  unfold lineText
  split
  · next text hkind =>
    obtain ⟨s, hs, rfl⟩ := InnerLine.exists_trim_eq_of_remark hkind
    have htext : '\n' ∉ trimStart s := fun hmem ↦ notMem_trim h
      (hs ▸ List.mem_cons_of_mem _ ((List.dropWhile_suffix _).subset hmem))
    simp [remarkText, htext]
  · exact notMem_trim h

theorem notMem_extended {s : Text} (hs : '\n' ∉ s) (h : '\n' ∉ line) :
    '\n' ∉ trimEnd s ++ ' ' :: line := by
  have hend : '\n' ∉ trimEnd s := fun hmem ↦ hs ((trimEnd_isPrefix s).subset hmem)
  simp [hend, h]

theorem notMem_joinLines (h : ∀ l ∈ lines, '\n' ∉ l) : '\n' ∉ joinLines lines := by
  induction lines using List.reverseRecOn with
  | nil => exact List.not_mem_nil
  | append_singleton lines l ih =>
    rw [List.forall_mem_append, List.forall_mem_singleton] at h
    rcases eq_or_ne lines [] with rfl | hne
    · exact h.2
    · rw [joinLines_concat hne]
      exact notMem_extended (ih h.1) h.2

end Lines

/-! ### Runs -/

namespace Reader

variable {src : Source} {t : Tables} {lines : List Text} {rd rd' : Reader} {n : Nat} {line : Text}
  {r : Routine}

/-- **A run over lines keeps tables unbroken.** -/
theorem unbroken_of_run (ht : t.Unbroken) (hname : '\n' ∉ src.metric)
    (hlines : ∀ l ∈ lines, '\n' ∉ l) (h : ({ tables := t } : Reader).run src 1 lines = .ok rd) :
    rd.tables.Unbroken := by
  refine of_run (P := fun lines rd ↦ (∀ l ∈ lines, '\n' ∉ l) → rd.tables.Unbroken) h (fun _ ↦ ht)
    (fun lines line rd rd' _ ih heffect hall ↦ ?_) hlines
  rw [List.forall_mem_append, List.forall_mem_singleton] at hall
  obtain ⟨hbefore, hline⟩ := hall
  rcases heffect with htables | ⟨haccepts⟩ | ⟨hreads, htables⟩
  · exact htables ▸ ih hbefore
  · refine (ih hbefore).declare haccepts.declare_eq ?_ fun hn ↦ ?_
    · rcases haccepts.declares with ⟨-, hkind⟩ | -
      · exact fun hmem ↦ hline ((OuterLine.isInfix_of_parameter hkind).subset hmem)
      · exact hline
    · rcases haccepts.declares with - | -
      · show '\n' ∉ "opt->u.".toList ++ src.metric ++ '.' :: _
        simp only [List.mem_append, List.mem_cons, not_or]
        exact ⟨⟨by decide, hname⟩, by decide, hn⟩
      · exact List.not_mem_nil
  · exact htables ▸ (ih hbefore).record hreads

/-- The text of the statement that is read at a line is made of lines that were read. -/
theorem notMem_textOf (hlines : ∀ l ∈ lines, '\n' ∉ l) (hline : '\n' ∉ line)
    (h : ({ tables := t } : Reader).run src 1 lines = .ok rd) : '\n' ∉ rd.place.textOf line := by
  unfold Place.textOf
  split
  · next r a hplace =>
    obtain ⟨before, ls, rfl, hopen⟩ := exists_lines_of_open h hplace
    refine notMem_trim (notMem_extended ?_ hline)
    rw [hopen.text_eq]
    exact notMem_joinLines fun l hl ↦ hlines l (List.mem_append_right _ hl)
  · exact notMem_lineText hline

/-- **A run over lines adds no broken statement.** -/
theorem notMem_text_of_run (ht : ∀ r, (t.body r).statements = [])
    (hlines : ∀ l ∈ lines, '\n' ∉ l) (h : ({ tables := t } : Reader).run src 1 lines = .ok rd) :
    ∀ s ∈ (rd.tables.body r).statements, '\n' ∉ s.text := by
  induction lines using List.reverseRecOn generalizing rd with
  | nil =>
    obtain rfl := Except.ok.inj h
    simp [ht r]
  | append_singleton lines line ih =>
    rw [List.forall_mem_append, List.forall_mem_singleton] at hlines
    obtain ⟨rd₁, hrun, hstep⟩ := exists_of_run_concat h
    obtain ⟨ss, hss, htext⟩ := exists_textOf_of_step hstep r
    rw [hss, List.forall_mem_append]
    exact ⟨ih hlines.1 hrun, fun s hs ↦ htext s hs ▸ notMem_textOf hlines.1 hlines.2 hrun⟩

end Reader

/-! ### Compiled metrics -/

namespace Metric

/-- Whether nothing that a metric holds of its description has a line feed. -/
structure Unbroken (m : Metric) : Prop where
  tables : m.toTables.Unbroken
  comments : ∀ c ∈ m.comments, '\n' ∉ c
  statements : ∀ r, ∀ s ∈ (m.body r).statements, '\n' ∉ s.text

/-- **A compiled metric is unbroken** if its name is. -/
theorem unbroken_of_compile {src : Source} {p : Propagation} {text : Text} {m : Metric}
    (h : compile src p text = .ok m) (hname : '\n' ∉ src.metric) : m.Unbroken := by
  obtain ⟨comments, t, hread, rfl⟩ := readDescription_of_compile h
  obtain ⟨rd, hrun, -, hcomments, rfl⟩ := Tables.readLines_eq_ok_iff.1 hread
  have hlines : ∀ l ∈ lines text, '\n' ∉ l := fun l ↦ notMem_of_mem_lines
  have htables := Reader.unbroken_of_run Tables.withBuiltins_unbroken hname hlines hrun
  refine ⟨?_, fun c hc ↦ ?_, fun r s hs ↦ ?_⟩
  · exact (htables.propagate p).closeContributions
  · have hkept : c ∈ Reader.trimComments rd.comments := hcomments ▸ hc
    obtain ⟨line, hline, hcomment⟩ :=
      Reader.exists_line_of_comment hrun c (Reader.mem_of_mem_trimComments hkept)
    obtain ⟨-, rfl⟩ := OuterLine.ofText_eq_comment_iff.1 hcomment
    exact notMem_topComment (hlines line hline)
  · rw [body_ofTables_statements] at hs
    obtain ⟨s', hs', hlifts⟩ := exists_of_mem_forall₂ (p.lifts_apply _) hs
    rw [hlifts.text_eq]
    exact Reader.notMem_text_of_run Tables.withBuiltins_statements hlines hrun s' hs'

end Metric

end RankMetric
