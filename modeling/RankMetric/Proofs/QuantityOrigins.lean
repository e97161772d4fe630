import RankMetric.Proofs.ParameterCopies
import RankMetric.Proofs.TokenOffsets
import RankMetric.Proofs.UsedNames

/-!
# Where a quantity comes from

A routine has a quantity since before the first line of a description, and then it is a built-in, or
an accepted line declared it (`Reader.Origin`). But for its level, which statements raise, it is
still what it was then, so its line, its type, its initializer and its texts tell of its origin.

* `Reader.origin_of_run`: every quantity has an origin.
* `Tables.exists_builtin_of_get?`: what is there before the first line is what the built-ins are
  declared as. `Builtin.not_isName_of_mem_runs` says that no initializer of a built-in mentions one.
* `Reader.DeclaredBy.exists_ofRoutine`, `exists_ofParameter`: what lines declare without a macro was
  declared by its own routine, and what they declare with one by a `parameter` line.
* `Reader.DeclaredBy.contains_used`: what the initializer of an accepted line mentions is used in
  the end. It rests on `DeclarationLine.mem_mentions_of_initializer`: the words of the initializer
  are mentioned by the line that it was cut from.
-/

namespace RankMetric

open Text

/-! ### Words of an initializer -/

theorem Text.eq_of_nonempty?_eq_some {s t : Text} (h : nonempty? s = some t) : s = t := by
  unfold nonempty? at h
  split at h
  · cases h
  · exact Option.some.inj h

/-- A terminator is a semicolon. -/
theorem semicolon_mem_text {s : Text} {x : Token} (hx : x ∈ significant s)
    (h : x.isTerminator = true) : ';' ∈ x.text := by
  have hclass : TokenClass.ofRun x.text = .terminator :=
    (cls_of_mem_significant hx).symm.trans (beq_iff_eq.1 h)
  cases htext : x.text with
  | nil =>
    rw [htext] at hclass
    cases hclass
  | cons c t =>
    rw [htext] at hclass
    exact ofChar_eq_terminator_iff.1 hclass ▸ List.mem_cons_self

namespace DeclarationLine

variable {raw : Text} {d : DeclarationLine} {s w : Text}

/-- **The words of an initializer are mentioned** by its line. -/
theorem mem_mentions_of_initializer (h : read raw = .ok d) (hterminated : d.isTerminated = true)
    (hs : d.initializer = some s) (hw : w ∈ tokenTexts s) (hword : TokenClass.ofRun w = .word) :
    w ∈ d.mentions := by
  obtain ⟨code, comment, front, name, rest, -, htokens, -, -, rfl⟩ := read_eq_ok_iff.1 h
  have hrest := tokenTexts_dropBytes htokens
  generalize hbehind : dropBytes name.stop (trimEnd code) = behind at hrest
  have hinit : trim (behind.takeWhile (· ≠ ';')) = s := by
    rw [← hbehind]
    exact eq_of_nonempty?_eq_some hs
  rw [← hinit, tokenTexts_trim] at hw
  -- the terminator at the end of the line ends the initializer, if none before it does
  obtain ⟨x, hx, hterminator⟩ := (Option.any_eq_true _ _).1 hterminated
  have hxrest := List.mem_of_getLast? hx
  have hmem : ';' ∈ (tokenTexts behind).flatten := by
    rw [hrest]
    have hline : x ∈ significant (trimEnd code) := by
      rw [htokens]
      exact List.mem_append_right _ (List.mem_cons_of_mem _ hxrest)
    exact List.mem_flatten.2
      ⟨x.text, List.mem_map_of_mem hxrest, semicolon_mem_text hline hterminator⟩
  rw [flatten_tokenTexts] at hmem
  obtain ⟨b, hb⟩ := breakOn_singleton_of_mem (List.mem_of_mem_filter hmem)
  have hcut := breakOn_eq_some hb
  rw [List.append_assoc, List.singleton_append] at hcut
  obtain ⟨u, us, hend⟩ := exists_tokenTexts_cons (c := ';') rfl b
  have htexts : rest.map Token.text =
      tokenTexts (behind.takeWhile (· ≠ ';')) ++ (';' :: u) :: us := by
    rw [← hrest, ← hend, ← tokenTexts_append (apart_terminator _ _), ← hcut]
  -- so its words stand before the last token of the line
  have hlast : w ∈ rest.dropLast.map Token.text := by
    rw [List.map_dropLast, htexts, List.dropLast_append_of_ne_nil (by simp)]
    exact List.mem_append_left _ hw
  obtain ⟨y, hy, rfl⟩ := List.mem_map.1 hlast
  have hline : y ∈ significant (trimEnd code) := by
    rw [htokens]
    exact List.mem_append_right _ (List.mem_cons_of_mem _ ((List.dropLast_sublist _).subset hy))
  refine List.mem_map_of_mem (List.mem_filter.2 ⟨hy, ?_⟩)
  rw [Token.isWord, cls_of_mem_significant hline, hword]
  rfl

end DeclarationLine

/-! ### Built-ins -/

namespace Builtin

/-- The line that declares a built-in, taken apart. -/
def line? (b : Builtin) : Option DeclarationLine :=
  (DeclarationLine.read b.declaration).toOption

theorem line?_of_read {b : Builtin} {d : DeclarationLine}
    (h : DeclarationLine.read b.declaration = .ok d) : b.line? = some d := by
  rw [line?, h]
  rfl

/-- What the texts of the built-ins show: no token of an initializer is the name of a built-in, and
a built-in with an initializer has no macro and its type does not end with a star. -/
theorem initializers_of_all :
    (∀ b ∈ all, ∀ d ∈ b.line?, ∀ s ∈ d.initializer,
      b.attributes.macroText = [] ∧ d.type.getLast? ≠ some '*') ∧
    ∀ d ∈ all.filterMap line?, ∀ s ∈ d.initializer, ∀ d' ∈ all.filterMap line?,
      d'.name ∉ runs s := by
  decide +kernel

/-- Whether a name is that of a built-in. -/
def IsName (n : Name) : Prop :=
  ∃ b ∈ all, ∃ d, DeclarationLine.read b.declaration = .ok d ∧ d.name = n

/-- A quantity is what a built-in is declared as, at some level. -/
def Gives (b : Builtin) (q : Quantity) : Prop :=
  ∃ d, DeclarationLine.read b.declaration = .ok d ∧ q.IsOf d builtinLine b.attributes

variable {b : Builtin} {d : DeclarationLine} {q : Quantity} {s w : Text}

theorem Gives.isName (h : b.Gives q) (hb : b ∈ all) : IsName q.name := by
  obtain ⟨d, hread, hisOf⟩ := h
  exact ⟨b, hb, d, hread, hisOf.name_eq.symm⟩

/-- **No initializer of a built-in mentions a built-in.** -/
theorem not_isName_of_mem_runs (hb : b ∈ all) (hd : DeclarationLine.read b.declaration = .ok d)
    (hs : d.initializer = some s) (hw : w ∈ runs s) : ¬ IsName w := by
  rintro ⟨b', hb', d', hd', rfl⟩
  exact initializers_of_all.2 d (List.mem_filterMap.2 ⟨b, hb, line?_of_read hd⟩) s hs d'
    (List.mem_filterMap.2 ⟨b', hb', line?_of_read hd'⟩) hw

end Builtin

namespace Tables

variable {n : Name} {q : Quantity} {r : Routine}

/-- **What is there before the first line** is what the built-ins are declared as. -/
theorem exists_builtin_of_get? (hq : (withBuiltins.body r).quantities.get? n = some q) :
    ∃ b ∈ Builtin.all, b.Gives q := by
  refine of_reached_foldlM (P := fun t ↦ ∀ n q, (t.body r).quantities.get? n = some q →
    ∃ b ∈ Builtin.all, b.Gives q) ?_ ?_ n q hq
  · intro b hb t t' ht hdeclare n q hq
    obtain ⟨name, hdeclare⟩ := declare_of_declareBuiltin hdeclare
    obtain ⟨d, q', hread, -, -, hisOf, -, -, hget⟩ := exists_record_of_declare hdeclare
    have hq' := (hget (.routine r) n).symm.trans hq
    split at hq'
    · obtain rfl := Option.some.inj hq'
      exact ⟨b, hb, d, hread, hisOf⟩
    · exact ht n q hq'
  · intro n q hq
    have hempty : (empty.body r).quantities.get? n = none := by cases r <;> rfl
    cases hempty.symm.trans hq

end Tables

/-! ### Origins -/

namespace Reader

variable {src : Source} {t t' : Tables} {lines : List Text} {rd rd' : Reader} {r : Routine}
  {D : Declaring} {n : Name} {p q : Quantity} {k : Nat}

/-- The line behind `k` others declared the quantity in a routine. The reader before that line was
`rd`. -/
structure DeclaredBy (src : Source) (t : Tables) (lines : List Text) (r : Routine) (q : Quantity)
    (k : Nat) (rd : Reader) (D : Declaring) : Prop where
  accepted : ∃ t', Accepted src t lines k rd D q.name t'
  target : .routine r ∈ D.targets
  isOf : ∃ d, DeclarationLine.read D.raw = .ok d ∧ d.isTerminated = true ∧
    q.IsOf d (lineNumber (1 + k)) (D.attributes q.name)

/-- **Where the quantity of a routine comes from.** -/
inductive Origin (src : Source) (t : Tables) (lines : List Text) (r : Routine) (q : Quantity) : Prop
  /-- The routine had it before the first line. -/
  | given {p : Quantity} (known : (t.body r).quantities.get? q.name = some p)
      (same : q = { p with level := q.level })
  /-- An accepted line declared it. -/
  | declared {k : Nat} {rd : Reader} {D : Declaring}
      (declaredBy : DeclaredBy src t lines r q k rd D)

/-- Another level has the same origin. -/
theorem Origin.of_level (h : Origin src t lines r p) (hq : q = { p with level := q.level }) :
    Origin src t lines r q := by
  have hname : q.name = p.name := by rw [hq]
  cases h with
  | given known same =>
    refine .given (hname ▸ known) ?_
    rw [hq, same]
  | declared declaredBy =>
    obtain ⟨accepted, target, d, hread, hterminated, hisOf⟩ := declaredBy
    refine .declared ⟨hname ▸ accepted, target, d, hread, hterminated, ?_⟩
    rw [hname]
    exact hisOf.of_level hq

/-- A quantity keeps its origin when more lines follow. -/
theorem Origin.concat (h : Origin src t lines r q) (line : Text) :
    Origin src t (lines ++ [line]) r q := by
  cases h with
  | given known same => exact .given known same
  | declared declaredBy =>
    obtain ⟨⟨t', haccepted⟩, target, hisOf⟩ := declaredBy
    exact .declared ⟨⟨t', haccepted.concat line⟩, target, hisOf⟩

/-- **Every quantity has an origin.** -/
theorem origin_of_run (h : ({ tables := t } : Reader).run src 1 lines = .ok rd)
    (hq : (rd.tables.body r).quantities.get? n = some q) : Origin src t lines r q := by
  refine of_run (P := fun lines rd ↦ ∀ n q, (rd.tables.body r).quantities.get? n = some q →
    Origin src t lines r q) h (fun n q hq ↦ ?_) ?_ n q hq
  · obtain rfl := NameIndex.name_of_get? hq
    exact .given hq rfl
  intro lines line rd rd' hrun ih heffect n q hq
  cases heffect with
  | unchanged tables =>
    rw [tables] at hq
    exact (ih n q hq).concat line
  | declared accepts =>
    obtain ⟨d, q', hread, hterminated, hname, hisOf, -, -, hget⟩ :=
      Tables.exists_record_of_declare accepts.declare_eq
    have hq' := (hget (.routine r) n).symm.trans hq
    split at hq'
    · next htarget =>
      obtain rfl := Option.some.inj hq'
      obtain rfl : q'.name = _ := hisOf.name_eq.trans hname
      exact .declared ⟨⟨_, accepted_last hrun accepts⟩, htarget.1, d, hread, hterminated, hisOf⟩
    · exact (ih n q hq').concat line
  | @read r' s reads tables =>
    by_cases hr : r = r'
    · subst hr
      rw [tables, Tables.body_setBody_self, Body.get?_record] at hq
      split at hq
      · -- the target of the statement has been raised
        obtain ⟨p, hp, rfl⟩ := Option.map_eq_some_iff.1 hq
        exact ((ih n p hp).concat line).of_level rfl
      · exact (ih n q hq).concat line
    · rw [tables, Tables.body_setBody_ne _ hr] at hq
      exact (ih n q hq).concat line

namespace DeclaredBy

/-- A quantity has the number of the line that declared it. -/
theorem line_eq (h : DeclaredBy src t lines r q k rd D) : q.line = lineNumber (1 + k) := by
  obtain ⟨d, -, -, hisOf⟩ := h.isOf
  exact hisOf.line_eq

theorem lt_length (h : DeclaredBy src t lines r q k rd D) : k < lines.length := by
  obtain ⟨t', haccepted⟩ := h.accepted
  obtain ⟨line, hline, -⟩ := haccepted.line
  exact (List.getElem?_eq_some_iff.1 hline).1

theorem exists_declares (h : DeclaredBy src t lines r q k rd D) :
    ∃ line, rd.Declares src line D := by
  obtain ⟨t', haccepted⟩ := h.accepted
  obtain ⟨line, -, haccepts⟩ := haccepted.line
  exact ⟨line, haccepts.declares⟩

/-- What lines declare has no code that gives it a value. -/
theorem fallbackInit_eq_none (h : DeclaredBy src t lines r q k rd D) : q.fallbackInit = none := by
  obtain ⟨line, hdeclares⟩ := h.exists_declares
  obtain ⟨d, -, -, hisOf⟩ := h.isOf
  rw [hisOf.fallbackInit_eq]
  cases hdeclares <;> rfl

/-- **What has no macro was declared by its own routine.** -/
theorem exists_ofRoutine (h : DeclaredBy src t lines r q k rd D) (hm : q.macroText = none) :
    ∃ raw, D = .ofRoutine r raw := by
  obtain ⟨line, hdeclares⟩ := h.exists_declares
  obtain ⟨d, -, -, hisOf⟩ := h.isOf
  have htarget := h.target
  cases hdeclares with
  | parameter place kind =>
    rw [hisOf.macroText_eq] at hm
    cases hm
  | @ofRoutine r' place kind typed =>
    obtain rfl : r = r' := by simpa [Declaring.ofRoutine] using htarget
    exact ⟨line, rfl⟩

/-- **What has a macro was declared by a `parameter` line**, and the macro is that of its name. -/
theorem exists_ofParameter (h : DeclaredBy src t lines r q k rd D) {text : Text}
    (hm : q.macroText = some text) :
    (∃ raw, D = .ofParameter src raw) ∧
      text = "opt->u.".toList ++ src.metric ++ '.' :: q.name := by
  obtain ⟨line, hdeclares⟩ := h.exists_declares
  obtain ⟨d, -, -, hisOf⟩ := h.isOf
  rw [hisOf.macroText_eq] at hm
  cases hdeclares with
  | parameter place kind => exact ⟨⟨_, rfl⟩, (eq_of_nonempty?_eq_some hm).symm⟩
  | ofRoutine place kind typed => cases hm

/-- **What an initializer mentions is used in the end**, if its routine had declared it. -/
theorem contains_used (h : DeclaredBy src t lines r q k rd D) {s w : Text}
    (hs : q.initializer = some s) (hw : w ∈ tokenTexts s) (hword : TokenClass.ofRun w = .word)
    (hknown : (rd.tables.body r).quantities.contains w = true)
    (hrun : ({ tables := t } : Reader).run src 1 lines = .ok rd') :
    (rd'.tables.body r).used.contains w = true := by
  obtain ⟨t', haccepted⟩ := h.accepted
  obtain ⟨d, hread, hterminated, hisOf⟩ := h.isOf
  have hmentioned : w ∈ d.mentions := DeclarationLine.mem_mentions_of_initializer hread hterminated
    (hisOf.initializer_eq.symm.trans hs) hw hword
  exact InitializedFrom.contains_used ⟨k, rd, D, q.name, t', haccepted, h.target,
    (Tables.mem_mentions_iff hread).1 hmentioned, .routine r, h.target, hknown⟩ hrun

/-- What a routine had when it declared a quantity, it has in the end, at some level. -/
theorem exists_get? (h : DeclaredBy src t lines r q k rd D)
    (hp : (rd.tables.body r).quantities.get? n = some p)
    (hrun : ({ tables := t } : Reader).run src 1 lines = .ok rd') :
    ∃ p', (rd'.tables.body r).quantities.get? n = some p' ∧ p' = { p with level := p'.level } := by
  obtain ⟨t', haccepted⟩ := h.accepted
  obtain ⟨line, -, haccepts⟩ := haccepted.line
  have hgrows := (Tables.grows_of_declare haccepts.declare_eq).trans (haccepted.grows hrun)
  obtain ⟨p', hp', -, heq⟩ := (hgrows.body r).quantities n p hp
  exact ⟨p', hp', heq⟩

/-- What a routine had when it declared a quantity comes from an earlier line. -/
theorem origin_of_get? (h : DeclaredBy src t lines r q k rd D)
    (hp : (rd.tables.body r).quantities.get? n = some p) :
    Origin src t (lines.take k) r p := by
  obtain ⟨t', haccepted⟩ := h.accepted
  exact origin_of_run haccepted.run hp

end DeclaredBy

/-! ### Origins over the built-ins -/

/-- **What was given is a built-in**, and what lines declare is none. -/
theorem Origin.cases_builtin (h : Origin src Tables.withBuiltins lines r q) :
    (q.isBuiltin = true ∧ ∃ b ∈ Builtin.all, b.Gives q) ∨
      q.isBuiltin = false ∧ ∃ k rd D, DeclaredBy src Tables.withBuiltins lines r q k rd D := by
  cases h with
  | given known same =>
    obtain ⟨b, hb, d, hread, hisOf⟩ := Tables.exists_builtin_of_get? known
    have hisOf' := hisOf.of_level same
    exact .inl ⟨beq_iff_eq.2 hisOf'.line_eq, b, hb, d, hread, hisOf'⟩
  | @declared k rd D declaredBy =>
    refine .inr ⟨?_, k, rd, D, declaredBy⟩
    rw [Quantity.isBuiltin, declaredBy.line_eq, builtinLine]
    exact beq_eq_false_iff_ne.2 (by omega)

theorem Origin.exists_builtin (h : Origin src Tables.withBuiltins lines r q)
    (hq : q.isBuiltin = true) : ∃ b ∈ Builtin.all, b.Gives q := by
  rcases h.cases_builtin with ⟨-, hbuiltin⟩ | ⟨hnot, -⟩
  · exact hbuiltin
  · cases hnot.symm.trans hq

theorem Origin.exists_declaredBy (h : Origin src Tables.withBuiltins lines r q)
    (hq : q.isBuiltin = false) : ∃ k rd D,
      DeclaredBy src Tables.withBuiltins lines r q k rd D := by
  rcases h.cases_builtin with ⟨hbuiltin, -⟩ | ⟨-, hdeclared⟩
  · cases hbuiltin.symm.trans hq
  · exact hdeclared

end Reader

namespace Metric

variable {src : Source} {pr : Propagation} {text : Text} {m : Metric} {r : Routine} {n : Name}
  {q : Quantity}

/-- Every quantity of a compiled metric has an origin. -/
theorem origin_of_compile (h : compile src pr text = .ok m)
    (hq : (m.body r).quantities.get? n = some q) :
    Reader.Origin src Tables.withBuiltins (Text.lines text) r q := by
  obtain ⟨rd, hrun, hbody⟩ := exists_run_of_compile h
  rw [(hbody r).1] at hq
  exact Reader.origin_of_run hrun hq

end Metric

end RankMetric
