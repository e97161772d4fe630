import RankMetric.Emission
import RankMetric.Proofs.DeclarationVerdicts
import RankMetric.Proofs.TokenOffsets

/-!
# Rendered declarations can be read again

A declaration is rendered from its type, its name and its initializer, and the line is read with the
same result. Three things have to be seen for that.

* The type words are the tokens of the type, whatever they are (`tokenTexts_declarationFront`). A
  type that ends with a star is not followed by a blank, and a name that is a word needs none.
* The initializer is what stands between the end of the name and the first terminator, so the offset
  of the name matters (`significant_declarationText`). It has lost its outer blanks, and rendering
  puts one in front (`DeclarationLine.nonempty?_trim_declarationTail`).
* A line without `#` and `/*` has no comment (`DeclarationLine.exists_splitComment_of_notMem`).

`DeclarationLine.read_render` puts them together for one line, and `Tables.exists_declare_render`
says it of every quantity that was declared.
-/

namespace RankMetric

open Text

/-! ### Type runs of equal texts -/

/-- Which tokens are type words is decided by their texts. -/
theorem TypeRun.of_texts {front rest front' rest' : List Token} (h : TypeRun front rest)
    (hfront : front'.map Token.text = front.map Token.text)
    (hrest : rest'.head?.map Token.text = rest.head?.map Token.text) : TypeRun front' rest' := by
  induction h generalizing front' with
  | @nil rest next =>
    obtain rfl := List.map_eq_nil_iff.1 hfront
    refine .nil fun x hx ↦ ?_
    rw [Option.mem_def.1 hx, Option.map_some, eq_comm, Option.map_eq_some_iff] at hrest
    obtain ⟨y, hy, htext⟩ := hrest
    rw [← htext]
    exact next y hy
  | word isType untagged _ ih =>
    obtain ⟨x, xs, rfl, hx, hxs⟩ := List.map_eq_cons_iff.1 hfront
    exact .word (hx ▸ isType) (hx ▸ untagged) (ih hxs hrest)
  | tagged takes _ ih =>
    obtain ⟨x, xs, rfl, hx, hxs⟩ := List.map_eq_cons_iff.1 hfront
    obtain ⟨y, ys, rfl, -, hys⟩ := List.map_eq_cons_iff.1 hxs
    exact .tagged (hx ▸ takes) (ih hys hrest)
  | tagless takes =>
    obtain ⟨x, xs, rfl, hx, hxs⟩ := List.map_eq_cons_iff.1 hfront
    obtain rfl := List.map_eq_nil_iff.1 hxs
    obtain rfl : rest' = [] := by simpa using hrest
    exact .tagless (hx ▸ takes)

/-! ### Rendering -/

/-- The empty substitution changes nothing. -/
theorem Substitution.apply_empty (s : Text) : Substitution.apply .empty s = s := by
  have hreplace : Substitution.replace .empty = id := rfl
  rw [apply, hreplace, List.flatMap_id]
  exact flatten_runs s

/-- What stands in front of the name in a rendered declaration. -/
def declarationFront (dent : Nat) (type : Text) : Text :=
  spaces dent ++ type ++ if type.getLast? = some '*' then [] else [' ']

/-- What stands behind the name in a rendered declaration. -/
def declarationTail (initializer : Option Text) : Text :=
  (match initializer with
    | some s => ' ' :: s
    | none => []) ++ [';']

theorem render_eq (dent : Nat) (q : Quantity) :
    q.render dent .empty =
      declarationFront dent q.type ++ (q.name ++ declarationTail q.initializer) := by
  unfold Quantity.render renderDeclaration declarationFront declarationTail
  cases q.initializer <;> simp [Substitution.apply_empty]

theorem isBlankText_spaces (n : Nat) : isBlankText (spaces n) = true := by
  rw [isBlankText, spaces, List.all_replicate]
  simp [isBlank]

/-- The tokens in front of the name are the words of the type. -/
theorem tokenTexts_declarationFront (dent : Nat) {words : List Text}
    (h : ∀ w ∈ words, IsRun w ∧ TokenClass.ofRun w ≠ .space) :
    tokenTexts (declarationFront dent (List.intercalate [' '] words)) = words := by
  have hgap : ∀ type : Text,
      isBlankText (if type.getLast? = some '*' then [] else [' ']) = true := by
    intro type
    split <;> rfl
  rw [declarationFront, tokenTexts_append_of_isBlankText _ (hgap _),
    tokenTexts_blank_append (isBlankText_spaces dent), tokenTexts_intercalate h]

variable {name : Name} {initializer : Option Text}

/-- A name that is a word stands apart from the type. -/
theorem apart_declarationFront (dent : Nat) (type : Text) (t : Text) (hrun : IsRun name)
    (hword : TokenClass.ofRun name = .word) : (declarationFront dent type).Apart (name ++ t) := by
  refine apart_of_ofChar_ne fun c hc d hd ↦ ?_
  rw [List.head?_append_of_ne_nil _ hrun.ne_nil] at hd
  rw [hrun.ofChar_eq (List.mem_of_mem_head? hd), hword]
  -- the character before the name is a blank or a star
  rw [declarationFront] at hc
  split at hc
  · next hstar =>
    have hne : type ≠ [] := by rintro rfl; cases hstar
    rw [List.append_nil, List.getLast?_append_of_ne_nil _ hne, hstar] at hc
    obtain rfl := Option.some.inj hc
    decide
  · rw [List.getLast?_append_of_ne_nil _ (by simp)] at hc
    obtain rfl := Option.some.inj hc
    decide

/-- A name that is a word stands apart from what follows it. -/
theorem apart_declarationTail (hrun : IsRun name) (hword : TokenClass.ofRun name = .word) :
    Text.Apart name (declarationTail initializer) := by
  refine apart_of_ofChar_ne fun c hc d hd ↦ ?_
  rw [hrun.ofChar_eq (List.mem_of_mem_getLast? hc), hword]
  cases initializer <;> (obtain rfl := Option.some.inj hd; decide)

/-- The tail ends with a terminator. -/
theorem getLast?_significant_declarationTail (initializer : Option Text) :
    (significant (declarationTail initializer)).getLast?.any Token.isTerminator = true := by
  have hrun : IsRun [';'] := ⟨by simp, List.isChain_singleton _⟩
  unfold declarationTail
  rw [significant_append (apart_terminator _ []), significant_of_isRun hrun (by decide),
    List.map_singleton, List.getLast?_concat]
  rfl

/-- **The tokens of a rendered declaration** are the type words, the name and those of the tail. -/
theorem significant_declarationText (dent : Nat) (type : Text) (initializer : Option Text)
    (hrun : IsRun name) (hword : TokenClass.ofRun name = .word) :
    significant (declarationFront dent type ++ (name ++ declarationTail initializer)) =
      significant (declarationFront dent type) ++
        ⟨name, byteLength (declarationFront dent type), .word⟩ ::
          (significant (declarationTail initializer)).map
            (Token.shift (byteLength (declarationFront dent type) + byteLength name)) := by
  have hname : significant name = [⟨name, 0, .word⟩] := by
    rw [significant_of_isRun hrun (by rw [hword]; decide), hword]
  have hshift : ∀ m n, Token.shift m ∘ Token.shift n = Token.shift (m + n) := fun m n ↦
    funext fun x ↦ by simp [Token.shift, Nat.add_assoc]
  rw [significant_append (apart_declarationFront dent type _ hrun hword),
    significant_append (apart_declarationTail hrun hword), hname, List.singleton_append,
    List.map_cons, List.map_map, hshift]
  rfl

namespace DeclarationLine

/-- A line without the marks of a comment is all code. -/
theorem exists_splitComment_of_notMem {raw : Text} (hhash : '#' ∉ raw)
    (hblock : ¬ ['/', '*'] <:+: raw) : ∃ comment, splitComment raw = some (raw, comment) := by
  obtain ⟨remark, hsplit⟩ := exists_splitComment_eq raw
  rw [uncommented_of_notMem hhash, cutBlock, breakOn_eq_none_iff.2 hblock] at hsplit
  exact ⟨_, hsplit⟩

/-- What a line has for its initializer is trimmed and ends before the first terminator. -/
theorem nonempty?_trim_declarationTail (s : Text) :
    nonempty? (trim ((declarationTail (nonempty? (trim (s.takeWhile (· ≠ ';'))))).takeWhile
      (· ≠ ';'))) = nonempty? (trim (s.takeWhile (· ≠ ';'))) := by
  have hmem : ∀ c ∈ trim (s.takeWhile (· ≠ ';')), c ≠ ';' := fun c hc ↦ by
    have hall := List.all_eq_true.1 (List.all_takeWhile (p := (· ≠ ';')) (l := s))
    simpa using hall c (mem_of_mem_trim hc)
  generalize hinit : trim (s.takeWhile (· ≠ ';')) = init at hmem
  cases init with
  | nil => rfl
  | cons c t =>
    have htake : (' ' :: c :: t ++ [';']).takeWhile (· ≠ ';') = ' ' :: c :: t := by
      rw [List.takeWhile_append_of_pos]
      · simp
      · intro d hd
        rcases List.mem_cons.1 hd with rfl | hd
        · decide
        · simpa using hmem d hd
    show nonempty? (trim ((' ' :: c :: t ++ [';']).takeWhile (· ≠ ';'))) = some (c :: t)
    rw [htake, ← hinit, trim_cons_of_isBlank rfl, hinit]
    rfl

/-- **A rendered line is read as what it was rendered from.** -/
theorem read_render {raw : Text} {d : DeclarationLine} (h : read raw = .ok d) {q : Quantity}
    (htype : q.type = d.type) (hname : q.name = d.name) (hinit : q.initializer = d.initializer)
    (hword : TokenClass.ofRun q.name = .word) {dent : Nat} (hhash : '#' ∉ q.render dent .empty)
    (hblock : ¬ ['/', '*'] <:+: q.render dent .empty) :
    ∃ d', read (q.render dent .empty) = .ok d' ∧ d'.isTerminated = true ∧ d'.name = d.name ∧
      d'.type = d.type ∧ d'.initializer = d.initializer := by
  obtain ⟨comment, hsplit⟩ := exists_splitComment_of_notMem hhash hblock
  obtain ⟨code, _, front, name, rest, -, htokens, hrun, -, hd⟩ := read_eq_ok_iff.1 h
  have hdname : d.name = name.text := congrArg DeclarationLine.name hd
  have hdtype : d.type = List.intercalate [' '] (front.map Token.text) :=
    congrArg DeclarationLine.type hd
  have hdinit : d.initializer =
      nonempty? (trim ((dropBytes name.stop (trimEnd code)).takeWhile (· ≠ ';'))) :=
    congrArg DeclarationLine.initializer hd
  have hmem : ∀ x ∈ front ++ name :: rest, IsRun x.text ∧ TokenClass.ofRun x.text ≠ .space := by
    intro x hx
    have hx' : x.text ∈ tokenTexts (trimEnd code) := by
      rw [tokenTexts, htokens]
      exact List.mem_map_of_mem hx
    exact ⟨isRun_of_mem_tokenTexts hx', ofRun_ne_space_of_mem_tokenTexts hx'⟩
  have hnameRun : IsRun q.name := by
    rw [hname, hdname]
    exact (hmem name (by simp)).1
  have hwords : ∀ w ∈ front.map Token.text, IsRun w ∧ TokenClass.ofRun w ≠ .space := by
    intro w hw
    obtain ⟨x, hx, rfl⟩ := List.mem_map.1 hw
    exact hmem x (by simp [hx])
  -- the tokens of the rendered line
  rw [render_eq] at hsplit ⊢
  have hend : trimEnd (declarationFront dent q.type ++ (q.name ++ declarationTail q.initializer)) =
      declarationFront dent q.type ++ (q.name ++ declarationTail q.initializer) := by
    unfold declarationTail
    rw [← List.append_assoc, ← List.append_assoc]
    exact trimEnd_concat rfl _
  have hsignificant := significant_declarationText dent q.type q.initializer hnameRun hword
  have hfront : (significant (declarationFront dent q.type)).map Token.text =
      front.map Token.text := by
    rw [htype, hdtype]
    exact tokenTexts_declarationFront dent hwords
  rw [← hend] at hsignificant
  have hread := read_of_name hsplit hsignificant
    (hrun.of_texts hfront (congrArg some (hname.trans hdname))) rfl
  refine ⟨_, hread, ?_, hname, ?_, ?_⟩
  · have hlast := getLast?_significant_declarationTail q.initializer
    rw [ofTokens, List.getLast?_map, Option.any_map]
    exact hlast
  · rw [ofTokens, hfront, hdtype]
  · -- behind the name stands the tail
    have hdrop : dropBytes (byteLength (declarationFront dent q.type) + byteLength q.name)
        (declarationFront dent q.type ++ (q.name ++ declarationTail q.initializer)) =
        declarationTail q.initializer := by
      rw [← byteLength_append, ← List.append_assoc, dropBytes_append]
    rw [hend]
    show nonempty? (trim ((dropBytes (byteLength (declarationFront dent q.type) +
      byteLength q.name) _).takeWhile (· ≠ ';'))) = _
    rw [hdrop, hinit, hdinit]
    exact nonempty?_trim_declarationTail _

end DeclarationLine

namespace Tables

variable {t t' : Tables} {targets : List Scope} {file raw : Text} {line : Int} {level : Level}
  {attributes : Name → Attributes} {n : Name} {s : Scope} {q : Quantity}

/-- The record that an accepted line leaves has the type and the initializer of the line. -/
theorem exists_read_of_declare
    (h : t.declare file targets raw line level attributes = .ok (n, t')) :
    ∃ d, DeclarationLine.read raw = .ok d ∧ d.name = n ∧
      ∀ s ∈ targets, ∃ q, (t'.quantities s).get? n = some q ∧ q.name = d.name ∧ q.type = d.type ∧
        q.initializer = d.initializer := by
  obtain ⟨d, q, hread, -, rfl, hq, -, -, hget⟩ := exists_record_of_declare h
  exact ⟨d, hread, rfl, fun s hs ↦
    ⟨q, (hget s d.name).trans (if_pos ⟨hs, rfl⟩), hq.name_eq, hq.type_eq, hq.initializer_eq⟩⟩

/-- A line that can be taken apart and is terminated can be declared where nothing is declared. -/
theorem exists_declare_empty {d : DeclarationLine} (h : DeclarationLine.read raw = .ok d)
    (hterminated : d.isTerminated = true) (file : Text) (targets : List Scope) (line : Int)
    (level : Level) (attributes : Name → Attributes) : ∃ t',
      empty.declare file targets raw line level attributes = .ok (d.name, t') := by
  have hunknown : empty.knows targets d.name = false := by
    refine knows_eq_false_iff.2 fun s _ ↦ ?_
    rcases s with - | ⟨- | -⟩ <;> rfl
  exact ⟨_, declare_eq_ok_iff.2 ⟨d, h, hunknown, hterminated, rfl, rfl⟩⟩

/-- **A rendered declaration is read as itself.** A quantity that was declared, and whose name is a
word, is rendered at any indentation. If the line has no mark of a comment, it can be declared where
nothing is declared, with the same name, the same type and the same initializer. -/
theorem exists_declare_render (h : t.declare file targets raw line level attributes = .ok (n, t'))
    (hs : s ∈ targets) (hq : (t'.quantities s).get? n = some q)
    (hword : TokenClass.ofRun q.name = .word) {dent : Nat} (hhash : '#' ∉ q.render dent .empty)
    (hblock : ¬ ['/', '*'] <:+: q.render dent .empty) (file' : Text) (targets' : List Scope)
    (line' : Int) (level' : Level) (attributes' : Name → Attributes) :
    ∃ t'', empty.declare file' targets' (q.render dent .empty) line' level' attributes' =
        .ok (q.name, t'') ∧
      ∀ s' ∈ targets', ∃ q', (t''.quantities s').get? q.name = some q' ∧ q'.name = q.name ∧
        q'.type = q.type ∧ q'.initializer = q.initializer := by
  obtain ⟨d, hread, rfl, hrecord⟩ := exists_read_of_declare h
  obtain ⟨p, hp, hname, htype, hinit⟩ := hrecord s hs
  obtain rfl := Option.some.inj (hq.symm.trans hp)
  obtain ⟨d', hread', hterminated, hname', htype', hinit'⟩ :=
    DeclarationLine.read_render hread htype hname hinit hword hhash hblock
  obtain ⟨t'', hdeclare⟩ :=
    exists_declare_empty hread' hterminated file' targets' line' level' attributes'
  obtain ⟨d'', hread'', hname'', hrecord'⟩ := exists_read_of_declare hdeclare
  obtain rfl := Except.ok.inj (hread'.symm.trans hread'')
  rw [hname, ← hname']
  refine ⟨t'', hdeclare, fun s' hs' ↦ ?_⟩
  obtain ⟨q', hq', hqname, hqtype, hqinit⟩ := hrecord' s' hs'
  exact ⟨q', hq', hqname, hqtype.trans (htype'.trans htype.symm),
    hqinit.trans (hinit'.trans hinit.symm)⟩

/-- A declaration whose type has a tag and ends with a star. -/
def taggedLine : Text :=
  "  const struct docstat *  ds = lookup(d) ; # of the document".toList

theorem exists_declare_render_taggedLine : ∃ t' q,
    empty.declare [] [.routine .decode] taggedLine 1 .perDocument (fun _ ↦ {}) =
        .ok ("ds".toList, t') ∧
      (t'.quantities (.routine .decode)).get? "ds".toList = some q ∧
      q.render 4 .empty = "    const struct docstat *ds = lookup(d);".toList ∧
      ∃ t'', empty.declare [] [.params] (q.render 4 .empty) 1 .constant (fun _ ↦ {}) =
          .ok (q.name, t'') ∧
        ∀ s' ∈ [Scope.params], ∃ q', (t''.quantities s').get? q.name = some q' ∧
          q'.name = q.name ∧ q'.type = q.type ∧ q'.initializer = q.initializer := by
  have hdeclare : (empty.declare [] [.routine .decode] taggedLine 1 .perDocument
      (fun _ ↦ {})).toOption.map (fun p ↦ (p.1, ((p.2.quantities (.routine .decode)).get?
        "ds".toList).map fun q ↦ (q.name, q.type, q.initializer))) =
      some ("ds".toList, some ("ds".toList, "const struct docstat *".toList,
        some "= lookup(d)".toList)) := by
    decide +kernel
  cases hresult : empty.declare [] [.routine .decode] taggedLine 1 .perDocument (fun _ ↦ {}) with
  | error e =>
    rw [hresult] at hdeclare
    cases hdeclare
  | ok p =>
    obtain ⟨n, t'⟩ := p
    rw [hresult] at hdeclare
    obtain ⟨hn, hrecord⟩ := Prod.mk.inj (Option.some.inj hdeclare)
    obtain ⟨q, hq, hfields⟩ := Option.map_eq_some_iff.1 hrecord
    obtain ⟨hname, hfields⟩ := Prod.mk.inj hfields
    obtain ⟨htype, hinit⟩ := Prod.mk.inj hfields
    have hrender : q.render 4 .empty = "    const struct docstat *ds = lookup(d);".toList := by
      rw [Quantity.render, hname, htype, hinit]
      decide +kernel
    obtain rfl := hn
    refine ⟨t', q, rfl, hq, hrender, ?_⟩
    exact exists_declare_render hresult List.mem_cons_self hq (by rw [hname]; decide +kernel)
      (by rw [hrender]; decide +kernel) (by rw [hrender]; decide +kernel) [] [.params] 1 .constant _

end Tables

end RankMetric
