import RankMetric.Proofs.TokenOffsets

/-!
# The segments of a line

What the tokens of a line are can be said without saying how they are found. `Segments` asks nothing
but what can be seen on the tokens, one by one and in pairs of neighbours: their texts make up the
line and none is empty, an offset counts the bytes before it, the characters of a token are of its
class, a terminator is a single `;`, and neighbours are of unlike classes or both terminators.

* `OfClass.isRun_iff`, `OfClass.apart_iff`: a text of one class is a run unless it is several
  terminators, and two of them join unless their classes differ or are the terminator. So the
  conditions on classes say that the texts are runs of which neighbours stand apart, and there is
  one way only to cut a line into those.
* `eq_place_iff`: tokens are known from their texts if their offsets count the bytes before them and
  their classes are those of their characters.
* `segments_iff`: the segments of a line are its tokens, and there are no others.
-/

namespace RankMetric

open Text

/-- Each token stands behind the texts of those before it, the first at the byte offset `n`. -/
def ConsecutiveFrom (n : Nat) (xs : List Token) : Prop :=
  ∀ before x after, xs = before ++ x :: after →
    x.offset = n + byteLength (before.map Token.text).flatten

/-- The tokens are segments of a line: the line is cut into them, and each is a run of characters of
one class that is as long as it can be, the terminator alone excepted. -/
structure Segments (line : Text) (xs : List Token) : Prop where
  ne_nil : ∀ x ∈ xs, x.text ≠ []
  flatten_eq : (xs.map Token.text).flatten = line
  consecutive : ConsecutiveFrom 0 xs
  ofChar_eq : ∀ x ∈ xs, ∀ c ∈ x.text, TokenClass.ofChar c = x.cls
  terminator_eq : ∀ x ∈ xs, x.cls = .terminator → x.text = [';']
  neighbours : xs.IsChain fun x y ↦ x.cls = y.cls → x.cls = .terminator ∧ y.cls = .terminator

variable {line r s : Text} {xs : List Token} {x : Token} {cls cls' : TokenClass} {n : Nat}

/-! ### Texts of one class -/

namespace Text

theorem OfClass.ofRun_eq (h : OfClass cls r) : TokenClass.ofRun r = cls := by
  obtain ⟨c, r, rfl⟩ := List.exists_cons_of_ne_nil h.ne_nil
  exact h.ofChar_eq c List.mem_cons_self

/-- **Characters of one class** are a run, and of terminators one alone is. -/
theorem OfClass.isRun_iff (h : OfClass cls r) : IsRun r ↔ (cls = .terminator → r = [';']) := by
  constructor
  · rintro hrun rfl
    obtain ⟨c, r, rfl⟩ := List.exists_cons_of_ne_nil h.ne_nil
    have hc : TokenClass.ofChar c = .terminator := h.ofChar_eq c List.mem_cons_self
    obtain rfl : c = ';' := ofChar_eq_terminator_iff.1 hc
    cases r with
    | nil => rfl
    | cons d r =>
      -- a terminator does not join what follows it
      have hjoin := (List.isChain_cons_cons.1 hrun.joined).1
      rw [TokenClass.joins, hc] at hjoin
      cases (Bool.and_eq_true_iff.1 hjoin).2
  · intro hterminator
    by_cases hcls : cls = .terminator
    · rw [hterminator hcls]
      exact ⟨by simp, List.isChain_singleton _⟩
    · exact h.isRun hcls

/-- **Texts of one class each** stand apart unless they are of the same one, which is not that of
the terminator. -/
theorem OfClass.apart_iff (h : OfClass cls r) (h' : OfClass cls' s) :
    r.Apart s ↔ (cls = cls' → cls = .terminator) := by
  have hjoins : ∀ c ∈ r.getLast?, ∀ d ∈ s.head?,
      TokenClass.joins c d = (cls == cls' && cls != .terminator) := by
    intro c hc d hd
    rw [TokenClass.joins, h.ofChar_eq c (List.mem_of_mem_getLast? hc),
      h'.ofChar_eq d (List.mem_of_mem_head? hd)]
  have hfalse : (cls == cls' && cls != .terminator) = false ↔ (cls = cls' → cls = .terminator) := by
    cases cls <;> cases cls' <;> decide
  rw [← hfalse]
  constructor
  · intro hapart
    have hc := List.getLast?_eq_some_getLast h.ne_nil
    have hd := List.head?_eq_some_head h'.ne_nil
    rw [← hjoins _ hc _ hd, hapart _ hc _ hd]
  · exact fun hnot c hc d hd ↦ (hjoins c hc d hd).trans hnot

end Text

/-! ### Tokens from their texts -/

theorem consecutiveFrom_cons :
    ConsecutiveFrom n (x :: xs) ↔
      x.offset = n ∧ ConsecutiveFrom (n + byteLength x.text) xs := by
  constructor
  · intro h
    refine ⟨by simpa using h [] x xs rfl, fun before y after hxs ↦ ?_⟩
    have hoffset := h (x :: before) y after (by rw [hxs, List.cons_append])
    rw [hoffset, List.map_cons, List.flatten_cons, byteLength_append, Nat.add_assoc]
  · rintro ⟨hoffset, hxs⟩ before y after heq
    rcases List.cons_eq_append_iff.1 heq with ⟨rfl, hcons⟩ | ⟨before, rfl, hrest⟩
    · obtain ⟨rfl, -⟩ := List.cons.inj hcons
      simpa using hoffset
    · rw [hxs before y after hrest, List.map_cons, List.flatten_cons, byteLength_append,
        Nat.add_assoc]

/-- **Tokens are those placed for their texts** if and only if they are consecutive and have the
classes of their texts. -/
theorem eq_place_iff : xs = place n (xs.map Token.text) ↔
    ConsecutiveFrom n xs ∧ ∀ x ∈ xs, x.cls = .ofRun x.text := by
  induction xs generalizing n with
  | nil => simp [place, ConsecutiveFrom]
  | cons x xs ih =>
    obtain ⟨text, offset, cls⟩ := x
    rw [List.map_cons, place, List.cons.injEq, ih, consecutiveFrom_cons, List.forall_mem_cons]
    simp only [Token.mk.injEq, true_and]
    exact and_and_and_comm

/-! ### Segments and tokens -/

namespace Segments

theorem ofClass (h : Segments line xs) (hx : x ∈ xs) : OfClass x.cls x.text :=
  ⟨h.ne_nil x hx, h.ofChar_eq x hx⟩

/-- The texts of segments are the runs of the line. -/
theorem runs_eq (h : Segments line xs) : runs line = xs.map Token.text := by
  refine runs_eq_iff.2 ⟨h.flatten_eq, ?_, ?_⟩
  · intro r hr
    obtain ⟨x, hx, rfl⟩ := List.mem_map.1 hr
    exact (h.ofClass hx).isRun_iff.2 (h.terminator_eq x hx)
  · refine (List.isChain_map _).2 (h.neighbours.imp_of_mem_imp fun x y hx hy hxy ↦ ?_)
    exact ((h.ofClass hx).apart_iff (h.ofClass hy)).2 fun hcls ↦ (hxy hcls).1

theorem eq_tokenize (h : Segments line xs) : xs = tokenize line := by
  rw [tokenize, h.runs_eq]
  exact eq_place_iff.2 ⟨h.consecutive, fun x hx ↦ (h.ofClass hx).ofRun_eq.symm⟩

end Segments

theorem segments_tokenize (line : Text) : Segments line (tokenize line) := by
  have hclass : ∀ x ∈ tokenize line, OfClass x.cls x.text := fun x hx ↦ by
    rw [cls_of_mem_tokenize hx]
    exact (isRun_of_mem_tokenize hx).ofClass
  have hplace : tokenize line = place 0 ((tokenize line).map Token.text) := by
    rw [tokenize_texts, tokenize]
  obtain ⟨hflat, -, hborders⟩ := runs_eq_iff.1 (tokenize_texts line).symm
  constructor
  case ne_nil => exact fun x hx ↦ (hclass x hx).ne_nil
  case flatten_eq => exact hflat
  case consecutive => exact (eq_place_iff.1 hplace).1
  case ofChar_eq => exact fun x hx ↦ (hclass x hx).ofChar_eq
  case terminator_eq => exact fun x hx ↦ (hclass x hx).isRun_iff.1 (isRun_of_mem_tokenize hx)
  case neighbours =>
    refine ((List.isChain_map _).1 hborders).imp_of_mem_imp fun x y hx hy hapart hcls ↦ ?_
    have hterminator := ((hclass x hx).apart_iff (hclass y hy)).1 hapart hcls
    exact ⟨hterminator, hcls ▸ hterminator⟩

/-- **The tokens of a line are its only segments.** -/
theorem segments_iff (line : Text) (xs : List Token) : Segments line xs ↔ xs = tokenize line := by
  constructor
  · exact Segments.eq_tokenize
  · rintro rfl
    exact segments_tokenize line

example : tokenize "é =;;".toList =
    [⟨['é'], 0, .word⟩, ⟨[' '], 2, .space⟩, ⟨['='], 3, .operator⟩, ⟨[';'], 4, .terminator⟩,
      ⟨[';'], 5, .terminator⟩] := by
  decide

end RankMetric
