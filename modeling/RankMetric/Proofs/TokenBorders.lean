import RankMetric.Levelling
import RankMetric.Proofs.TokenOffsets
import RankMetric.Substitution

/-!
# Borders between texts

Two texts that are put together keep their tokens if they meet at a border of classes: the last
character of the one and the first of the other are of unlike classes or both terminators, or one of
the texts is empty (`Text.Border`). Elsewhere a token of the one and a token of the other become one
token, and that cannot go unnoticed.

* `apart_iff_border`: texts meet at a border if and only if they stand apart.
* `apart_of_apply_append`: a substitution that doubles the last token of the first text sees that
  the token is glued to the next one, for there is one token less to be doubled, and so the text is
  shorter (`Substitution.length_apply_doubling`).
* `append_distributes_iff`: both the cut into tokens and substitution distribute over putting texts
  together exactly at borders.
-/

namespace RankMetric

open Text

variable {s t : Text} {c d : Char}

/-! ### Where texts meet -/

/-- The texts meet at a border of classes. -/
def Text.Border (s t : Text) : Prop :=
  s = [] ∨ t = [] ∨ ∃ c ∈ s.getLast?, ∃ d ∈ t.head?,
    TokenClass.ofChar c ≠ TokenClass.ofChar d ∨ c = ';' ∧ d = ';'

theorem joins_eq_false_iff : TokenClass.joins c d = false ↔
    TokenClass.ofChar c ≠ TokenClass.ofChar d ∨ c = ';' ∧ d = ';' := by
  rw [TokenClass.joins, Bool.and_eq_false_iff, beq_eq_false_iff_ne, bne_eq_false_iff_eq,
    ofChar_eq_terminator_iff]
  constructor
  · rintro (hne | rfl)
    · exact .inl hne
    · -- the other character is a terminator too, or of another class
      by_cases hd : d = ';'
      · exact .inr ⟨rfl, hd⟩
      · exact .inl fun heq ↦ hd (ofChar_eq_terminator_iff.1 heq.symm)
  · rintro (hne | ⟨hc, -⟩)
    · exact .inl hne
    · exact .inr hc

theorem apart_iff_border : s.Apart t ↔ s.Border t := by
  rcases List.eq_nil_or_concat s with rfl | ⟨s, c, rfl⟩
  · exact iff_of_true (apart_nil_left t) (.inl rfl)
  cases t with
  | nil => exact iff_of_true (apart_nil_right _) (.inr (.inl rfl))
  | cons d t => simp [Text.Apart, Text.Border, joins_eq_false_iff]

/-! ### Substitutions of one name -/

namespace Substitution

theorem apply_append (m : Substitution) (h : s.Apart t) :
    m.apply (s ++ t) = m.apply s ++ m.apply t := by
  rw [apply, runs_append h, List.flatMap_append]
  rfl

/-- The substitution that writes a token twice. -/
def doubling (w : Text) : Substitution :=
  NameIndex.empty.insert (w, w ++ w)

theorem replace_doubling (w r : Text) :
    (doubling w).replace r = if r = w then r ++ r else r := by
  rw [replace, doubling, NameIndex.get?_insert, NameIndex.get?_empty]
  by_cases h : r = w
  · rw [if_pos h.symm, if_pos h, h]
  · rw [if_neg (Ne.symm h), if_neg h]

/-- **Doubling a token** makes a text longer by as many times its length as it has the token. -/
theorem length_apply_doubling (w s : Text) :
    ((doubling w).apply s).length = s.length + (runs s).count w * w.length := by
  have hruns : ∀ rs : List Text, (rs.flatMap (doubling w).replace).length =
      rs.flatten.length + rs.count w * w.length := by
    intro rs
    induction rs with
    | nil => rw [List.flatMap_nil, List.count_nil, Nat.zero_mul]; rfl
    | cons r rs ih =>
      rw [List.flatMap_cons, List.length_append, ih, replace_doubling, List.flatten_cons,
        List.length_append, List.count_cons, Nat.add_mul]
      by_cases h : r = w
      · rw [if_pos h, if_pos (beq_iff_eq.2 h), List.length_append, Nat.one_mul, h]
        omega
      · rw [if_neg h, if_neg (mt beq_iff_eq.1 h), Nat.zero_mul]
        omega
  rw [apply, hruns, flatten_runs]

/-- **Texts that every substitution keeps apart** stand apart. -/
theorem apart_of_apply_append
    (h : ∀ m : Substitution, m.apply (s ++ t) = m.apply s ++ m.apply t) : s.Apart t := by
  by_contra hnot
  obtain ⟨init, last, first, rest, hs, ht, hglued⟩ := exists_runs_glued hnot
  have hlast : IsRun last := isRun_of_mem_runs (s := s) (by simp [hs])
  have hfirst : IsRun first := isRun_of_mem_runs (s := t) (by simp [ht])
  have hlength := congrArg List.length (h (doubling last))
  rw [List.length_append, length_apply_doubling, length_apply_doubling, length_apply_doubling,
    List.length_append] at hlength
  -- the last token of the first text is not found in the whole at that place
  have hcount : (runs (s ++ t)).count last < (runs s).count last + (runs t).count last := by
    have hne : ¬ (last ++ first == last) = true := by simp [hfirst.ne_nil]
    rw [hs, ht, hglued, List.count_append, List.count_append, List.count_cons, if_neg hne,
      List.count_singleton_self, List.count_cons]
    omega
  have hpos : 0 < last.length := List.length_pos_of_ne_nil hlast.ne_nil
  have hless := Nat.mul_lt_mul_of_pos_right hcount hpos
  rw [Nat.add_mul] at hless
  omega

end Substitution

/-! ### What is kept at borders -/

/-- **Tokens and substitutions distribute over texts that meet at a border**, and over no others. -/
theorem append_distributes_iff (s t : Text) :
    (tokenize (s ++ t) = tokenize s ++ (tokenize t).map (Token.shift (byteLength s)) ↔
      s.Border t) ∧
    ((∀ m : Substitution, m.apply (s ++ t) = m.apply s ++ m.apply t) ↔ s.Border t) := by
  rw [← apart_iff_border]
  refine ⟨⟨fun h ↦ ?_, tokenize_append⟩, Substitution.apart_of_apply_append,
    fun h m ↦ m.apply_append h⟩
  -- equal tokens have equal texts, which are the runs
  have htexts := congrArg (List.map Token.text) h
  rw [List.map_append, List.map_map] at htexts
  have hshift : Token.text ∘ Token.shift (byteLength s) = Token.text := rfl
  rw [hshift, tokenize_texts, tokenize_texts, tokenize_texts] at htexts
  exact runs_append_iff.1 htexts

example : runs "t =(f_dt);".toList ≠ runs "t =".toList ++ runs "(f_dt);".toList ∧
    runs "t;;".toList = runs "t;".toList ++ runs ";".toList := by
  decide

/-! ### Lines that are joined -/

/-- **The lines of an assignment are joined at a border**, so substitution replaces the tokens of
each line, and none that is made of two lines. -/
theorem Assignment.apply_extend (a : Assignment) (line : Text) (m : Substitution) :
    m.apply (a.extend line).text = m.apply (trimEnd a.text) ++ m.apply (' ' :: line) := by
  refine m.apply_append fun c hc d hd ↦ not_joins_of_isBlank_ne ?_
  obtain rfl := Option.some.inj hd
  rw [not_isBlank_of_mem_getLast?_trimEnd hc]
  decide

end RankMetric
