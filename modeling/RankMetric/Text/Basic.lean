/-!
# Text

Everything the library reads and writes is a list of characters, so that every function on it is
plain recursion on a list. Strings occur at the outer edge only.

Offsets and cuts are counted in UTF-8 bytes. `byteLength` measures a text and `dropBytes` cuts one
at such an offset: `dropBytes_append` says that cutting at the length of a front part leaves the
rest, and `isBoundary_iff` that an offset falls inside a character if no front part has that length.
Numbers are written in decimal by `ofNat` and `ofInt`.
-/

namespace RankMetric

/-- A text is a list of characters. -/
abbrev Text := List Char

namespace Text

/-! ### Measuring and cutting -/

/-- The number of bytes that the UTF-8 form of a text takes. -/
def byteLength : Text → Nat
  | [] => 0
  | c :: s => c.utf8Size + byteLength s

@[simp] theorem byteLength_nil : byteLength [] = 0 := rfl

@[simp] theorem byteLength_cons (c : Char) (s : Text) :
    byteLength (c :: s) = c.utf8Size + byteLength s := rfl

@[simp] theorem byteLength_append (s t : Text) :
    byteLength (s ++ t) = byteLength s + byteLength t := by
  induction s with
  | nil => simp
  | cons c s ih => simp [ih, Nat.add_assoc]

/-- What is left of a text after its first `n` bytes. A cut inside a character takes the whole
character away. -/
def dropBytes : Nat → Text → Text
  | _, [] => []
  | 0, c :: s => c :: s
  | n + 1, c :: s => dropBytes (n + 1 - c.utf8Size) s

@[simp] theorem dropBytes_nil (n : Nat) : dropBytes n [] = [] := by
  cases n <;> rfl

@[simp] theorem dropBytes_zero (s : Text) : dropBytes 0 s = s := by
  cases s <;> rfl

theorem dropBytes_cons {n : Nat} (hn : 0 < n) (c : Char) (s : Text) :
    dropBytes n (c :: s) = dropBytes (n - c.utf8Size) s := by
  cases n with
  | zero => exact absurd hn (Nat.lt_irrefl 0)
  | succ n => rfl

/-- A cut at the length of a front part leaves the rest. -/
theorem dropBytes_append (s t : Text) : dropBytes (byteLength s) (s ++ t) = t := by
  induction s with
  | nil => simp
  | cons c s ih =>
    have hc : 0 < c.utf8Size := Char.utf8Size_pos c
    rw [List.cons_append, dropBytes_cons (by simp; omega)]
    simpa [Nat.add_sub_cancel_left] using ih

/-- What a cut leaves is the end of the text. -/
theorem dropBytes_suffix (n : Nat) (l : Text) : dropBytes n l <:+ l := by
  induction l generalizing n with
  | nil => simp
  | cons c l ih =>
    rcases Nat.eq_zero_or_pos n with rfl | hn
    · simp
    · rw [dropBytes_cons hn]
      exact (ih _).trans (List.suffix_cons c l)

/-- A text is cut in one way only at a number of bytes. -/
theorem append_inj_of_byteLength_eq {s t p p' : Text} (h : p ++ s = p' ++ t)
    (hlength : byteLength p = byteLength p') : p = p' ∧ s = t := by
  have hrest : s = t := by
    rw [← dropBytes_append p s, h, hlength, dropBytes_append]
  subst hrest
  exact ⟨List.append_cancel_right h, rfl⟩

/-- Whether the byte offset `n` lies between two characters of a text, or at one of its ends. -/
def isBoundary : Nat → Text → Bool
  | 0, _ => true
  | _ + 1, [] => false
  | n + 1, c :: s => c.utf8Size ≤ n + 1 && isBoundary (n + 1 - c.utf8Size) s

/-- An offset lies between two characters if and only if a front part has that length. -/
theorem isBoundary_iff {n : Nat} {s : Text} :
    isBoundary n s = true ↔ ∃ p, p <+: s ∧ byteLength p = n := by
  induction s generalizing n with
  | nil => cases n <;> simp [isBoundary]
  | cons c s ih =>
    have hc : 0 < c.utf8Size := Char.utf8Size_pos c
    cases n with
    | zero => simpa [isBoundary] using ⟨[], List.nil_prefix, rfl⟩
    | succ n =>
      rw [isBoundary, Bool.and_eq_true, decide_eq_true_eq, ih]
      constructor
      · rintro ⟨hle, p, hp, hlength⟩
        exact ⟨c :: p, List.cons_prefix_cons.2 ⟨rfl, hp⟩, by rw [byteLength_cons]; omega⟩
      · rintro ⟨p, hp, hlength⟩
        cases p with
        | nil => cases hlength
        | cons d p =>
          obtain ⟨rfl, hrest⟩ := List.cons_prefix_cons.1 hp
          rw [byteLength_cons] at hlength
          exact ⟨by omega, p, hrest, by omega⟩

/-! ### Numbers -/

/-- The decimal digits of a natural number. -/
def ofNat (n : Nat) : Text :=
  Nat.toDigits 10 n

/-- A natural number is written with digits. -/
theorem isDigit_of_mem_ofNat {n : Nat} {c : Char} (h : c ∈ ofNat n) : c.isDigit = true :=
  Nat.isDigit_of_mem_toDigits (by decide) (by decide) h

theorem notMem_ofNat {c : Char} (hc : c.isDigit = false) (n : Nat) : c ∉ ofNat n :=
  fun h ↦ Bool.false_ne_true (hc.symm.trans (isDigit_of_mem_ofNat h))

/-- Natural numbers that are written alike are equal. -/
theorem ofNat_inj {m n : Nat} (h : ofNat m = ofNat n) : m = n := by
  have hread : ∀ k, Nat.ofDigitChars 10 (ofNat k) 0 = k := fun k ↦
    Nat.ofDigitChars_toDigits (by decide) (by decide)
  rw [← hread m, h, hread]

/-- An integer in decimal, with a minus sign if it is negative. -/
def ofInt (n : Int) : Text :=
  if n < 0 then '-' :: ofNat n.natAbs else ofNat n.natAbs

/-! ### Padding -/

/-- A run of `n` spaces. -/
def spaces (n : Nat) : Text :=
  List.replicate n ' '

/-- `some s` for a text that is not empty. -/
def nonempty? (s : Text) : Option Text :=
  if s.isEmpty then none else some s

end Text

end RankMetric
