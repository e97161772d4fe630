import RankMetric.Text.Basic

/-!
# Lines

Two cuts of a text at its line feeds. `pieces` keeps the line feed at the end of each piece, so the
pieces join to the text (`flatten_pieces`), and a text that ends a line can be cut apart from what
follows (`pieces_append`). `lines` drops the ending, a line feed or a carriage return and a line
feed, so that no line has a line feed (`notMem_of_mem_lines`), and `unlines` puts line feeds back.
`cells` cuts at every line feed and so has one cell more than there are line feeds; `joinCells` puts
the cells together again (`joinCells_cells`), and any cells without line feeds are those of the text
they join to (`cells_joinCells`).
-/

namespace RankMetric.Text

/-! ### Pieces with their endings -/

/-- The text cut after every line feed. -/
def pieces : Text → List Text
  | [] => []
  | c :: s =>
    if c = '\n' then [c] :: pieces s
    else
      match pieces s with
      | [] => [[c]]
      | p :: ps => (c :: p) :: ps

/-- The pieces of a text join to the text. -/
theorem flatten_pieces (s : Text) : (pieces s).flatten = s := by
  induction s with
  | nil => rfl
  | cons c s ih =>
    rw [pieces]
    split
    · simp [ih]
    · split
      · next h => simp_all
      · next p ps h => simp_all

/-- A cut after a line feed cuts no piece. -/
theorem pieces_append (s t : Text) :
    pieces (s ++ '\n' :: t) = pieces (s ++ ['\n']) ++ pieces t := by
  induction s with
  | nil => simp [pieces]
  | cons c s ih =>
    have hne : pieces (s ++ ['\n']) ≠ [] := fun h ↦ by
      have := flatten_pieces (s ++ ['\n'])
      simp [h] at this
    simp only [List.cons_append, pieces]
    split
    · simp [ih]
    · rw [ih]
      cases h : pieces (s ++ ['\n']) with
      | nil => exact absurd h hne
      | cons p ps => simp

/-- A piece without its ending: a line feed, or a carriage return and a line feed. -/
def dropEnding (p : Text) : Text :=
  match p.reverse with
  | '\n' :: '\r' :: r => r.reverse
  | '\n' :: r => r.reverse
  | _ => p

/-- The lines of a text, without their endings. -/
def lines (s : Text) : List Text :=
  (pieces s).map dropEnding

/-- A piece has a line feed at its end alone. -/
theorem notMem_dropLast_of_mem_pieces {s p : Text} (h : p ∈ pieces s) : '\n' ∉ p.dropLast := by
  induction s generalizing p with
  | nil => cases h
  | cons c s ih =>
    rw [pieces] at h
    split at h
    · rcases List.mem_cons.1 h with rfl | h
      · exact List.not_mem_nil
      · exact ih h
    · next hc =>
      cases hs : pieces s with
      | nil =>
        rw [hs] at h
        obtain rfl := List.mem_singleton.1 h
        exact List.not_mem_nil
      | cons q ps =>
        rw [hs] at h ih
        rcases List.mem_cons.1 h with rfl | h
        · cases q with
          | nil => exact List.not_mem_nil
          | cons d q =>
            rw [List.dropLast_cons_cons]
            exact List.not_mem_cons_of_ne_of_not_mem (Ne.symm hc) (ih List.mem_cons_self)
        · exact ih (List.mem_cons_of_mem q h)

/-- No line has a line feed. -/
theorem notMem_of_mem_lines {s l : Text} (h : l ∈ lines s) : '\n' ∉ l := by
  obtain ⟨p, hp, rfl⟩ := List.mem_map.1 h
  have hlast : '\n' ∉ p.reverse.tail := by
    rw [List.tail_reverse, List.mem_reverse]
    exact notMem_dropLast_of_mem_pieces hp
  unfold dropEnding
  split
  · next r hr =>
    rw [hr] at hlast
    simpa using hlast
  · next r _ hr =>
    rw [hr] at hlast
    simpa using hlast
  · next _ hend =>
    rw [← List.mem_reverse]
    cases hr : p.reverse with
    | nil => exact List.not_mem_nil
    | cons c r =>
      rw [hr] at hlast
      exact List.not_mem_cons_of_ne_of_not_mem (fun hc ↦ hend r (hc ▸ hr)) hlast

/-- Lines with a line feed after each. -/
def unlines (ls : List Text) : Text :=
  ls.flatMap (· ++ ['\n'])

@[simp] theorem unlines_nil : unlines [] = [] := rfl

@[simp] theorem unlines_cons (l : Text) (ls : List Text) :
    unlines (l :: ls) = l ++ '\n' :: unlines ls := by
  simp [unlines]

theorem unlines_append (ls ms : List Text) : unlines (ls ++ ms) = unlines ls ++ unlines ms := by
  simp [unlines]

/-! ### Cells between line feeds -/

/-- The parts of a text between its line feeds, and before the first and after the last. -/
def cells : Text → List Text
  | [] => [[]]
  | c :: s =>
    if c = '\n' then [] :: cells s
    else
      match cells s with
      | [] => [[c]]
      | p :: ps => (c :: p) :: ps

/-- Cells joined by line feeds. -/
def joinCells (cs : List Text) : Text :=
  List.intercalate ['\n'] cs

theorem cells_ne_nil (s : Text) : cells s ≠ [] := by
  cases s with
  | nil => simp [cells]
  | cons c s =>
    rw [cells]
    split
    · simp
    · split <;> simp

/-- Cutting into cells and joining them gives the text back. -/
theorem joinCells_cells (s : Text) : joinCells (cells s) = s := by
  induction s with
  | nil => rfl
  | cons c s ih =>
    rw [cells]
    split
    · next h =>
      subst h
      cases hs : cells s with
      | nil => exact absurd hs (cells_ne_nil s)
      | cons p ps => simpa [joinCells, List.intercalate, hs] using ih
    · cases hs : cells s with
      | nil => exact absurd hs (cells_ne_nil s)
      | cons p ps =>
        rw [hs] at ih
        cases ps <;> simpa [joinCells, List.intercalate] using ih

/-- No cell has a line feed. -/
theorem notMem_of_mem_cells {s c : Text} (h : c ∈ cells s) : '\n' ∉ c := by
  induction s generalizing c with
  | nil =>
    obtain rfl : c = [] := by simpa [cells] using h
    exact List.not_mem_nil
  | cons d s ih =>
    rw [cells] at h
    split at h
    · rcases List.mem_cons.1 h with rfl | h
      · exact List.not_mem_nil
      · exact ih h
    · next hd =>
      split at h
      · next hs => exact absurd hs (cells_ne_nil s)
      · next p ps hs =>
        rcases List.mem_cons.1 h with rfl | h
        · have hp := ih (hs ▸ List.mem_cons_self)
          simp [hp, Ne.symm hd]
        · exact ih (hs ▸ List.mem_cons_of_mem p h)

/-- A line feed ends the first cell. -/
theorem cells_append_lineFeed {c : Text} (hc : '\n' ∉ c) (s : Text) :
    cells (c ++ '\n' :: s) = c :: cells s := by
  induction c with
  | nil => simp [cells]
  | cons d c ih =>
    obtain ⟨hd, hc⟩ := not_or.1 (mt List.mem_cons.2 hc)
    rw [List.cons_append, cells, if_neg (Ne.symm hd), ih hc]

/-- Lines without line feeds are the first cells of the text that begins with them. -/
theorem cells_unlines_append {ls : List Text} (h : ∀ l ∈ ls, '\n' ∉ l) (s : Text) :
    cells (unlines ls ++ s) = ls ++ cells s := by
  induction ls with
  | nil => rfl
  | cons l ls ih =>
    obtain ⟨hl, hls⟩ := List.forall_mem_cons.1 h
    rw [unlines_cons, List.append_assoc, List.cons_append, cells_append_lineFeed hl, ih hls]
    rfl

theorem cells_of_notMem {c : Text} (hc : '\n' ∉ c) : cells c = [c] := by
  induction c with
  | nil => rfl
  | cons d c ih =>
    obtain ⟨hd, hc⟩ := not_or.1 (mt List.mem_cons.2 hc)
    rw [cells, if_neg (Ne.symm hd), ih hc]

/-- Joining cells and cutting the text gives the cells back. -/
theorem cells_joinCells {cs : List Text} (hne : cs ≠ []) (h : ∀ c ∈ cs, '\n' ∉ c) :
    cells (joinCells cs) = cs := by
  induction cs with
  | nil => exact absurd rfl hne
  | cons c cs ih =>
    obtain ⟨hc, hcs⟩ := List.forall_mem_cons.1 h
    cases cs with
    | nil => simpa [joinCells, List.intercalate] using cells_of_notMem hc
    | cons d cs =>
      have hjoin : joinCells (c :: d :: cs) = c ++ '\n' :: joinCells (d :: cs) := by
        simp [joinCells, List.intercalate]
      rw [hjoin, cells_append_lineFeed hc, ih (by simp) hcs]

end RankMetric.Text
