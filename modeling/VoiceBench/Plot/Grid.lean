/-!
# Subplot grids

A figure's panels sit in a grid of `rows × cols` cells, addressed by row and column or by
row-major index. A grid has at least one cell. The grid for a number of panels with at most
`maxCols` columns fills `min(count, maxCols)` columns and as many rows as needed; no panels
still get one cell.

Cell counts and indices are 64-bit machine words, so on a grid of `2 ^ 64` cells or more they
wrap; below that the two ways of addressing a cell are inverse to each other
(`cellFor?_eq_some_iff_cell?`).
-/

namespace VoiceBench.Plot

/-- A grid of equally sized cells. -/
structure PlotGrid where
  rows : Nat
  cols : Nat
  deriving DecidableEq, Repr

namespace PlotGrid

/-- The grid of the given size, if neither dimension is zero. -/
def new? (rows cols : Nat) : Option PlotGrid :=
  if rows > 0 ∧ cols > 0 then some ⟨rows, cols⟩ else none

/-- The smallest grid holding `count` panels with at most `maxCols` columns. -/
def forCount (count maxCols : Nat) : PlotGrid :=
  let cols := min (max count 1) (max maxCols 1)
  ⟨max ((count + cols - 1) / cols) 1, cols⟩

/-- The number of cells, as a 64-bit machine word: the product wraps. -/
def len (g : PlotGrid) : Nat := g.rows * g.cols % Nat.pow 2 64

/-- Never: a grid has at least one cell. -/
def isEmpty (_ : PlotGrid) : Bool := false

/-- The row-major index of a cell inside the grid, as a 64-bit machine word. -/
def cell? (g : PlotGrid) (row col : Nat) : Option Nat :=
  if row < g.rows ∧ col < g.cols then some ((row * g.cols + col) % Nat.pow 2 64) else none

/-- The row and column of a row-major index inside the grid. -/
def cellFor? (g : PlotGrid) (index : Nat) : Option (Nat × Nat) :=
  if index < g.len then some (index / g.cols, index % g.cols) else none

/-- A cell has an index exactly when it lies inside the grid, and the index counts whole rows
before it, then columns, as a machine word. -/
theorem cell?_eq_some_iff {g : PlotGrid} {row col index : Nat} :
    g.cell? row col = some index ↔
      row < g.rows ∧ col < g.cols ∧ (row * g.cols + col) % Nat.pow 2 64 = index := by
  unfold cell?
  split
  · rename_i h
    rw [Option.some.injEq]
    exact ⟨fun e => ⟨h.1, h.2, e⟩, fun ⟨_, _, e⟩ => e⟩
  · rename_i h
    constructor
    · intro e
      cases e
    · intro ⟨hr, hc, _⟩
      exact absurd ⟨hr, hc⟩ h

/-- An index has a cell exactly when it is below the number of cells; the cell is the quotient
and remainder by the row width. -/
theorem cellFor?_eq_some_iff {g : PlotGrid} {index row col : Nat} :
    g.cellFor? index = some (row, col) ↔
      index < g.len ∧ index / g.cols = row ∧ index % g.cols = col := by
  unfold cellFor?
  split
  · rename_i h
    rw [Option.some.injEq, Prod.mk.injEq]
    exact ⟨fun e => ⟨h, e⟩, fun e => e.2⟩
  · rename_i h
    constructor
    · intro e
      cases e
    · intro ⟨hlt, _⟩
      exact absurd hlt h

/-- Exactly the cells inside the grid have an index. -/
theorem isSome_cell? (g : PlotGrid) (row col : Nat) :
    (g.cell? row col).isSome ↔ row < g.rows ∧ col < g.cols := by
  unfold cell?
  split
  · rename_i h
    exact ⟨fun _ => h, fun _ => rfl⟩
  · rename_i h
    exact ⟨fun e => Bool.noConfusion e, fun h' => absurd h' h⟩

/-- Exactly the indices below the number of cells have a cell. -/
theorem isSome_cellFor? (g : PlotGrid) (index : Nat) :
    (g.cellFor? index).isSome ↔ index < g.len := by
  unfold cellFor?
  split
  · rename_i h
    exact ⟨fun _ => h, fun _ => rfl⟩
  · rename_i h
    exact ⟨fun e => Bool.noConfusion e, fun h' => absurd h' h⟩

/-- Division and remainder by a width `c` recover the row and column of `row * c + col` when
the column lies inside the width. -/
theorem div_mod_of_lt (row : Nat) {col c : Nat} (h : col < c) :
    (row * c + col) / c = row ∧ (row * c + col) % c = col := by
  have hc : 0 < c := Nat.lt_of_le_of_lt (Nat.zero_le col) h
  rw [Nat.add_comm]
  refine ⟨?_, ?_⟩
  · rw [Nat.add_mul_div_right _ _ hc, Nat.div_eq_of_lt h, Nat.zero_add]
  · rw [Nat.add_mul_mod_self_right, Nat.mod_eq_of_lt h]

/-- The exact row-major position of a cell inside the grid is below the exact number of
cells. -/
theorem index_lt_cells {g : PlotGrid} {row col : Nat} (hr : row < g.rows) (hc : col < g.cols) :
    row * g.cols + col < g.rows * g.cols := by
  calc row * g.cols + col
      < row * g.cols + g.cols := Nat.add_lt_add_left hc _
    _ = (row + 1) * g.cols := (Nat.succ_mul row g.cols).symm
    _ ≤ g.rows * g.cols := Nat.mul_le_mul_right _ hr

/-- On a grid of fewer than `2 ^ 64` cells the number of cells is exact. -/
theorem len_eq_of_lt {g : PlotGrid} (h : g.rows * g.cols < Nat.pow 2 64) :
    g.len = g.rows * g.cols :=
  Nat.mod_eq_of_lt h

/-- On a grid of fewer than `2 ^ 64` cells, addressing by index and addressing by row and
column are inverse to each other. -/
theorem cellFor?_eq_some_iff_cell? (g : PlotGrid) (h : g.rows * g.cols < Nat.pow 2 64)
    (index row col : Nat) :
    g.cellFor? index = some (row, col) ↔ g.cell? row col = some index := by
  rw [cellFor?_eq_some_iff, cell?_eq_some_iff, len_eq_of_lt h]
  constructor
  · intro ⟨hlt, hrow, hcol⟩
    have hpos : 0 < g.cols := by
      apply Nat.pos_of_ne_zero
      intro h0
      rw [h0, Nat.mul_zero] at hlt
      exact Nat.not_lt_zero _ hlt
    subst hrow hcol
    refine ⟨(Nat.div_lt_iff_lt_mul hpos).2 hlt, Nat.mod_lt _ hpos, ?_⟩
    rw [Nat.div_add_mod' index g.cols]
    exact Nat.mod_eq_of_lt (Nat.lt_trans hlt h)
  · intro ⟨hr, hc, e⟩
    have hlt := index_lt_cells hr hc
    rw [Nat.mod_eq_of_lt (Nat.lt_trans hlt h)] at e
    subst e
    obtain ⟨hrow, hcol⟩ := div_mod_of_lt row hc
    exact ⟨hlt, hrow, hcol⟩

/-- Rounding a count up to whole rows of width `c` leaves less than one row of slack. -/
theorem roundUp_bounds (n c : Nat) (hc : 0 < c) :
    n ≤ (n + c - 1) / c * c ∧ (n + c - 1) / c * c < n + c := by
  have h1 := Nat.div_add_mod (n + c - 1) c
  have h2 := Nat.mod_lt (n + c - 1) hc
  rw [Nat.mul_comm]
  generalize (n + c - 1) / c = q at *
  generalize (n + c - 1) % c = r at *
  omega

/-- The grid for a count has at least one column. -/
theorem forCount_cols_pos (count maxCols : Nat) : 0 < (forCount count maxCols).cols := by
  show 0 < min (max count 1) (max maxCols 1)
  omega

/-- The grid for a count has room for every panel, and no row left empty: all rows but the
last are needed (with no panels, a single row). -/
theorem forCount_rows_bounds (count maxCols : Nat) :
    0 < (forCount count maxCols).rows ∧
      count ≤ (forCount count maxCols).rows * (forCount count maxCols).cols ∧
      ((forCount count maxCols).rows - 1) * (forCount count maxCols).cols < max count 1 := by
  have hc := forCount_cols_pos count maxCols
  have hcount : count = 0 → (forCount count maxCols).cols = 1 := by
    intro h0
    show min (max count 1) (max maxCols 1) = 1
    omega
  generalize hg : forCount count maxCols = g at hc hcount
  have hrows : g.rows = max ((count + g.cols - 1) / g.cols) 1 := by
    subst hg
    rfl
  obtain ⟨hlo, hhi⟩ := roundUp_bounds count g.cols hc
  rw [hrows]
  generalize (count + g.cols - 1) / g.cols = q at hlo hhi
  refine ⟨by omega, ?_, ?_⟩
  · by_cases hq : q = 0
    · subst hq
      rw [Nat.zero_mul] at hlo
      omega
    · rw [Nat.max_eq_left (by omega)]
      exact hlo
  · by_cases hq : q = 0
    · rw [hq, Nat.zero_max, Nat.sub_self, Nat.zero_mul]
      omega
    · rw [Nat.max_eq_left (by omega), Nat.sub_mul, Nat.one_mul]
      by_cases h0 : count = 0
      · rw [hcount h0] at hhi ⊢
        omega
      · omega

end PlotGrid

end VoiceBench.Plot
