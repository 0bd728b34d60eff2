import VoiceBench.Plot.Grid

/-!
# Addressing the cells of a subplot grid

The grid chosen for a number of panels fits them all without an empty row, and on every grid
of fewer than `2 ^ 64` cells the two ways of naming a cell, by row and column or by row-major
index, are inverse to each other and cover exactly the cells inside it
(`forCount_fits_and_cell_bijective`, with `forCount_fits_and_cell_bijective_two_by_two` at a
concrete grid).

Cell counts are machine words: the grid for `2 ^ 64 - 1` panels in two columns has
`2 ^ 64` cells, which wraps to none, so its first cell has an index that names no cell
(`forCount_word_max_len_wraps`).
-/

namespace VoiceBench.Plot.PlotGrid

/-- The grid for `count` panels with at most `maxCols` columns has `min (max count 1)
(max maxCols 1)` columns and enough rows for every panel with none left empty; and on every
grid of fewer than `2 ^ 64` cells the row-and-column addresses inside it and the indices below
its number of cells correspond one to one through `cell?` and `cellFor?`. -/
theorem forCount_fits_and_cell_bijective (count maxCols : Nat) :
    (forCount count maxCols).cols = min (max count 1) (max maxCols 1) ∧
    0 < (forCount count maxCols).rows ∧
    count ≤ (forCount count maxCols).rows * (forCount count maxCols).cols ∧
    ((forCount count maxCols).rows - 1) * (forCount count maxCols).cols < max count 1 ∧
    ∀ g : PlotGrid, g.rows * g.cols < Nat.pow 2 64 →
      g.len = g.rows * g.cols ∧
      (∀ row col, (g.cell? row col).isSome ↔ row < g.rows ∧ col < g.cols) ∧
      (∀ index, (g.cellFor? index).isSome ↔ index < g.len) ∧
      ∀ index row col, g.cellFor? index = some (row, col) ↔ g.cell? row col = some index := by
  obtain ⟨hrows, hfits, hlast⟩ := forCount_rows_bounds count maxCols
  refine ⟨rfl, hrows, hfits, hlast, fun g h => ⟨len_eq_of_lt h, isSome_cell? g, isSome_cellFor? g, ?_⟩⟩
  exact cellFor?_eq_some_iff_cell? g h

/-- On the two-by-two grid, which has fewer than `2 ^ 64` cells, index 3 is the cell in row 1
and column 1, and back. -/
theorem forCount_fits_and_cell_bijective_two_by_two :
    (⟨2, 2⟩ : PlotGrid).rows * (⟨2, 2⟩ : PlotGrid).cols < Nat.pow 2 64 ∧
      ((⟨2, 2⟩ : PlotGrid).cellFor? 3 = some (1, 1) ↔ (⟨2, 2⟩ : PlotGrid).cell? 1 1 = some 3) :=
  ⟨by decide,
    ((forCount_fits_and_cell_bijective 4 2).2.2.2.2 ⟨2, 2⟩ (by decide)).2.2.2 3 1 1⟩

/-- The grid for `2 ^ 64 - 1` panels in at most two columns has `2 ^ 63` rows of two cells,
`2 ^ 64` cells in all: its number of cells wraps to zero, so its first cell has index 0 but
index 0 names no cell. -/
theorem forCount_word_max_len_wraps :
    (forCount (Nat.pow 2 64 - 1) 2).rows * (forCount (Nat.pow 2 64 - 1) 2).cols = Nat.pow 2 64 ∧
      (forCount (Nat.pow 2 64 - 1) 2).len = 0 ∧
      (forCount (Nat.pow 2 64 - 1) 2).cell? 0 0 = some 0 ∧
      (forCount (Nat.pow 2 64 - 1) 2).cellFor? 0 = none := by
  decide

end VoiceBench.Plot.PlotGrid
