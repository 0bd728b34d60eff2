import Mathlib
import VoiceBench.Text.EditDistance

/-!
# Optimal string alignment

`osaTable` states the optimal string alignment distance by its recurrence on prefixes: an
empty prefix is as far from the other prefix as that is long; otherwise the distance is the
least of deleting the last character of the first prefix, inserting the last of the second,
matching the two (free when they agree) and, when the last two characters of each are
transposed, swapping them. `osaDistance` fills this table row by row
(`osaDistance_eq_osaTable`): `osaRow_tableRow` says that one row computed from the two rows
before it is the next row of the table, and `foldl_eq_of_step` runs that step over the first
text.

The recurrence gives the laws of the distance (`osaDistance_laws`): it is symmetric, because
swapping the texts transposes the table and the transposition condition reads the same both
ways (`osaTable_comm`); it is zero exactly between equal texts; and it lies between the
difference of the lengths, since each edit changes a length by one at most, and the larger
length, reached by editing along the diagonal. The restricted transposition keeps it from
being a metric, so these laws are proved from the table, not from a triangle inequality.
-/

namespace VoiceBench.Text

/-- The optimal string alignment distance between the first `i` characters of `a` and the
first `j` of `b`, by its recurrence: an empty prefix is as far as the other prefix is long, and
otherwise the distance is the least of deleting the last character of `a`, inserting the last
of `b`, and matching the two (free when they agree), or of swapping the last two characters
when they are transposed. -/
def osaTable (a b : List Char) : Nat → Nat → Nat
  | 0, j => j
  | i + 1, 0 => i + 1
  | i + 1, j + 1 =>
    let cell := min (min (osaTable a b i (j + 1) + 1) (osaTable a b (i + 1) j + 1))
      (osaTable a b i j + if a[i]? = b[j]? then 0 else 1)
    if 0 < i ∧ 0 < j ∧ a[i]? = b[j - 1]? ∧ a[i - 1]? = b[j]? then
      min cell (osaTable a b (i - 1) (j - 1) + 1)
    else cell
termination_by i j => (i, j)

section
variable (a b : List Char)

@[simp] theorem osaTable_zero_left (j : Nat) : osaTable a b 0 j = j := by
  rw [osaTable]

@[simp] theorem osaTable_succ_zero (i : Nat) : osaTable a b (i + 1) 0 = i + 1 := by
  rw [osaTable]

theorem osaTable_succ_succ (i j : Nat) :
    osaTable a b (i + 1) (j + 1) =
      if 0 < i ∧ 0 < j ∧ a[i]? = b[j - 1]? ∧ a[i - 1]? = b[j]? then
        min (min (min (osaTable a b i (j + 1) + 1) (osaTable a b (i + 1) j + 1))
          (osaTable a b i j + if a[i]? = b[j]? then 0 else 1)) (osaTable a b (i - 1) (j - 1) + 1)
      else
        min (min (osaTable a b i (j + 1) + 1) (osaTable a b (i + 1) j + 1))
          (osaTable a b i j + if a[i]? = b[j]? then 0 else 1) := by
  rw [osaTable]

variable {a b}

/-- A cell is at most the matching of the last two characters. -/
theorem osaTable_succ_succ_le (i j : Nat) :
    osaTable a b (i + 1) (j + 1) ≤ osaTable a b i j + if a[i]? = b[j]? then 0 else 1 := by
  rw [osaTable_succ_succ]
  by_cases hswap : 0 < i ∧ 0 < j ∧ a[i]? = b[j - 1]? ∧ a[i - 1]? = b[j]?
  · rw [if_pos hswap]
    exact (min_le_left _ _).trans (min_le_right _ _)
  · rw [if_neg hswap]
    exact min_le_right _ _

/-- A bound below every candidate of a cell is below the cell. -/
theorem le_osaTable_succ_succ {L i j : Nat} (hdel : L ≤ osaTable a b i (j + 1) + 1)
    (hins : L ≤ osaTable a b (i + 1) j + 1)
    (hmatch : L ≤ osaTable a b i j + if a[i]? = b[j]? then 0 else 1)
    (hswap : 0 < i ∧ 0 < j ∧ a[i]? = b[j - 1]? ∧ a[i - 1]? = b[j]? →
      L ≤ osaTable a b (i - 1) (j - 1) + 1) :
    L ≤ osaTable a b (i + 1) (j + 1) := by
  have hcell := le_min (le_min hdel hins) hmatch
  rw [osaTable_succ_succ]
  by_cases h : 0 < i ∧ 0 < j ∧ a[i]? = b[j - 1]? ∧ a[i - 1]? = b[j]?
  · rw [if_pos h]
    exact le_min hcell (hswap h)
  · rw [if_neg h]
    exact hcell

end

/-- Matching two characters costs the same either way round. -/
theorem matchCost_comm (x y : Option Char) :
    (if x = y then 0 else 1) = if y = x then 0 else 1 := by
  simp only [eq_comm]

/-- The distance is symmetric: swapping the texts transposes the table. -/
theorem osaTable_comm (a b : List Char) (i j : Nat) : osaTable a b i j = osaTable b a j i := by
  induction i, j using osaTable.induct a b with
  | case1 j => cases j <;> simp
  | case2 i => simp
  | case3 i j hswap ih1 ih2 ih3 ih4 =>
    have hswap' : 0 < j ∧ 0 < i ∧ b[j]? = a[i - 1]? ∧ b[j - 1]? = a[i]? :=
      ⟨hswap.2.1, hswap.1, hswap.2.2.2.symm, hswap.2.2.1.symm⟩
    rw [osaTable_succ_succ, osaTable_succ_succ b a, if_pos hswap, if_pos hswap', ih1, ih2, ih3, ih4,
      min_comm (osaTable b a (j + 1) i + 1), matchCost_comm]
  | case4 i j hswap ih1 ih2 ih3 =>
    have hswap' : ¬ (0 < j ∧ 0 < i ∧ b[j]? = a[i - 1]? ∧ b[j - 1]? = a[i]?) :=
      fun h => hswap ⟨h.2.1, h.1, h.2.2.2.symm, h.2.2.1.symm⟩
    rw [osaTable_succ_succ, osaTable_succ_succ b a, if_neg hswap, if_neg hswap', ih1, ih2, ih3,
      min_comm (osaTable b a (j + 1) i + 1), matchCost_comm]


/-- A cell is at most the larger of its indices: match along the diagonal, then insert or
delete the rest. -/
theorem osaTable_le_max (a b : List Char) (i j : Nat) : osaTable a b i j ≤ max i j := by
  induction i generalizing j with
  | zero => simp
  | succ i ih =>
    cases j with
    | zero => simp
    | succ j =>
      have hcell := osaTable_succ_succ_le (a := a) (b := b) i j
      have hcost : (if a[i]? = b[j]? then 0 else 1) ≤ 1 := by split <;> omega
      have := ih j
      omega

/-- A cell is at least the difference of its indices: each edit changes the length by one at
most. -/
theorem natAbs_sub_le_osaTable (a b : List Char) (i j : Nat) :
    ((i : Int) - j).natAbs ≤ osaTable a b i j := by
  induction i, j using osaTable.induct a b with
  | case1 j => simp
  | case2 i => simp only [osaTable_succ_zero]; omega
  | case3 i j hswap ih1 ih2 ih3 ih4 =>
    exact le_osaTable_succ_succ (by omega) (by omega) (by split <;> omega) (fun _ => by omega)
  | case4 i j hswap ih1 ih2 ih3 =>
    exact le_osaTable_succ_succ (by omega) (by omega) (by split <;> omega) (fun h => absurd h hswap)

/-- A text is at distance zero from itself. -/
theorem osaTable_self (a : List Char) (i : Nat) : osaTable a a i i = 0 := by
  induction i with
  | zero => simp
  | succ i ih =>
    have := osaTable_succ_succ_le (a := a) (b := a) i i
    simp only [ih, if_true, Nat.add_zero] at this
    omega

/-- Prefixes at distance zero agree character by character. -/
theorem getElem?_eq_of_osaTable_eq_zero {a b : List Char} {i : Nat}
    (h : osaTable a b i i = 0) : ∀ k < i, a[k]? = b[k]? := by
  induction i with
  | zero => intro k hk; omega
  | succ i ih =>
    have hmatch : (osaTable a b i i + if a[i]? = b[i]? then 0 else 1) = 0 := by
      by_contra hne
      have := le_osaTable_succ_succ (L := 1) (a := a) (b := b) (i := i) (j := i) (by omega) (by omega)
        (by omega) (fun _ => by omega)
      omega
    have hlast : a[i]? = b[i]? := by
      by_contra hne
      rw [if_neg hne] at hmatch
      omega
    have hprev : osaTable a b i i = 0 := by
      rw [if_pos hlast] at hmatch
      omega
    intro k hk
    rcases Nat.lt_succ_iff_lt_or_eq.1 hk with hk | rfl
    · exact ih hprev k hk
    · exact hlast


/-! ## The table the distance fills -/

/-- The first `k` cells of row `i` of the table. -/
def tableRow (a b : List Char) (i k : Nat) : Array Nat := ((List.range k).map (osaTable a b i)).toArray

theorem getD_tableRow {a b : List Char} {i k j : Nat} (hj : j < k) :
    (tableRow a b i k).getD j 0 = osaTable a b i j := by
  simp [tableRow, Array.getD_eq_getD_getElem?, hj]

theorem tableRow_succ (a b : List Char) (i k : Nat) :
    tableRow a b i (k + 1) = (tableRow a b i k).push (osaTable a b i k) := by
  simp [tableRow, List.range_succ]

/-- Folding over the indices below `n` a step that extends a row by its next cell fills the row. -/
theorem foldl_range_fills {f : Nat → Nat} {F : Array Nat → Nat → Array Nat} (n : Nat)
    (hstep : ∀ k < n, F ((List.range (k + 1)).map f).toArray k =
      ((List.range (k + 2)).map f).toArray) :
    (List.range n).foldl F #[f 0] = ((List.range (n + 1)).map f).toArray := by
  induction n with
  | zero => rfl
  | succ n ih =>
    rw [List.range_succ, List.foldl_append, ih fun k hk => hstep k (by omega), List.foldl_cons,
      List.foldl_nil, hstep n (by omega)]

/-- Folding a list with a step that takes each state of a sequence to the next ends in the state
of the whole list. -/
theorem foldl_eq_of_step {α σ : Type} (l : List α) (step : σ → α → σ) (S : Nat → σ)
    (hstep : ∀ i (hi : i < l.length), step (S i) l[i] = S (i + 1)) :
    l.foldl step (S 0) = S l.length := by
  have hprefix : ∀ k ≤ l.length, (l.take k).foldl step (S 0) = S k := by
    intro k hk
    induction k with
    | zero => rfl
    | succ k ih =>
      rw [List.take_succ_eq_append_getElem (by omega), List.foldl_append, ih (by omega),
        List.foldl_cons, List.foldl_nil, hstep k]
  simpa using hprefix l.length le_rfl

/-- The row step tries a transposition exactly when the table does: past the first column, each
of the two current characters equals the other text's previous one. -/
theorem transposes_iff {a b : List Char} {i k : Nat} {ai ap bk : Char}
    (hai : a[i + 1]? = some ai) (hap : a[i]? = some ap) (hbk : b[k]? = some bk)
    (hk : k < b.length) :
    (0 < k ∧ ai = b.toArray.getD (k - 1) ' ' ∧ ap = bk) ↔
      (0 < i + 1 ∧ 0 < k ∧ a[i + 1]? = b[k - 1]? ∧ a[i + 1 - 1]? = b[k]?) := by
  by_cases hk0 : 0 < k
  · obtain ⟨bk', hbk'⟩ : ∃ bk', b[k - 1]? = some bk' :=
      ⟨b[k - 1], List.getElem?_eq_getElem (by omega)⟩
    simp [hk0, hai, hap, hbk, hbk']
  · simp [hk0]

/-- Row `i + 1` of the table, from the two rows before it and the characters `a[i]` and, when
`i > 0`, `a[i - 1]`. -/
theorem osaRow_tableRow {a b : List Char} {i : Nat} {ai : Char} (hai : a[i]? = some ai) :
    osaRow b.toArray (i + 1) ai (a.take i).getLast? (tableRow a b (i - 1) (b.length + 1))
      (tableRow a b i (b.length + 1)) = tableRow a b (i + 1) (b.length + 1) := by
  unfold osaRow
  rw [show (#[i + 1] : Array Nat) = #[osaTable a b (i + 1) 0] by simp]
  refine foldl_range_fills (f := osaTable a b (i + 1)) _ fun k hk => ?_
  have hcur : ((List.range (k + 1)).map (osaTable a b (i + 1))).toArray = tableRow a b (i + 1) (k + 1) := rfl
  have hnext : ((List.range (k + 2)).map (osaTable a b (i + 1))).toArray =
      (tableRow a b (i + 1) (k + 1)).push (osaTable a b (i + 1) (k + 1)) := tableRow_succ a b (i + 1) (k + 1)
  rw [hcur, hnext]
  simp only [List.size_toArray] at hk
  simp only [getD_tableRow (show k + 1 < b.length + 1 by omega), getD_tableRow (show k < k + 1 by omega),
    getD_tableRow (show k < b.length + 1 by omega), getD_tableRow (show k - 1 < b.length + 1 by omega)]
  congr 1
  obtain ⟨bk, hbk⟩ : ∃ bk, b[k]? = some bk := ⟨b[k], List.getElem?_eq_getElem hk⟩
  have hbget : b.toArray.getD k ' ' = bk := by simp [hbk]
  have hcost : (if ai = bk then 0 else 1) = if a[i]? = b[k]? then 0 else 1 := by
    simp [hai, hbk]
  rw [osaTable_succ_succ, hbget, hcost]
  cases i with
  | zero =>
    rw [List.take_zero, List.getLast?_nil,
      if_neg (fun h : 0 < 0 ∧ _ => absurd h.1 (Nat.lt_irrefl 0))]
  | succ i =>
    obtain ⟨ap, hap⟩ : ∃ ap, a[i]? = some ap := by
      have : i < a.length := by
        have := (List.getElem?_eq_some_iff.1 hai).1
        omega
      exact ⟨a[i], List.getElem?_eq_getElem this⟩
    have hlast : (a.take (i + 1)).getLast? = some ap := by
      rw [List.getLast?_take, if_neg (by omega)]
      simp [hap]
    rw [hlast]
    simp only
    have hcond := transposes_iff hai hap hbk hk
    by_cases hswap : 0 < k ∧ ai = b.toArray.getD (k - 1) ' ' ∧ ap = bk
    · rw [if_pos hswap, if_pos (hcond.1 hswap)]
    · rw [if_neg hswap, if_neg (mt hcond.2 hswap)]

/-- What the distance holds after `i` characters of the first text: rows `i - 1` and `i`, the
last character read, and `i`. -/
def rowState (a b : List Char) (i : Nat) : Array Nat × Array Nat × Option Char × Nat :=
  (tableRow a b (i - 1) (b.length + 1), tableRow a b i (b.length + 1), (a.take i).getLast?, i)

theorem tableRow_zero (a b : List Char) (k : Nat) : tableRow a b 0 k = (List.range k).toArray := by
  have hmap : (List.range k).map (osaTable a b 0) = List.range k := by
    conv_rhs => rw [← List.map_id (List.range k)]
    exact List.map_congr_left fun j _ => osaTable_zero_left a b j
  rw [tableRow, hmap]

/-- The distance between two texts is the last cell of the table of the recurrence. -/
theorem osaDistance_eq_osaTable (a b : String) :
    osaDistance a b = osaTable a.toList b.toList a.length b.length := by
  have hstart : ((List.range (b.toList.toArray.size + 1)).toArray,
      (List.range (b.toList.toArray.size + 1)).toArray, (none : Option Char), 0) =
      rowState a.toList b.toList 0 := by
    simp [rowState, tableRow_zero]
  unfold osaDistance
  simp only
  rw [hstart, foldl_eq_of_step a.toList _ (rowState a.toList b.toList)]
  · simp only [rowState, List.size_toArray]
    rw [getD_tableRow (Nat.lt_succ_self _), String.length_toList, String.length_toList]
  · intro i hi
    have hlast : (a.toList.take (i + 1)).getLast? = some a.toList[i] := by
      rw [List.getLast?_take, if_neg (by omega)]
      simp [hi]
    simp only [rowState]
    rw [osaRow_tableRow (List.getElem?_eq_getElem hi), Nat.add_sub_cancel, hlast]


/-! ## Laws of the distance -/

section
variable (a b : String)

/-- The distance does not depend on the order of the texts. -/
theorem osaDistance_comm : osaDistance a b = osaDistance b a := by
  rw [osaDistance_eq_osaTable, osaDistance_eq_osaTable, osaTable_comm]

/-- The distance is at least the difference of the lengths. -/
theorem natAbs_sub_le_osaDistance : ((a.length : Int) - b.length).natAbs ≤ osaDistance a b := by
  rw [osaDistance_eq_osaTable]
  exact natAbs_sub_le_osaTable _ _ _ _

/-- The distance is at most the larger length. -/
theorem osaDistance_le_max : osaDistance a b ≤ max a.length b.length := by
  rw [osaDistance_eq_osaTable]
  exact osaTable_le_max _ _ _ _

variable {a b}

/-- Only equal texts are at distance zero. -/
theorem osaDistance_eq_zero_iff : osaDistance a b = 0 ↔ a = b := by
  constructor
  · intro h
    have hlen : a.length = b.length := by
      have := natAbs_sub_le_osaDistance a b
      omega
    rw [osaDistance_eq_osaTable, ← hlen] at h
    have hchars := getElem?_eq_of_osaTable_eq_zero h
    apply String.toList_inj.1
    apply List.ext_getElem?
    intro k
    by_cases hk : k < a.length
    · exact hchars k hk
    · have ha : a.toList.length ≤ k := by rw [String.length_toList]; omega
      have hb : b.toList.length ≤ k := by rw [String.length_toList]; omega
      rw [List.getElem?_eq_none ha, List.getElem?_eq_none hb]
  · rintro rfl
    rw [osaDistance_eq_osaTable]
    exact osaTable_self _ _

end

/-- Suggestions are ranked by optimal string alignment. For all texts, taken as sequences of
Unicode scalar values, the distance is symmetric, zero exactly between equal texts, between the
difference of the lengths and the larger length, and equal to the last cell of the table of its
recurrence. -/
theorem osaDistance_laws (a b : String) :
    osaDistance a b = osaDistance b a ∧ (osaDistance a b = 0 ↔ a = b) ∧
    ((a.length : Int) - b.length).natAbs ≤ osaDistance a b ∧
    osaDistance a b ≤ max a.length b.length ∧
    osaDistance a b = osaTable a.toList b.toList a.length b.length :=
  ⟨osaDistance_comm a b, osaDistance_eq_zero_iff, natAbs_sub_le_osaDistance a b,
    osaDistance_le_max a b, osaDistance_eq_osaTable a b⟩

/-- A transposition of adjacent characters counts as one edit. -/
example : osaDistance "FLAOT" "FLOAT" = 1 := by decide +kernel

end VoiceBench.Text
