import Mathlib
import VoiceBench.Analysis.Correlation
import VoiceBench.Proofs.Binary.Arithmetic

/-!
# Reversal symmetry of the direct cross-correlation

Entry `k` of the full cross-correlation of `a` and `b` is formed at the lag `k - (Nb - 1)`: each
position `n` of `b` is paired with the position `n + lag` of `a`, when there is one. The pairs
that remain are the two signals read side by side from the offsets `max lag 0` into `a` and
`max (-lag) 0` into `b` (`correlationTerms_eq_zipWith`). Swapping the signals negates the lag
and exchanges the two offsets, so with commuting factors entry `k` of the correlation of `a` and
`b` and entry `Na + Nb - 2 - k` of the correlation of `b` and `a` are formed from the same
products in the same order (`correlationTerms_swap`), whatever adds them up
(`getElem?_correlateWith_swap`).

Over a commutative semiring an entry is the filtered sum of the definition
(`getElem?_correlateWith_sum`). Products of singles commute bit for bit (`single_mul_comm`), so
the two entries of `correlateDirect` are the same single (`correlateDirect_reversal`).
-/

namespace VoiceBench.Analysis

open Binary

/-- The test for an empty signal, read as a statement about the lengths. -/
theorem isEmpty_or_isEmpty {β : Type} (a b : Array β) :
    (a.isEmpty || b.isEmpty) = decide (a.size = 0 ∨ b.size = 0) := by
  simp only [Array.isEmpty, Bool.decide_or]

section Terms

variable {α : Type} [Mul α]

/-- Read from position `s` on, the products that a list of positions of `b` contributes at the
lag `L` are `a` and the list side by side, from the offsets that pair them. -/
theorem filterMap_lagProduct (a : Array α) (L : Int) (bs : List α) (s : Nat) :
    (bs.zipIdx s).filterMap (lagProduct a L) =
      List.zipWith (· * ·) (a.toList.drop ((s : Int) + L).toNat)
        (bs.drop (-((s : Int) + L)).toNat) := by
  induction bs generalizing s with
  | nil => simp
  | cons bv bs ih =>
    rw [List.zipIdx_cons, List.filterMap_cons, ih (s + 1)]
    by_cases hneg : (s : Int) + L < 0
    · -- position `s` has no partner, and the offset into the rest shrinks by one
      have hnone : lagProduct a L (bv, s) = none := by simp [lagProduct, not_le.2 hneg]
      have hdrop : (-((s : Int) + L)).toNat = (-(((s + 1 : Nat) : Int) + L)).toNat + 1 := by
        omega
      have hzero : (((s + 1 : Nat) : Int) + L).toNat = ((s : Int) + L).toNat := by omega
      rw [hnone, hdrop, List.drop_succ_cons, hzero]
    · -- position `s` is paired with position `j` of `a`, if `a` has one
      obtain ⟨j, hj⟩ : ∃ j : Nat, (s : Int) + L = j := ⟨((s : Int) + L).toNat, by omega⟩
      have hnext : ((s + 1 : Nat) : Int) + L = ((j + 1 : Nat) : Int) := by omega
      rw [hj, hnext, Int.toNat_natCast, Int.toNat_natCast,
        show (-(j : Int)).toNat = 0 by omega, show (-((j + 1 : Nat) : Int)).toNat = 0 by omega,
        List.drop_zero, List.drop_zero]
      by_cases hja : j < a.size
      · have hsome : lagProduct a L (bv, s) = some (a[j] * bv) := by
          simp [lagProduct, hj, hja]
        rw [hsome, List.drop_eq_getElem_cons (show j < a.toList.length by simpa using hja)]
        simp
      · have hnone : lagProduct a L (bv, s) = none := by
          simp [lagProduct, hj, not_lt.1 hja]
        have hend : a.toList.drop j = [] := List.drop_eq_nil_of_le (by simpa using hja)
        rw [hnone, hend, List.drop_eq_nil_of_le (by simp; omega)]
        simp

/-- The products of entry `k` are `a` from the lag on and `b` from minus the lag on, side by
side, where a negative offset counts as zero. -/
theorem correlationTerms_eq_zipWith (a b : Array α) (k : Nat) :
    correlationTerms a b k =
      List.zipWith (· * ·) (a.toList.drop ((k : Int) - ((b.size : Int) - 1)).toNat)
        (b.toList.drop (-((k : Int) - ((b.size : Int) - 1))).toNat) := by
  unfold correlationTerms
  simpa using filterMap_lagProduct a ((k : Int) - ((b.size : Int) - 1)) b.toList 0

/-- With commuting factors, entry `Na + Nb - 2 - k` of the signals swapped is formed from the
products of entry `k`, in the same order: the swap negates the lag, which exchanges the two
offsets. -/
theorem correlationTerms_swap (hmul : ∀ x y : α, x * y = y * x) (a b : Array α) {k : Nat}
    (hk : k + 1 < a.size + b.size) :
    correlationTerms b a (a.size + b.size - 2 - k) = correlationTerms a b k := by
  have hlag : ((a.size + b.size - 2 - k : Nat) : Int) - ((a.size : Int) - 1) =
      -((k : Int) - ((b.size : Int) - 1)) := by omega
  rw [correlationTerms_eq_zipWith, correlationTerms_eq_zipWith, hlag, neg_neg,
    List.zipWith_comm]
  congr 1
  funext x y
  exact hmul y x

/-- The correlation has `Na + Nb - 1` entries, and none when either signal is empty. -/
theorem size_correlateWith (sum : List α → α) (a b : Array α) :
    (correlateWith sum a b).size =
      if a.size = 0 ∨ b.size = 0 then 0 else a.size + b.size - 1 := by
  simp only [correlateWith, isEmpty_or_isEmpty, decide_eq_true_eq]
  split_ifs <;> simp

/-- Each entry of the correlation is the sum of its products. -/
theorem getElem?_correlateWith (sum : List α → α) (a b : Array α) {k : Nat}
    (hk : k < (correlateWith sum a b).size) :
    (correlateWith sum a b)[k]? = some (sum (correlationTerms a b k)) := by
  rw [size_correlateWith] at hk
  split_ifs at hk with hempty
  · omega
  · simp only [correlateWith, isEmpty_or_isEmpty, decide_eq_true_eq, if_neg hempty]
    simp [hk]

/-- Reversal symmetry: with commuting factors, entry `k` of the correlation of `a` and `b` is
entry `Na + Nb - 2 - k` of the correlation of `b` and `a`, however an entry's products are
added up. -/
theorem getElem?_correlateWith_swap (hmul : ∀ x y : α, x * y = y * x) (sum : List α → α)
    (a b : Array α) {k : Nat} (hk : k < (correlateWith sum a b).size) :
    (correlateWith sum a b)[k]? = (correlateWith sum b a)[a.size + b.size - 2 - k]? := by
  have hlen := hk
  rw [size_correlateWith] at hlen
  split_ifs at hlen with hempty
  · omega
  · have hswap : a.size + b.size - 2 - k < (correlateWith sum b a).size := by
      rw [size_correlateWith, if_neg (by omega)]
      omega
    rw [getElem?_correlateWith sum a b hk, getElem?_correlateWith sum b a hswap,
      correlationTerms_swap hmul a b (by omega)]

end Terms

section Semiring

variable {R : Type} [CommSemiring R]

/-- A sum of the terms that are present is the sum with the missing ones read as zero. -/
theorem sum_filterMap {β : Type} (f : β → Option R) (l : List β) :
    (l.filterMap f).sum = (l.map fun x => (f x).getD 0).sum := by
  induction l with
  | nil => rfl
  | cons x l ih => cases hx : f x <;> simp [hx, ih]

/-- A sum over the positions of a list, counted from `s`, is a sum over the range of its
length. -/
theorem sum_map_zipIdx (g : R × Nat → R) (l : List R) (s : Nat) :
    ((l.zipIdx s).map g).sum = ∑ n ∈ Finset.range l.length, g (l.getD n 0, s + n) := by
  induction l generalizing s with
  | nil => simp
  | cons x l ih =>
    rw [List.zipIdx_cons, List.map_cons, List.sum_cons, ih, List.length_cons,
      Finset.sum_range_succ', add_comm]
    simp only [List.getD_cons_succ, List.getD_cons_zero, Nat.add_zero, Nat.add_right_comm s 1]
    rfl

/-- Over a commutative semiring, entry `k` of the correlation is the sum of
`a (n + k - (Nb - 1)) * b n` over the positions `n` of `b` whose partner is a position of
`a`. -/
theorem getElem?_correlateWith_sum (a b : Array R) {k : Nat}
    (hk : k < (correlateWith List.sum a b).size) :
    (correlateWith List.sum a b)[k]? = some (∑ n ∈ (Finset.range b.size).filter
        (fun n : Nat => 0 ≤ (n : Int) + k - (b.size - 1) ∧ (n : Int) + k - (b.size - 1) < a.size),
      a.getD ((n : Int) + k - (b.size - 1)).toNat 0 * b.getD n 0) := by
  rw [getElem?_correlateWith List.sum a b hk, correlationTerms, sum_filterMap, sum_map_zipIdx,
    Finset.sum_filter]
  congr 1
  refine Finset.sum_congr (by simp) fun n hn => ?_
  have hm : (n : Int) + ((k : Int) - ((b.size : Int) - 1)) = (n : Int) + k - (b.size - 1) := by
    ring
  simp only [lagProduct, Nat.zero_add, hm]
  have hbn : b.toList.getD n 0 = b.getD n 0 := by
    simp [Array.getD_eq_getD_getElem?, List.getD_eq_getElem?_getD]
  rw [hbn]
  generalize (n : Int) + k - (b.size - 1) = m
  by_cases h0 : 0 ≤ m
  · by_cases h1 : m < a.size
    · have hin : m.toNat < a.size := by omega
      simp [h0, h1, hin, Array.getD_eq_getD_getElem?]
    · simp [h0, h1]
  · simp [h0]

example : correlateWith List.sum #[1, 2, 3] #[1, 1] = #[(1 : Nat), 3, 5, 3] := by decide +kernel

end Semiring

/-- Reversal symmetry of the direct cross-correlation. Over every commutative semiring the
correlation of `a` and `b` has `Na + Nb - 1` entries, none when either signal is empty; entry `k`
is the sum of `a (n + k - (Nb - 1)) * b n` over the positions `n` of `b` whose partner is a
position of `a`; and entry `k` is entry `Na + Nb - 2 - k` of the correlation of `b` and `a`.
For singles the two entries are formed from the same products in the same order, so
`correlateDirect` has the same symmetry bit for bit. -/
theorem correlateDirect_reversal :
    (∀ (R : Type) [CommSemiring R] (a b : Array R),
      (correlateWith List.sum a b).size =
          (if a.size = 0 ∨ b.size = 0 then 0 else a.size + b.size - 1) ∧
        (∀ k < (correlateWith List.sum a b).size,
          (correlateWith List.sum a b)[k]? = some (∑ n ∈ (Finset.range b.size).filter
              (fun n : Nat => 0 ≤ (n : Int) + k - (b.size - 1) ∧
                (n : Int) + k - (b.size - 1) < a.size),
            a.getD ((n : Int) + k - (b.size - 1)).toNat 0 * b.getD n 0)) ∧
        ∀ k < (correlateWith List.sum a b).size,
          (correlateWith List.sum a b)[k]? =
            (correlateWith List.sum b a)[a.size + b.size - 2 - k]?) ∧
    ∀ a b : Array Float32,
      (correlateDirect a b).size = (if a.size = 0 ∨ b.size = 0 then 0 else a.size + b.size - 1) ∧
        ∀ k < (correlateDirect a b).size,
          correlationTerms b a (a.size + b.size - 2 - k) = correlationTerms a b k ∧
            (correlateDirect a b)[k]? = (correlateDirect b a)[a.size + b.size - 2 - k]? := by
  refine ⟨fun R _ a b => ⟨size_correlateWith _ a b, fun k hk => getElem?_correlateWith_sum a b hk,
    fun k hk => getElem?_correlateWith_swap mul_comm _ a b hk⟩, fun a b => ⟨?_, fun k hk => ?_⟩⟩
  · exact size_correlateWith _ a b
  · have hlen : k + 1 < a.size + b.size := by
      have := size_correlateWith sumSingles a b
      unfold correlateDirect at hk
      split_ifs at this <;> omega
    exact ⟨correlationTerms_swap single_mul_comm a b hlen,
      getElem?_correlateWith_swap single_mul_comm _ a b hk⟩

end VoiceBench.Analysis
