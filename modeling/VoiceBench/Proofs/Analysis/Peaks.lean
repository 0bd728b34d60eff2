import Mathlib
import VoiceBench.Analysis.Delay
import VoiceBench.Proofs.Binary.Order

/-!
# Peaks and the most frequent lag

Two scans pick one element and break ties towards the front. The peak scan keeps its best entry
unless a new one is strictly larger in magnitude, so on a sequence without NaN it returns the
first position of greatest magnitude (`peakAbs_eq_some_iff`, stated through `IsFirstPeak`). The
dominant lag sorts the window lags, cuts them into runs of equal values
(`runLengths_of_sorted`: ascending values, each with its count) and keeps a run only when it is
strictly longer than the best so far (`foldl_pickRun_eq_some`), so it is the smallest of the most
frequent lags (`dominantLag_eq_some_iff`).

Main statement: `peak_and_dominant_lag_first_wins`.
-/

namespace VoiceBench.Analysis

open Binary

/-! ## The first peak -/

/-- No entry of `xs` is larger in magnitude than the one at `k`. -/
def IsPeakAt (xs : List Float32) (k : Nat) : Prop :=
  ∃ hk : k < xs.length, ∀ j (hj : j < xs.length), xs[j].abs ≤ xs[k].abs

/-- `i` is the smallest position at which no entry is larger in magnitude. -/
def IsFirstPeak (xs : List Float32) (i : Nat) : Prop :=
  IsPeakAt xs i ∧ ∀ k < i, ¬IsPeakAt xs k

instance (xs : List Float32) (k : Nat) : Decidable (IsPeakAt xs k) :=
  inferInstanceAs (Decidable (∃ _ : k < xs.length, _))

instance (xs : List Float32) (i : Nat) : Decidable (IsFirstPeak xs i) :=
  inferInstanceAs (Decidable (_ ∧ _))

/-- A sequence has at most one first peak. -/
theorem IsFirstPeak.unique {xs : List Float32} {i i' : Nat} (h : IsFirstPeak xs i)
    (h' : IsFirstPeak xs i') : i = i' := by
  rcases Nat.lt_trichotomy i i' with hlt | heq | hgt
  · exact absurd h.1 (h'.2 i hlt)
  · exact heq
  · exact absurd h'.1 (h.2 i' hgt)

section
variable {xs : List Float32} {x b : Float32} {i : Nat}

/-- Appending an entry no larger in magnitude than the peak keeps the peak. -/
theorem IsFirstPeak.append_of_le (h : IsFirstPeak xs i) (hb : xs[i]? = some b)
    (hle : x.abs ≤ b.abs) : IsFirstPeak (xs ++ [x]) i := by
  obtain ⟨⟨hi, hpeak⟩, hfirst⟩ := h
  have hbi : xs[i] = b := by simpa [hi] using hb
  refine ⟨⟨by simp; omega, fun j hj => ?_⟩, fun k hk hpeakk => ?_⟩
  · rw [List.getElem_append_left hi]
    by_cases hjl : j < xs.length
    · rw [List.getElem_append_left hjl]
      exact hpeak j hjl
    · have hjx : j = xs.length := by simp at hj; omega
      subst hjx
      simpa [hbi] using hle
  · -- an earlier position that beat every entry of the longer sequence beat those of `xs`
    obtain ⟨hk', hpeak'⟩ := hpeakk
    refine hfirst k hk ⟨by omega, fun j hj => ?_⟩
    have := hpeak' j (by simp; omega)
    rwa [List.getElem_append_left hj, List.getElem_append_left (by omega)] at this

/-- Appending an entry strictly larger in magnitude than the peak makes it the new peak. -/
theorem IsFirstPeak.append_of_not_le (hxs : ∀ y ∈ xs, y.isNaN = false) (hx : x.isNaN = false)
    (h : IsFirstPeak xs i) (hb : xs[i]? = some b) (hlt : ¬x.abs ≤ b.abs) :
    IsFirstPeak (xs ++ [x]) xs.length := by
  obtain ⟨⟨hi, hpeak⟩, -⟩ := h
  have hbi : xs[i] = b := by simpa [hi] using hb
  have hbnan : b.isNaN = false := hxs b (hbi ▸ List.getElem_mem hi)
  have habs : ∀ y : Float32, y.isNaN = false → y.abs.isNaN = false := fun y hy =>
    Float32.isNaN_abs hy
  have hbx : b.abs ≤ x.abs :=
    ((Float32.le_total_of_not_isNaN (habs x hx) (habs b hbnan)).resolve_left hlt)
  have hold : ∀ j (hj : j < xs.length), xs[j].abs ≤ x.abs := fun j hj =>
    Float32.le_trans_of_not_isNaN (habs _ (hxs _ (List.getElem_mem hj))) (habs b hbnan)
      (habs x hx) (hbi ▸ hpeak j hj) hbx
  refine ⟨⟨by simp, fun j hj => ?_⟩, fun k hk hpeakk => ?_⟩
  · rw [List.getElem_append_right (Nat.le_refl _)]
    by_cases hjl : j < xs.length
    · rw [List.getElem_append_left hjl]
      simpa using hold j hjl
    · have hjx : j = xs.length := by simp at hj; omega
      subst hjx
      simpa using Float32.le_refl_of_not_isNaN (habs x hx)
  · -- an earlier entry at least as large as the new one would be at least as large as the peak
    obtain ⟨hk', hpeak'⟩ := hpeakk
    have hxk := hpeak' xs.length (by simp)
    rw [List.getElem_append_right (Nat.le_refl _), List.getElem_append_left hk] at hxk
    simp only [Nat.sub_self, List.getElem_cons_zero] at hxk
    exact hlt (Float32.le_trans_of_not_isNaN (habs x hx) (habs _ (hxs _ (List.getElem_mem hk)))
      (habs b hbnan) hxk (hbi ▸ hpeak k hk))

end

/-- A scan whose step always keeps some candidate returns none only on the empty list. -/
theorem foldl_eq_none_iff {α β : Type} {f : Option β → α → Option β} (hf : ∀ b a, f b a ≠ none)
    (xs : List α) : xs.foldl f none = none ↔ xs = [] := by
  rcases List.eq_nil_or_concat xs with rfl | ⟨ys, y, rfl⟩
  · simp
  · simp [hf]

theorem peakStep_ne_none (best : Option (Nat × Float32)) (entry : Float32 × Nat) :
    peakStep best entry ≠ none := by
  rcases best with _ | ⟨k, b⟩
  · simp [peakStep]
  · simp only [peakStep]
    split_ifs <;> simp

/-- The scan returns nothing only on an empty sequence. -/
theorem foldl_peakStep_eq_none_iff (xs : List Float32) :
    xs.zipIdx.foldl peakStep none = none ↔ xs = [] := by
  rw [foldl_eq_none_iff peakStep_ne_none, List.zipIdx_eq_nil_iff]

/-- On a sequence without NaN the scan returns the first peak and its entry. -/
theorem foldl_peakStep_eq_some (xs : List Float32) (hxs : ∀ y ∈ xs, y.isNaN = false) :
    ∀ {i v}, xs.zipIdx.foldl peakStep none = some (i, v) → IsFirstPeak xs i ∧ xs[i]? = some v := by
  induction xs using List.reverseRecOn with
  | nil => simp
  | append_singleton xs x ih =>
    intro i v h
    have hxs' : ∀ y ∈ xs, y.isNaN = false := fun y hy => hxs y (by simp [hy])
    have hx : x.isNaN = false := hxs x (by simp)
    rw [List.zipIdx_append, List.foldl_append] at h
    simp only [List.zipIdx_singleton, List.foldl_cons, List.foldl_nil, Nat.zero_add] at h
    cases hprev : xs.zipIdx.foldl peakStep none with
    | none =>
      rw [hprev] at h
      rw [(foldl_peakStep_eq_none_iff xs).1 hprev] at h ⊢
      simp only [peakStep, List.length_nil, Option.some.injEq, Prod.mk.injEq] at h
      obtain ⟨rfl, rfl⟩ := h
      refine ⟨⟨⟨by simp, fun j hj => ?_⟩, fun k hk => absurd hk (Nat.not_lt_zero k)⟩, by simp⟩
      have hj0 : j = 0 := by simp at hj; omega
      subst hj0
      simpa using Float32.le_refl_of_not_isNaN (Float32.isNaN_abs hx)
    | some best =>
      obtain ⟨k, b⟩ := best
      obtain ⟨hpeak, hb⟩ := ih hxs' hprev
      rw [hprev] at h
      simp only [peakStep] at h
      by_cases hle : x.abs ≤ b.abs
      · rw [if_pos hle, Option.some.injEq, Prod.mk.injEq] at h
        obtain ⟨rfl, rfl⟩ := h
        exact ⟨hpeak.append_of_le hb hle, by simp [List.getElem?_append_left hpeak.1.1, hb]⟩
      · rw [if_neg hle, Option.some.injEq, Prod.mk.injEq] at h
        obtain ⟨rfl, rfl⟩ := h
        exact ⟨hpeak.append_of_not_le hxs' hx hb hle, by simp⟩

/-- The peak scan finds nothing only in an empty sequence. -/
theorem peakAbs_eq_none_iff (xs : Array Float32) : peakAbs xs = none ↔ xs.size = 0 := by
  rw [peakAbs, foldl_peakStep_eq_none_iff]
  simp

/-- On a sequence without NaN the peak scan returns exactly the first peak and its entry. -/
theorem peakAbs_eq_some_iff {xs : Array Float32} (hxs : ∀ x ∈ xs, x.isNaN = false)
    {i : Nat} {v : Float32} : peakAbs xs = some (i, v) ↔ IsFirstPeak xs.toList i ∧ xs[i]? = some v := by
  have hxs' : ∀ y ∈ xs.toList, y.isNaN = false := fun y hy => hxs y (by simpa using hy)
  constructor
  · intro h
    simpa using foldl_peakStep_eq_some xs.toList hxs' h
  · rintro ⟨hpeak, hv⟩
    cases hres : peakAbs xs with
    | none =>
      have hsize := (peakAbs_eq_none_iff xs).1 hres
      have hi := hpeak.1.1
      rw [Array.length_toList] at hi
      omega
    | some p =>
      obtain ⟨i', v'⟩ := p
      obtain ⟨hpeak', hv'⟩ := foldl_peakStep_eq_some xs.toList hxs' hres
      have hii := hpeak'.unique hpeak
      subst hii
      simp only [Array.getElem?_toList] at hv'
      rw [hv] at hv'
      cases hv'
      rfl

/-- The position of the peak less the position of lag zero, and the peak's value; zero and zero
for an empty sequence. -/
theorem peakLag_of_isFirstPeak {xs : Array Float32} (hxs : ∀ x ∈ xs, x.isNaN = false) {i : Nat}
    (h : IsFirstPeak xs.toList i) (zeroIndex : Nat) :
    ∃ hi : i < xs.size, peakLag xs zeroIndex = ((i : Int) - zeroIndex, xs[i]) := by
  have hi : i < xs.size := by simpa using h.1.1
  refine ⟨hi, ?_⟩
  rw [peakLag, (peakAbs_eq_some_iff hxs).2 ⟨h, Array.getElem?_eq_getElem hi⟩]

theorem peakLag_of_size_eq_zero {xs : Array Float32} (h : xs.size = 0) (zeroIndex : Nat) :
    peakLag xs zeroIndex = (0, 0) := by
  rw [peakLag, (peakAbs_eq_none_iff xs).2 h]

/-! ## The smallest most frequent lag -/

/-- `l` occurs in `xs`, no value occurs more often, and every value occurring as often is at
least `l`. -/
def IsSmallestMode (xs : List Int) (l : Int) : Prop :=
  l ∈ xs ∧ (∀ l' ∈ xs, xs.count l' ≤ xs.count l) ∧ ∀ l' ∈ xs, xs.count l' = xs.count l → l ≤ l'

instance (xs : List Int) (l : Int) : Decidable (IsSmallestMode xs l) :=
  inferInstanceAs (Decidable (_ ∧ _ ∧ _))

example : IsSmallestMode [3, -1, 3, -1, 5] (-1) := by decide

theorem IsSmallestMode.unique {xs : List Int} {l l' : Int} (h : IsSmallestMode xs l)
    (h' : IsSmallestMode xs l') : l = l' := by
  have hcount : xs.count l' = xs.count l := le_antisymm (h.2.1 l' h'.1) (h'.2.1 l h.1)
  exact le_antisymm (h.2.2 l' h'.1 hcount) (h'.2.2 l h.1 hcount.symm)

/-- Only how often each value occurs matters, not the order. -/
theorem IsSmallestMode.of_perm {xs ys : List Int} (hp : xs.Perm ys) {l : Int} :
    IsSmallestMode xs l ↔ IsSmallestMode ys l := by
  simp only [IsSmallestMode, hp.mem_iff, hp.count_eq]

/-- `runs` are the values of `xs` in ascending order, each with its number of occurrences. -/
structure AscendingRuns (xs : List Int) (runs : List (Int × Nat)) : Prop where
  ascending : (runs.map Prod.fst).Pairwise (· < ·)
  count_eq : ∀ p ∈ runs, p.2 = xs.count p.1
  mem_iff : ∀ v, v ∈ xs ↔ v ∈ runs.map Prod.fst

namespace AscendingRuns

variable {xs : List Int} {x y : Int} {n : Nat} {runs more : List (Int × Nat)}

theorem singleton (x : Int) : AscendingRuns [x] [(x, 1)] where
  ascending := by simp
  count_eq := by simp
  mem_iff := by simp

/-- The first run holds the smallest value. -/
theorem first_le (h : AscendingRuns xs ((y, n) :: more)) {v : Int} (hv : v ∈ xs) : y ≤ v := by
  have hkey := (h.mem_iff v).1 hv
  rw [List.map_cons, List.mem_cons] at hkey
  rcases hkey with rfl | hmore
  · exact le_rfl
  · have hasc := h.ascending
    rw [List.map_cons, List.pairwise_cons] at hasc
    exact (hasc.1 v hmore).le

/-- A value equal to the first run's lengthens it. -/
theorem cons_same (h : AscendingRuns xs ((x, n) :: more)) :
    AscendingRuns (x :: xs) ((x, n + 1) :: more) where
  ascending := by simpa using h.ascending
  count_eq := by
    intro p hp
    rcases List.mem_cons.1 hp with rfl | hp
    · have hn : n = xs.count x := h.count_eq (x, n) List.mem_cons_self
      show n + 1 = (x :: xs).count x
      rw [List.count_cons_self, ← hn]
    · -- a later run holds a larger value, which the new entry does not count towards
      have hasc := h.ascending
      rw [List.map_cons, List.pairwise_cons] at hasc
      have hlt : x < p.1 := hasc.1 p.1 (List.mem_map_of_mem hp)
      rw [List.count_cons_of_ne hlt.ne]
      exact h.count_eq p (List.mem_cons_of_mem _ hp)
  mem_iff := by
    intro v
    have hv := h.mem_iff v
    simp only [List.map_cons, List.mem_cons] at hv ⊢
    constructor
    · rintro (rfl | hv')
      · exact Or.inl rfl
      · exact hv.1 hv'
    · rintro (rfl | hv')
      · exact Or.inl rfl
      · exact Or.inr (hv.2 (Or.inr hv'))

/-- A value below the first run's starts a run of its own. -/
theorem cons_lt (h : AscendingRuns xs ((y, n) :: more)) (hxy : x < y) :
    AscendingRuns (x :: xs) ((x, 1) :: (y, n) :: more) where
  ascending := by
    rw [List.map_cons, List.pairwise_cons]
    refine ⟨fun v hv => ?_, h.ascending⟩
    have hyv : y ≤ v := h.first_le ((h.mem_iff v).2 hv)
    omega
  count_eq := by
    have hx : x ∉ xs := fun hx => absurd (h.first_le hx) (not_le.2 hxy)
    intro p hp
    rcases List.mem_cons.1 hp with rfl | hp
    · rw [List.count_cons_self, List.count_eq_zero_of_not_mem hx]
    · -- every value of the older runs is at least `y`, so above `x`
      have hyp : y ≤ p.1 := h.first_le ((h.mem_iff p.1).2 (List.mem_map_of_mem hp))
      rw [List.count_cons_of_ne (by omega)]
      exact h.count_eq p hp
  mem_iff := by
    intro v
    have hv := h.mem_iff v
    rw [List.map_cons, List.mem_cons, List.mem_cons, hv]

/-- Splitting the runs at one whose length beats every run before it and is not beaten after
it: its value is the smallest most frequent one. -/
theorem isSmallestMode {pre post : List (Int × Nat)} {r : Int × Nat}
    (h : AscendingRuns xs (pre ++ r :: post)) (hpre : ∀ p ∈ pre, p.2 < r.2)
    (hpost : ∀ p ∈ post, p.2 ≤ r.2) : IsSmallestMode xs r.1 := by
  have hr : xs.count r.1 = r.2 := (h.count_eq r (by simp)).symm
  have hafter : ∀ p ∈ post, r.1 < p.1 := by
    have hasc := h.ascending
    rw [List.map_append, List.map_cons, List.pairwise_append, List.pairwise_cons] at hasc
    exact fun p hp => hasc.2.1.1 p.1 (List.mem_map_of_mem hp)
  have hrun : ∀ v ∈ xs, ∃ p ∈ pre ++ r :: post, p.1 = v ∧ xs.count v = p.2 := by
    intro v hv
    obtain ⟨p, hp, rfl⟩ := List.mem_map.1 ((h.mem_iff v).1 hv)
    exact ⟨p, hp, rfl, (h.count_eq p hp).symm⟩
  refine ⟨(h.mem_iff r.1).2 (by simp), fun v hv => ?_, fun v hv hcount => ?_⟩
  · obtain ⟨p, hp, rfl, hp2⟩ := hrun v hv
    rw [hp2, hr]
    rcases List.mem_append.1 hp with hp | hp
    · exact (hpre p hp).le
    · rcases List.mem_cons.1 hp with rfl | hp
      · exact le_rfl
      · exact hpost p hp
  · obtain ⟨p, hp, rfl, hp2⟩ := hrun v hv
    rw [hp2, hr] at hcount
    rcases List.mem_append.1 hp with hp | hp
    · exact absurd hcount (hpre p hp).ne
    · rcases List.mem_cons.1 hp with rfl | hp
      · exact le_rfl
      · exact (hafter p hp).le

end AscendingRuns

theorem runLengths_cons (x : Int) (rest : List Int) :
    ∃ n more, runLengths (x :: rest) = (x, n) :: more := by
  rw [runLengths]
  rcases runLengths rest with _ | ⟨⟨y, n⟩, more⟩
  · exact ⟨1, [], rfl⟩
  · by_cases hxy : x = y
    · subst hxy
      exact ⟨n + 1, more, by simp⟩
    · exact ⟨1, (y, n) :: more, by simp [hxy]⟩

theorem runLengths_eq_nil_iff (xs : List Int) : runLengths xs = [] ↔ xs = [] := by
  rcases xs with _ | ⟨x, rest⟩
  · simp [runLengths]
  · obtain ⟨n, more, h⟩ := runLengths_cons x rest
    simp [h]

/-- The runs of an ascending list are its values in ascending order with their counts. -/
theorem ascendingRuns_runLengths {xs : List Int} (hxs : xs.Pairwise (· ≤ ·)) :
    AscendingRuns xs (runLengths xs) := by
  induction xs with
  | nil => exact ⟨by simp [runLengths], by simp [runLengths], by simp [runLengths]⟩
  | cons x rest ih =>
    obtain ⟨hx, hrest⟩ := List.pairwise_cons.1 hxs
    have hR := ih hrest
    rw [runLengths]
    rcases hr : runLengths rest with _ | ⟨⟨y, n⟩, more⟩
    · -- no runs: `x` is alone
      obtain rfl : rest = [] := (runLengths_eq_nil_iff rest).1 hr
      exact AscendingRuns.singleton x
    · rw [hr] at hR
      have hy : y ∈ rest := (hR.mem_iff y).2 (by simp)
      dsimp only
      split_ifs with hxy
      · subst hxy
        exact hR.cons_same
      · exact hR.cons_lt (lt_of_le_of_ne (hx y hy) hxy)

theorem pickRun_ne_none (best : Option (Int × Nat)) (run : Int × Nat) : pickRun best run ≠ none := by
  rcases best with _ | ⟨k, n⟩
  · simp [pickRun]
  · simp only [pickRun]
    split_ifs <;> simp

/-- The chosen run is strictly longer than every run before it and at least as long as every
run after it. -/
theorem foldl_pickRun_eq_some {runs : List (Int × Nat)} {r : Int × Nat}
    (h : runs.foldl pickRun none = some r) :
    ∃ pre post, runs = pre ++ r :: post ∧ (∀ p ∈ pre, p.2 < r.2) ∧ ∀ p ∈ post, p.2 ≤ r.2 := by
  induction runs using List.reverseRecOn generalizing r with
  | nil => simp at h
  | append_singleton runs q ih =>
    rw [List.foldl_append, List.foldl_cons, List.foldl_nil] at h
    rcases hprev : runs.foldl pickRun none with _ | ⟨⟨k, n⟩⟩
    · -- the first run is chosen
      rw [hprev, pickRun, Option.some.injEq] at h
      subst h
      obtain rfl : runs = [] := (foldl_eq_none_iff pickRun_ne_none runs).1 hprev
      exact ⟨[], [], rfl, by simp, by simp⟩
    · obtain ⟨pre, post, rfl, hpre, hpost⟩ := ih hprev
      rw [hprev] at h
      simp only [pickRun] at h
      split_ifs at h with hgt
      · -- a strictly longer run replaces the best so far
        rw [Option.some.injEq] at h
        subst h
        refine ⟨pre ++ (k, n) :: post, [], rfl, fun p hp => ?_, by simp⟩
        rcases List.mem_append.1 hp with hp | hp
        · exact (hpre p hp).trans hgt
        · rcases List.mem_cons.1 hp with rfl | hp
          · exact hgt
          · exact lt_of_le_of_lt (hpost p hp) hgt
      · rw [Option.some.injEq] at h
        subst h
        refine ⟨pre, post ++ [q], by simp, hpre, fun p hp => ?_⟩
        rcases List.mem_append.1 hp with hp | hp
        · exact hpost p hp
        · rw [List.mem_singleton.1 hp]
          exact not_lt.1 hgt

/-- Sorting, cutting into runs and keeping the first longest run gives the smallest most
frequent value. -/
theorem longestRun_eq_some_iff (ys : List Int) (l : Int) :
    ((runLengths (ys.mergeSort (· ≤ ·))).foldl pickRun none).map (·.1) = some l ↔
      IsSmallestMode ys l := by
  have htrans : ∀ a b c : Int, decide (a ≤ b) = true → decide (b ≤ c) = true →
      decide (a ≤ c) = true := fun a b c hab hbc =>
    decide_eq_true (le_trans (of_decide_eq_true hab) (of_decide_eq_true hbc))
  have htotal : ∀ a b : Int, (decide (a ≤ b) || decide (b ≤ a)) = true := fun a b => by
    simp only [Bool.or_eq_true, decide_eq_true_eq]
    exact le_total a b
  have hsorted : (ys.mergeSort (· ≤ ·)).Pairwise (· ≤ ·) :=
    (List.pairwise_mergeSort htrans htotal ys).imp of_decide_eq_true
  have hperm := List.mergeSort_perm ys (fun a b => decide (a ≤ b))
  have hruns := ascendingRuns_runLengths hsorted
  have hspec : ∀ r, (runLengths (ys.mergeSort (· ≤ ·))).foldl pickRun none = some r →
      IsSmallestMode ys r.1 := by
    intro r hr
    obtain ⟨pre, post, hsplit, hpre, hpost⟩ := foldl_pickRun_eq_some hr
    rw [hsplit] at hruns
    exact (IsSmallestMode.of_perm hperm).1 (hruns.isSmallestMode hpre hpost)
  constructor
  · intro h
    obtain ⟨r, hr, rfl⟩ := Option.map_eq_some_iff.1 h
    exact hspec r hr
  · intro hl
    rcases hres : (runLengths (ys.mergeSort (· ≤ ·))).foldl pickRun none with _ | r
    · -- no runs would mean no values, but `l` is one
      rw [foldl_eq_none_iff pickRun_ne_none, runLengths_eq_nil_iff] at hres
      have hmem := hperm.mem_iff.2 hl.1
      rw [hres] at hmem
      exact absurd hmem List.not_mem_nil
    · rw [Option.map_some, (hspec r hres).unique hl]

namespace DelayAnalysis

theorem dominantLag_eq_none_iff (d : DelayAnalysis) : d.dominantLag = none ↔ d.windows = [] := by
  rw [dominantLag, Option.map_eq_none_iff, foldl_eq_none_iff pickRun_ne_none,
    runLengths_eq_nil_iff, ← List.length_eq_zero_iff, List.length_mergeSort, lagSeries,
    List.length_map, List.length_eq_zero_iff]

/-- The dominant lag is the smallest of the most frequent window lags. -/
theorem dominantLag_eq_some_iff (d : DelayAnalysis) (l : Int) :
    d.dominantLag = some l ↔ IsSmallestMode d.lagSeries l :=
  longestRun_eq_some_iff d.lagSeries l

end DelayAnalysis

/-- Both scans break ties towards the front: on a sequence without NaN the peak scan reports the
first position of greatest magnitude with its entry, and the dominant lag is the smallest of the
most frequent window lags. -/
theorem peak_and_dominant_lag_first_wins :
    (∀ xs : Array Float32, (∀ x ∈ xs, x.isNaN = false) →
      (peakAbs xs = none ↔ xs.size = 0) ∧
      (∀ i v, peakAbs xs = some (i, v) ↔ IsFirstPeak xs.toList i ∧ xs[i]? = some v) ∧
      ∀ zeroIndex, (xs.size = 0 → peakLag xs zeroIndex = (0, 0)) ∧
        ∀ i, IsFirstPeak xs.toList i →
          ∃ hi : i < xs.size, peakLag xs zeroIndex = ((i : Int) - zeroIndex, xs[i])) ∧
    ∀ d : DelayAnalysis, (d.dominantLag = none ↔ d.windows = []) ∧
      ∀ l, d.dominantLag = some l ↔ IsSmallestMode d.lagSeries l := by
  refine ⟨fun xs hxs => ⟨peakAbs_eq_none_iff xs, fun _ _ => peakAbs_eq_some_iff hxs, ?_⟩,
    fun d => ⟨d.dominantLag_eq_none_iff, d.dominantLag_eq_some_iff⟩⟩
  intro zeroIndex
  exact ⟨fun h => peakLag_of_size_eq_zero h zeroIndex,
    fun _ hi => peakLag_of_isFirstPeak hxs hi zeroIndex⟩

/-- Of the anti-phase peak `-2` and the later `2` the first is reported. -/
theorem antiphase_peak_reported_first :
    (∀ x ∈ #[Float32.ofBits 0x3f800000, Float32.ofBits 0xc0000000, Float32.ofBits 0x40000000],
      x.isNaN = false) ∧
    peakAbs #[Float32.ofBits 0x3f800000, Float32.ofBits 0xc0000000, Float32.ofBits 0x40000000] =
      some (1, Float32.ofBits 0xc0000000) := by
  have hnan : ∀ x ∈ #[Float32.ofBits 0x3f800000, Float32.ofBits 0xc0000000,
      Float32.ofBits 0x40000000], x.isNaN = false := by decide
  exact ⟨hnan, ((peak_and_dominant_lag_first_wins.1 _ hnan).2.1 1 _).2 ⟨by decide, rfl⟩⟩

end VoiceBench.Analysis
