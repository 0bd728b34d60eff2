import VoiceBench.Analysis.Basic
import VoiceBench.Spectrum.Fft

/-!
# Cross-correlation and its peak

The full cross-correlation of `a` (length `Na`) and `b` (length `Nb`) has `Na + Nb - 1`
entries, `c k = Σ n, a (n + k - (Nb - 1)) * b n`; entry `k` belongs to the lag
`k - (Nb - 1)`, positive when `a` is a delayed copy of `b`.

`correlateDirect` forms each entry as a sum of products in ascending `n`. The products of an
entry (`correlationTerms`) and the correlation with a given sum (`correlateWith`) are stated
for any type with a product, so the same definition serves singles and exact arithmetic.
`correlateFull` multiplies the spectra of both signals, taken by a library of transforms and
zero-padded to a power of two of at least the output length (and at least two), by the
conjugate of the second, and transforms back; lag `τ` is then found at index `τ` when `τ ≥ 0` and at `size + τ` otherwise.

`peakAbs` scans in order and keeps the current best unless the new value's magnitude is not
at most the best's, so the first of equal maxima wins, and a NaN on either side of the
comparison takes the place of the best.
-/

namespace VoiceBench.Analysis

open Spectrum

/-- The product that position `n` of `b`, holding `bv`, contributes at lag `lag`: `a m * bv`
for its partner `m = n + lag`, when that is a position of `a`. -/
def lagProduct {α : Type} [Mul α] (a : Array α) (lag : Int) (entry : α × Nat) : Option α :=
  let m : Int := entry.2 + lag
  if 0 ≤ m then a[m.toNat]?.map (· * entry.1) else none

/-- The products of entry `k` of the full cross-correlation of `a` and `b`, at the lag
`k - (Nb - 1)`, for the positions of `b` in ascending order. -/
def correlationTerms {α : Type} [Mul α] (a b : Array α) (k : Nat) : List α :=
  b.toList.zipIdx.filterMap (lagProduct a ((k : Int) - ((b.size : Int) - 1)))

/-- The full cross-correlation with each entry's products added up by `sum`; empty when either
signal is. -/
def correlateWith {α : Type} [Mul α] (sum : List α → α) (a b : Array α) : Array α :=
  if a.isEmpty || b.isEmpty then #[]
  else (Array.range (a.size + b.size - 1)).map fun k => sum (correlationTerms a b k)

/-- The direct full cross-correlation of singles, each entry summed from left to right. -/
def correlateDirect (a b : Array Float32) : Array Float32 := correlateWith sumSingles a b

/-- The transform length of a correlation: the next power of two, at least two. -/
def correlationSize (outLen : Nat) : Nat := max outLen.nextPowerOfTwo 2

/-- The full cross-correlation through spectra; empty when either signal is. -/
def correlateFull (fft : Fft) (a b : Array Float32) : Array Float32 :=
  if a.isEmpty || b.isEmpty then #[]
  else
    let outLen := a.size + b.size - 1
    let size := correlationSize outLen
    let padded (x : Array Float32) :=
      (Array.range size).map fun i => Complex32.ofReal (x.getD i 0)
    let sa := fft.transform .forward (padded a)
    let sb := fft.transform .forward (padded b)
    let product := Array.zipWith (fun x y => x * y.conj) sa sb
    let back := fft.inverseScaled product
    let offset : Int := b.size - 1
    (Array.range outLen).map fun (k : Nat) =>
      let lag : Int := k - offset
      let index := if 0 ≤ lag then lag.toNat else (size + lag).toNat
      (entry back index).re

/-- One step of the peak scan over entries and their positions: the entry takes the place of
the best so far unless its magnitude is at most the best's. -/
def peakStep (best : Option (Nat × Float32)) (entry : Float32 × Nat) : Option (Nat × Float32) :=
  match best with
  | some (_, b) => if entry.1.abs ≤ b.abs then best else some (entry.2, entry.1)
  | none => some (entry.2, entry.1)

/-- The index and value of the first entry of greatest magnitude. -/
def peakAbs (xs : Array Float32) : Option (Nat × Float32) :=
  xs.toList.zipIdx.foldl peakStep none

/-- The signed lag of the peak, given the index of lag zero, and its value; lag zero and
value zero for an empty correlation. -/
def peakLag (xs : Array Float32) (zeroIndex : Nat) : Int × Float32 :=
  match peakAbs xs with
  | some (i, v) => ((i : Int) - zeroIndex, v)
  | none => (0, 0)

end VoiceBench.Analysis
