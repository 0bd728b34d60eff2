import VoiceBench.Spectrum.Fft

/-!
# The built-in Fourier transforms

The library of transforms the tools run with, `Fft.builtin`. A transform of single-precision
values carries round-off, and which round-off depends on the order of the operations, so
the transform of each length follows a fixed recipe, a `Plan`:

* lengths below two sum the rotated samples (`direct`);
* two, four and eight points have butterflies of their own, built from sums,
  differences and quarter turns, with the eighth roots scaled by `√½`;
* 8, 16, 32 and 64 points are grids (`grid down across`): transforms of length
  `down.size` down the columns of stride `across.size`, the twiddle factors applied with
  fused products, then transforms of length `across.size` along the rows;
* other lengths are computed in double precision and rounded once (`accurate`).

`Plan.run` is structural recursion on the recipe, so every transform is total.
-/

namespace VoiceBench.Spectrum

open Binary

/-- Whether a direction turns clockwise. -/
def Direction.clockwise : Direction → Bool
  | .forward => true
  | .inverse => false

/-- π in double precision. -/
def pi : Float := Float.ofBits 0x400921FB54442D18

/-- The angle `(-2π / len) * index` in double precision. -/
def twiddleAngle (index len : Nat) : Float :=
  -2.0 * pi / Float.ofNat len * Float.ofNat index

/-- The twiddle factor `exp(∓2πi index / len)`: cosine and sine of the angle in double
precision, each rounded to a single; the inverse direction takes the conjugate. -/
def twiddle (dir : Direction) (index len : Nat) : Complex32 :=
  let angle := twiddleAngle index len
  let w : Complex32 := ⟨angle.cos.toFloat32, angle.sin.toFloat32⟩
  match dir with
  | .forward => w
  | .inverse => w.conj

/-- `√½` in single precision. -/
def halfRoot2 : Float32 := Float32.ofBits 0x3F3504F3

/-- The transform of a length below two: each output sums the twiddled samples. -/
def directSum (dir : Direction) (n : Nat) (xs : Array Complex32) : Array Complex32 :=
  (Array.range n).map fun k =>
    (List.range n).foldl (fun acc j => acc + twiddle dir (j * k % n) n * entry xs j) .zero

/-- The two-point butterfly: sum and difference. -/
def pairButterfly (xs : Array Complex32) : Array Complex32 :=
  #[entry xs 0 + entry xs 1, entry xs 0 - entry xs 1]

/-- The four-point butterfly: two pairs, a quarter turn of the second difference, two
pairs again, the middle outputs exchanged. -/
def quadButterfly (dir : Direction) (xs : Array Complex32) : Array Complex32 :=
  let x := entry xs
  let v0 := x 0 + x 2
  let v2 := x 0 - x 2
  let v1 := x 1 + x 3
  let v3 := (x 1 - x 3).rotate dir.clockwise
  #[v0 + v1, v2 + v3, v0 - v1, v2 - v3]

/-- The eight-point butterfly: four-point transforms of the even and the odd samples, the
odd ones turned by the eighth roots (a quarter turn plus or minus the value, scaled by
`√½`, for the odd roots), then pairs. -/
def octetButterfly (dir : Direction) (xs : Array Complex32) : Array Complex32 :=
  let x := entry xs
  let turn := Complex32.rotate dir.clockwise
  let e := quadButterfly dir #[x 0, x 2, x 4, x 6]
  let o := quadButterfly dir #[x 1, x 3, x 5, x 7]
  let o1 := entry o 1
  let o3 := entry o 3
  let odd := #[entry o 0, (turn o1 + o1).scale halfRoot2, turn (entry o 2),
    (turn o3 - o3).scale halfRoot2]
  (Array.range 4).map (fun i => entry e i + entry odd i) ++
    (Array.range 4).map (fun i => entry e i - entry odd i)

/-- The discrete Fourier transform of pairs of doubles by direct sums, the angle of each
term reduced modulo the length. -/
def directDoubles (dir : Direction) (xs : Array (Float × Float)) : Array (Float × Float) :=
  let n := xs.size
  let sign : Float := if dir.clockwise then -1.0 else 1.0
  (Array.range n).map fun k =>
    (List.range n).foldl (fun (acc : Float × Float) j =>
      let angle := sign * 2.0 * pi * Float.ofNat (j * k % n) / Float.ofNat n
      let (re, im) := xs.getD j (0, 0)
      (acc.1 + (re * angle.cos - im * angle.sin), acc.2 + (re * angle.sin + im * angle.cos)))
      (0, 0)

/-- The discrete Fourier transform of pairs of doubles: halves while the length is even,
direct sums for an odd length. `fuel` bounds the halvings. -/
def accurateDoubles (dir : Direction) : Nat → Array (Float × Float) → Array (Float × Float)
  | 0, xs => directDoubles dir xs
  | fuel + 1, xs =>
    if xs.size ≥ 2 ∧ xs.size % 2 = 0 then
      let half := xs.size / 2
      let part (offset : Nat) :=
        accurateDoubles dir fuel ((Array.range half).map fun i => xs.getD (2 * i + offset) (0, 0))
      let evens := part 0
      let odds := part 1
      let sign : Float := if dir.clockwise then -1.0 else 1.0
      let turned := (Array.range half).map fun k =>
        let angle := sign * 2.0 * pi * Float.ofNat k / Float.ofNat xs.size
        let (re, im) := odds.getD k (0, 0)
        (re * angle.cos - im * angle.sin, re * angle.sin + im * angle.cos)
      let combine (add : Bool) (k : Nat) : Float × Float :=
        let (a, b) := evens.getD k (0, 0)
        let (c, d) := turned.getD k (0, 0)
        if add then (a + c, b + d) else (a - c, b - d)
      (Array.range half).map (combine true) ++ (Array.range half).map (combine false)
    else directDoubles dir xs

/-- The transform computed in double precision, each part rounded once to a single. -/
def accurate (dir : Direction) (xs : Array Complex32) : Array Complex32 :=
  (accurateDoubles dir xs.size (xs.map Complex32.toDoubles)).map fun (re, im) =>
    ⟨re.toFloat32, im.toFloat32⟩

/-- A recipe for a transform of one length. -/
inductive Plan where
  | direct (size : Nat)
  | pair
  | quad
  | octet
  | grid (down across : Plan)
  | accurate (size : Nat)
  deriving Repr

namespace Plan

/-- The length a recipe transforms. -/
def size : Plan → Nat
  | direct n => n
  | pair => 2
  | quad => 4
  | octet => 8
  | grid down across => down.size * across.size
  | accurate n => n

/-- Runs a recipe on a buffer of its length. A grid reads column `c` as the samples
`c, c + b, c + 2b, …` (`b = across.size`), transforms it, multiplies entry `k` of column
`c` by the twiddle of `c * k` unless `k = 0`, transforms each row `k` across the columns,
and writes output `k2` of row `k` to index `k + a * k2` (`a = down.size`). -/
def run (dir : Direction) : Plan → Array Complex32 → Array Complex32
  | direct n, xs => directSum dir n xs
  | pair, xs => pairButterfly xs
  | quad, xs => quadButterfly dir xs
  | octet, xs => octetButterfly dir xs
  | grid down across, xs =>
    let a := down.size
    let b := across.size
    let columns := (Array.range b).map fun c =>
      run dir down ((Array.range a).map fun r => entry xs (c + b * r))
    let rows := (Array.range a).map fun k =>
      run dir across ((Array.range b).map fun c =>
        let v := entry (columns.getD c #[]) k
        if k = 0 then v else v.fusedMul (twiddle dir (c * k) (a * b)))
    (Array.range (a * b)).map fun i => entry (rows.getD (i % a) #[]) (i / a)
  | accurate _, xs => Spectrum.accurate dir xs

end Plan

/-- The recipe for a length. -/
def plan : Nat → Plan
  | 0 => .direct 0
  | 1 => .direct 1
  | 2 => .pair
  | 4 => .quad
  | 8 => .grid .pair .quad
  | 16 => .grid .quad .quad
  | 32 => .grid .quad .octet
  | 64 => .grid .octet .octet
  | n => .accurate n

/-- The unscaled discrete Fourier transform of a buffer. -/
def transform (dir : Direction) (xs : Array Complex32) : Array Complex32 :=
  (plan xs.size).run dir xs

/-- The library of the planned transforms. -/
def Fft.builtin : Fft := ⟨Spectrum.transform⟩

end VoiceBench.Spectrum
