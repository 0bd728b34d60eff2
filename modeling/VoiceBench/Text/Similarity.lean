/-!
# Jaro similarity

The Jaro similarity of two texts, between 0 and 1: characters of the first are matched, left
to right, with the first unmatched equal character of the second lying within half the
longer length, less one, of the same position; `m` matches and `t` transpositions (matched
characters out of order, halved) give `(m / |a| + m / |b| + (m - t) / m) / 3`, computed in
double precision in that order. Two empty texts are equal; one empty text matches nothing.

`similar` keeps the candidates whose similarity to a text exceeds 0.7, least similar first,
equals in their given order.
-/

namespace VoiceBench.Text

/-- The first position of `b` in `[low, high)` that holds `c` and is not yet taken. -/
def freeMatch? (b : Array Char) (taken : Array Bool) (c : Char) (low high : Nat) : Option Nat :=
  (List.range high).find? fun j => low ≤ j ∧ b.getD j ' ' = c ∧ !taken.getD j true

/-- The matched positions of each text: every character of `a` in order takes the first free
equal character of `b` within `range` positions. -/
def jaroMatches (a b : Array Char) (range : Nat) : Array Bool × Array Bool :=
  (List.range a.size).foldl (fun (flagsA, flagsB) i =>
    match freeMatch? b flagsB (a.getD i ' ') (i - range) (min b.size (i + range + 1)) with
    | some j => (flagsA.set! i true, flagsB.set! j true)
    | none => (flagsA, flagsB)) (Array.replicate a.size false, Array.replicate b.size false)

/-- The matched characters of a text, in order. -/
def matchedChars (s : Array Char) (flags : Array Bool) : List Char :=
  (List.range s.size).filterMap fun i => if flags.getD i false then s[i]? else none

/-- The Jaro similarity of two texts. -/
def jaro (x y : String) : Float :=
  let a := x.toList.toArray
  let b := y.toList.toArray
  if a.size = 0 ∧ b.size = 0 then 1.0
  else if a.size = 0 ∨ b.size = 0 then 0.0
  else
    let (flagsA, flagsB) := jaroMatches a b (max a.size b.size / 2 - 1)
    let inA := matchedChars a flagsA
    let inB := matchedChars b flagsB
    let m := inA.length
    if m = 0 then 0.0
    else
      let t := ((inA.zip inB).filter fun (c, d) => c ≠ d).length / 2
      let mf := m.toFloat
      (mf / a.size.toFloat + mf / b.size.toFloat + (m - t).toFloat / mf) / 3.0

/-- The candidates more than 0.7 similar to a text, least similar first. -/
def similar (text : String) (candidates : List String) : List String :=
  let scored := candidates.filterMap fun c =>
    let score := jaro text c
    if score > 0.7 then some (score, c) else none
  (scored.mergeSort fun p q => p.1 ≤ q.1).map (·.2)

end VoiceBench.Text
