/-!
# Optimal string alignment distance

The number of single-character insertions, deletions, substitutions and transpositions of
adjacent characters that turn one text into another, where no substring is edited twice.
Characters are Unicode scalar values. `osaDistance` fills the usual table row by row,
keeping the two previous rows for the transposition step.
-/

namespace VoiceBench.Text

/-- One row of the table: the distances from the first `i` characters of `a` to every prefix
of `b`, given the two rows before it. -/
def osaRow (b : Array Char) (i : Nat) (ai : Char) (aPrev : Option Char)
    (prev2 prev : Array Nat) : Array Nat :=
  let extend (cur : Array Nat) (j : Nat) : Array Nat :=
    let bj := b.getD j ' '
    let cost := if ai = bj then 0 else 1
    let cell := min (min (prev.getD (j + 1) 0 + 1) (cur.getD j 0 + 1)) (prev.getD j 0 + cost)
    let cell :=
      match aPrev with
      | some ap =>
        if 0 < j ∧ ai = b.getD (j - 1) ' ' ∧ ap = bj then min cell (prev2.getD (j - 1) 0 + 1)
        else cell
      | none => cell
    cur.push cell
  (List.range b.size).foldl extend #[i]

/-- The optimal string alignment distance between two texts. -/
def osaDistance (a b : String) : Nat :=
  let bs := b.toList.toArray
  let first := (List.range (bs.size + 1)).toArray
  let step (acc : Array Nat × Array Nat × Option Char × Nat) (ai : Char) :=
    let (prev2, prev, aPrev, i) := acc
    let row := osaRow bs (i + 1) ai aPrev prev2 prev
    (prev, row, some ai, i + 1)
  let (_, last, _, _) := a.toList.foldl step (first, first, none, 0)
  last.getD bs.size 0

end VoiceBench.Text
