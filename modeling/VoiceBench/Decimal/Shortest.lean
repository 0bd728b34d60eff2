import VoiceBench.Binary.Format
import VoiceBench.Decimal.Basic

/-!
# Shortest decimals that read back

`Format.shortest` gives, for a finite positive value of a binary format, the decimal with
the fewest significant digits that rounds back to that value, and of several such the
nearest to it. The reals that round to `m * 2 ^ e` form an interval around it whose ends
lie half a unit in the last place away (a quarter below when `m` is the smallest normal
significand and the gap below is halved); the ends belong to it exactly when `m` is even,
since a tie goes to the even significand.

For one, two, three … significant digits the search looks only at the two neighbours of the
value on that decimal grid: if any point of the grid lies in the interval, so does one of
them. All comparisons are between natural numbers.
-/

namespace VoiceBench.Binary.Format

/-- The fewest significant digits that round back to the finite positive value
`m * 2 ^ e` of format `f`; of two candidates the nearer, of two equally near the one with
the even last digit. The result is normalized (no trailing zeros in the coefficient). -/
def shortest (f : Format) (m : Nat) (e : Int) : Decimal :=
  if m = 0 then ⟨0, 0⟩
  else
    let tight := m == Nat.pow 2 f.fractionBits && decide (e > f.minQuantum)
    let inclusive := m % 2 == 0
    -- the value and the ends of its interval are `x * 2 ^ (e - 2)` for these `x`
    let lo := if tight then 4 * m - 1 else 4 * m - 2
    let hi := 4 * m + 2
    let (pa, pb) := scaleByTwo 1 (e - 2)
    let within (c : Nat) (j : Int) : Bool :=
      let (ta, tb) := scaleByTen c j
      let here := ta * pb
      let low := lo * pa * tb
      let high := hi * pa * tb
      if inclusive then decide (low ≤ here ∧ here ≤ high) else decide (low < here ∧ here < high)
    let k := floorLog10Ratio (4 * m * pa) pb
    let onGrid (n : Nat) : Decimal × Bool :=
      let j := k + 1 - n
      let (ua, ub) := scaleByTen 1 j
      let c := 4 * m * pa * ub / (pb * ua)
      match within c j, within (c + 1) j with
      | true, true =>
        let twice := 2 * 4 * m * pa * ub
        let mid := (2 * c + 1) * ua * pb
        if twice < mid then (⟨c, j⟩, true)
        else if mid < twice then (⟨c + 1, j⟩, true)
        else (⟨if c % 2 = 0 then c else c + 1, j⟩, true)
      | true, false => (⟨c, j⟩, true)
      | false, true => (⟨c + 1, j⟩, true)
      | false, false => (⟨c, j⟩, false)
    let found := (List.range 40).findSome? fun i =>
      let (d, hit) := onGrid (i + 1)
      if hit then some d else none
    (found.getD (onGrid 40).1).normalize

end VoiceBench.Binary.Format
