import Mathlib
import VoiceBench.Media.NlModel
import VoiceBench.Proofs.Control.Codec
import VoiceBench.Proofs.Files.ReadBack

/-!
# Reshaping a dump into a matrix

A dump read in the header layout is a matrix whose row and column counts are its first two
values. This module says which dumps are read so, and what the matrix holds.

* The value of a finite encoding is a rational, `(-1) ^ neg * significand * 2 ^ exponent`
  (`Format.value?`). A header value is a count exactly when that value is a natural number; a
  count past the machine word is the largest word (`headerCount_eq_ok_iff`), and a value that is
  no count is refused as invalid input naming it (`headerCount_eq_error`).
* A dump just written reads back as the values written, bit for bit (`readDump_of_writeDump`).
* Past a header of two counts (`HeaderCounts`) the dump is a matrix of that many rows and
  columns, unless their product passes the machine word or is not the number of values after
  the header (`readNlModel_header_of_headerCounts`); a dump without such a header is invalid
  input (`readNlModel_header_of_no_counts`). Hence the three outcomes, each as an `↔`
  (`readNlModel_header_eq_ok_iff`, `readNlModel_header_invalid_iff`,
  `readNlModel_header_mismatch_iff`).
* The coefficient at a row and column is the value that many rows and columns past the header
  (`get?_of_header`), a row is a run of values (`row?_of_header`), and a matrix is read back
  from its payload given its dimensions (`readNlModel_explicit_of_writeDump`).

Main statement: `readNlModel_header_reshapes`, all of the above for a dump as written.
`header_two_by_three` runs it on a two-by-three matrix. A header count is converted to a machine
word by saturation, so a header of `2 ^ 64` rows and no columns is read as a matrix of
`2 ^ 64 - 1` rows and none refused (`header_rows_past_word_read_as_word_max`).
-/

namespace VoiceBench.Binary.Format

/-! ## The value of an encoding -/

/-- The value of a finite encoding, `(-1) ^ neg * significand * 2 ^ exponent`; an infinity
and a NaN have none. -/
def value? (f : Format) (bits : Nat) : Option ℚ :=
  match f.unpack bits with
  | .finite neg m e => some ((if neg then -(m : ℚ) else m) * (2 : ℚ) ^ e)
  | _ => none

/-- `m * 2 ^ e` is the natural number `r` exactly when, scaled to whole numbers, `m * 2 ^ e`
or `r * 2 ^ -e` is the other side. -/
theorem scaled_eq_natCast_iff (m : Nat) (e : Int) (r : Nat) :
    (m : ℚ) * (2 : ℚ) ^ e = r ↔
      if 0 ≤ e then m * Nat.pow 2 e.toNat = r else m = r * Nat.pow 2 (-e).toNat := by
  rcases le_or_gt 0 e with he | he
  · obtain ⟨k, rfl⟩ := Int.eq_ofNat_of_zero_le he
    rw [if_pos he, Int.toNat_natCast, zpow_natCast, ← Nat.cast_inj (R := ℚ)]
    push_cast [Nat.pow_eq]
    rfl
  · obtain ⟨k, hk⟩ := Int.exists_eq_neg_ofNat he.le
    have hk0 : 0 < k := by omega
    subst hk
    rw [if_neg (by omega), neg_neg, Int.toNat_natCast, zpow_neg, zpow_natCast,
      ← div_eq_mul_inv, div_eq_iff (by positivity), ← Nat.cast_inj (R := ℚ)]
    push_cast [Nat.pow_eq]
    exact Iff.rfl

/-- A signed multiple of a power of two is the natural number `r` exactly when it is not
negative unless zero and its magnitude is `r`. -/
theorem signed_scaled_eq_natCast_iff (neg : Bool) (m : Nat) (e : Int) (r : Nat) :
    (if neg then -(m : ℚ) else m) * (2 : ℚ) ^ e = r ↔
      (neg = true → m = 0) ∧
        if 0 ≤ e then m * Nat.pow 2 e.toNat = r else m = r * Nat.pow 2 (-e).toNat := by
  rw [← scaled_eq_natCast_iff]
  cases neg
  · simp
  · simp only [if_true, neg_mul, forall_const]
    constructor
    · intro h
      have hr : (0 : ℚ) ≤ r := Nat.cast_nonneg r
      have hm : (0 : ℚ) ≤ m * (2 : ℚ) ^ e := by positivity
      have h0 : (m : ℚ) * (2 : ℚ) ^ e = 0 := by linarith
      have hm0 : m = 0 := by
        rcases mul_eq_zero.1 h0 with h1 | h1
        · exact_mod_cast h1
        · exact absurd h1 (by positivity)
      subst hm0
      simp only [Nat.cast_zero, zero_mul, neg_zero] at h ⊢
      exact ⟨trivial, h⟩
    · rintro ⟨rfl, h⟩
      simpa using h

end VoiceBench.Binary.Format

namespace VoiceBench.Media

open Binary

/-- The whole number `m * 2 ^ e` as a header count computes it. -/
theorem whole_eq_some_iff (m : Nat) (e : Int) (n : Nat) :
    (if 0 ≤ e then some (m * Nat.pow 2 e.toNat) else
      if m % Nat.pow 2 (-e).toNat = 0 then some (m / Nat.pow 2 (-e).toNat) else none) = some n ↔
      if 0 ≤ e then m * Nat.pow 2 e.toNat = n else m = n * Nat.pow 2 (-e).toNat := by
  have hp : 0 < Nat.pow 2 (-e).toNat := by rw [Nat.pow_eq]; exact Nat.pow_pos (by omega)
  split
  · simp
  · constructor
    · intro h
      split at h
      · next hdiv =>
        cases h
        exact (Nat.div_mul_cancel (Nat.dvd_of_mod_eq_zero hdiv)).symm
      · cases h
    · intro h
      subst h
      simp [Nat.mul_mod_left]

/-- A whole number `m * 2 ^ e` is zero exactly when its significand is. -/
theorem whole_eq_zero_iff {m : Nat} {e : Int} {n : Nat}
    (h : if 0 ≤ e then m * Nat.pow 2 e.toNat = n else m = n * Nat.pow 2 (-e).toNat) :
    n = 0 ↔ m = 0 := by
  split at h
  · subst h
    simp
  · subst h
    simp

/-- A header value is a count exactly when it is finite and equal to a natural number; a count
past the machine word is the largest word. -/
theorem headerCount_eq_ok_iff {path what : String} {x : UInt32} {n : Nat} :
    headerCount path what x = .ok n ↔
      ∃ r : Nat, Format.single.value? x.toNat = some (r : ℚ) ∧ n = min r wordMax := by
  unfold headerCount
  cases hu : Format.single.unpack x.toNat with
  | nan => simp [Format.value?, hu, headerCount.bad]
  | infinite neg => simp [Format.value?, hu, headerCount.bad]
  | finite neg m e =>
    simp only [Format.value?, hu, Option.some.injEq, Format.signed_scaled_eq_natCast_iff,
      ← whole_eq_some_iff]
    generalize hw : (if 0 ≤ e then some (m * Nat.pow 2 e.toNat) else
      if m % Nat.pow 2 (-e).toNat = 0 then some (m / Nat.pow 2 (-e).toNat) else none) = whole
    cases whole with
    | none => simp [headerCount.bad]
    | some n₀ =>
      have hzero : n₀ = 0 ↔ m = 0 := whole_eq_zero_iff ((whole_eq_some_iff m e n₀).1 hw)
      simp only [Option.some.injEq]
      constructor
      · intro h
        split at h
        · simp [headerCount.bad] at h
        · next hsign =>
          cases h
          exact ⟨n₀, ⟨fun hneg => hzero.1 (by simpa [hneg] using hsign), rfl⟩, rfl⟩
      · rintro ⟨r, ⟨hsign, rfl⟩, rfl⟩
        rw [if_neg]
        rintro ⟨hneg, hne⟩
        exact hne (hzero.2 (hsign hneg))

/-- A header value that is no count is refused as invalid input, naming the value. -/
theorem headerCount_eq_error {path what : String} {x : UInt32} {e : Error}
    (h : headerCount path what x = .error e) :
    e = .invalidInput path
      s!"{what} count {Format.single.plainText x.toNat} is not a non-negative integer" := by
  have hbad : headerCount path what x = headerCount.bad path what x := by
    unfold headerCount at h ⊢
    cases hu : Format.single.unpack x.toNat with
    | nan | infinite _ => rfl
    | finite neg m e =>
      simp only [hu] at h ⊢
      generalize (if 0 ≤ e then some (m * Nat.pow 2 e.toNat) else
        if m % Nat.pow 2 (-e).toNat = 0 then some (m / Nat.pow 2 (-e).toNat) else none) = whole at h ⊢
      cases whole with
      | none => rfl
      | some n₀ =>
        simp only at h ⊢
        split at h
        · next hs => rw [if_pos hs]
        · cases h
  rw [h] at hbad
  exact (Except.error.inj hbad).trans rfl

/-! ## Dumps -/

/-- The bytes of a dump are four per value. -/
@[simp] theorem length_dumpBytes (v : Array UInt32) : (dumpBytes v).length = 4 * v.size := by
  simp [dumpBytes, List.length_flatMap, Nat.mul_comm]

/-- The values of a dump's bytes are the values written, bit for bit. -/
@[simp] theorem dumpValues_dumpBytes (v : Array UInt32) : dumpValues (dumpBytes v) = v := by
  have hchunks : Bytes.chunks 4 (dumpBytes v) = v.toList.map fun x => Bytes.toLE 4 x.toNat := by
    rw [dumpBytes, List.flatMap_def]
    exact Bytes.chunks_flatten (by decide) _ (by simp)
  simp [dumpValues, hchunks, Function.comp_def, Control.ofLE_word]

/-- A dump just written reads back as the values written, bit for bit. -/
theorem readDump_of_writeDump {w w' : WorkDir} {path : String} {v : Array UInt32}
    (h : writeDump w path v = .ok w') : readDump w' path = .ok v := by
  have hw : w.write path (dumpBytes v) = .ok w' := by
    unfold writeDump at h
    split at h
    · cases h
    · next w₁ hw₁ =>
      cases h
      exact hw₁
  simp [readDump, WorkDir.isFile_of_write hw, WorkDir.read_of_write hw]

/-! ## Reading a matrix -/

section
variable {w : WorkDir} {path : String} {v : Array UInt32}

/-- Past two header counts the dump is a matrix of that many rows and columns, unless their
product passes the machine word or is not the number of values after the header. -/
theorem readNlModel_header_of_counts (hv : readDump w path = .ok v) (h2 : 2 ≤ v.size) {R C : Nat}
    (hr : headerCount path "row" (v.getD 0 0) = .ok R)
    (hc : headerCount path "column" (v.getD 1 0) = .ok C) :
    readNlModel w path .header =
      if R * C > wordMax then .error (.invalidInput path s!"{R} x {C} matrix is too large")
      else if v.size - 2 ≠ R * C then .error (.lengthMismatch path (R * C) (v.size - 2))
      else .ok ⟨R, C, v.extract 2 v.size⟩ := by
  rw [Array.getD_eq_getD_getElem?] at hr hc
  simp [readNlModel, hv, hr, hc, Nat.not_lt.2 h2, bind, Except.bind, pure, Except.pure, throw,
    throwThe, MonadExceptOf.throw]

/-- A dump of fewer than two values has no header. -/
theorem readNlModel_header_of_short (hv : readDump w path = .ok v) (h : v.size < 2) :
    readNlModel w path .header = .error (.invalidInput path "missing row/column header") := by
  simp [readNlModel, hv, h, bind, Except.bind, throw, throwThe, MonadExceptOf.throw]

/-- A first header value that is no count is the failure of the read. -/
theorem readNlModel_header_of_bad_rows (hv : readDump w path = .ok v) (h2 : 2 ≤ v.size) {e : Error}
    (hr : headerCount path "row" (v.getD 0 0) = .error e) : readNlModel w path .header = .error e := by
  rw [Array.getD_eq_getD_getElem?] at hr
  simp [readNlModel, hv, hr, Nat.not_lt.2 h2, bind, Except.bind]

/-- A second header value that is no count, after a first that is one, is the failure of the
read. -/
theorem readNlModel_header_of_bad_cols (hv : readDump w path = .ok v) (h2 : 2 ≤ v.size) {R : Nat}
    {e : Error} (hr : headerCount path "row" (v.getD 0 0) = .ok R)
    (hc : headerCount path "column" (v.getD 1 0) = .error e) :
    readNlModel w path .header = .error e := by
  rw [Array.getD_eq_getD_getElem?] at hr hc
  simp [readNlModel, hv, hr, hc, Nat.not_lt.2 h2, bind, Except.bind]

/-- In the explicit layout the whole dump is the payload of a matrix of the given dimensions,
unless their product passes the machine word or is not the number of values. -/
theorem readNlModel_explicit (hv : readDump w path = .ok v) (r c : Nat) :
    readNlModel w path (.explicit r c) =
      if r * c > wordMax then .error (.invalidInput path s!"{r} x {c} matrix is too large")
      else if v.size ≠ r * c then .error (.lengthMismatch path (r * c) v.size)
      else .ok ⟨r, c, v⟩ := by
  simp [readNlModel, hv, bind, Except.bind, pure, Except.pure, throw, throwThe,
    MonadExceptOf.throw]

/-- The values `v` begin with a header of two counts: two values, finite and equal to the whole
numbers `r` and `c`. -/
structure HeaderCounts (v : Array UInt32) (r c : Nat) : Prop where
  two : 2 ≤ v.size
  rows : Format.single.value? (v.getD 0 0).toNat = some (r : ℚ)
  cols : Format.single.value? (v.getD 1 0).toNat = some (c : ℚ)

/-- A header has one pair of counts. -/
theorem HeaderCounts.unique {v : Array UInt32} {r c r' c' : Nat} (h : HeaderCounts v r c)
    (h' : HeaderCounts v r' c') : r = r' ∧ c = c' := by
  have hr := h.rows.symm.trans h'.rows
  have hc := h.cols.symm.trans h'.cols
  simp only [Option.some.injEq, Nat.cast_inj] at hr hc
  exact ⟨hr, hc⟩

/-- Past a header of two counts, a dump is a matrix of as many rows and columns (a count past
the machine word is the largest word), unless their product passes the machine word or is not
the number of values after the header. -/
theorem readNlModel_header_of_headerCounts (hv : readDump w path = .ok v) {r c : Nat}
    (h : HeaderCounts v r c) :
    readNlModel w path .header =
      if min r wordMax * min c wordMax > wordMax then
        .error (.invalidInput path s!"{min r wordMax} x {min c wordMax} matrix is too large")
      else if v.size - 2 ≠ min r wordMax * min c wordMax then
        .error (.lengthMismatch path (min r wordMax * min c wordMax) (v.size - 2))
      else .ok ⟨min r wordMax, min c wordMax, v.extract 2 v.size⟩ := by
  have hr : headerCount path "row" (v.getD 0 0) = .ok (min r wordMax) :=
    headerCount_eq_ok_iff.2 ⟨r, h.rows, rfl⟩
  have hc : headerCount path "column" (v.getD 1 0) = .ok (min c wordMax) :=
    headerCount_eq_ok_iff.2 ⟨c, h.cols, rfl⟩
  exact readNlModel_header_of_counts hv h.two hr hc

/-- A dump without a header of two counts is refused as invalid input. -/
theorem readNlModel_header_of_no_counts (hv : readDump w path = .ok v)
    (h : ¬∃ r c, HeaderCounts v r c) :
    ∃ reason, readNlModel w path .header = .error (.invalidInput path reason) := by
  by_cases h2 : v.size < 2
  · exact ⟨_, readNlModel_header_of_short hv h2⟩
  have h2 : 2 ≤ v.size := by omega
  cases hr : headerCount path "row" (v.getD 0 0) with
  | error e =>
    rw [readNlModel_header_of_bad_rows hv h2 hr, headerCount_eq_error hr]
    exact ⟨_, rfl⟩
  | ok R =>
    cases hc : headerCount path "column" (v.getD 1 0) with
    | error e =>
      rw [readNlModel_header_of_bad_cols hv h2 hr hc, headerCount_eq_error hc]
      exact ⟨_, rfl⟩
    | ok C =>
      obtain ⟨r, hr', -⟩ := headerCount_eq_ok_iff.1 hr
      obtain ⟨c, hc', -⟩ := headerCount_eq_ok_iff.1 hc
      exact absurd ⟨r, c, h2, hr', hc'⟩ h

/-- A dump read in the header layout gives a matrix exactly when it begins with two counts whose
product, past the machine word for neither, is at most a machine word and the number of values
after them; the matrix then holds those values. -/
theorem readNlModel_header_eq_ok_iff (hv : readDump w path = .ok v) {m : NlModel} :
    readNlModel w path .header = .ok m ↔
      ∃ r c, HeaderCounts v r c ∧ min r wordMax * min c wordMax ≤ wordMax ∧
        min r wordMax * min c wordMax = v.size - 2 ∧
        m = ⟨min r wordMax, min c wordMax, v.extract 2 v.size⟩ := by
  by_cases hcounts : ∃ r c, HeaderCounts v r c
  · obtain ⟨r, c, h⟩ := hcounts
    rw [readNlModel_header_of_headerCounts hv h]
    constructor
    · intro hm
      split at hm
      · cases hm
      split at hm
      · cases hm
      cases hm
      exact ⟨r, c, h, by omega, by omega, rfl⟩
    · rintro ⟨r', c', h', hfits, hlen, rfl⟩
      obtain ⟨rfl, rfl⟩ := h.unique h'
      rw [if_neg (by omega), if_neg (by omega)]
  · obtain ⟨reason, hr⟩ := readNlModel_header_of_no_counts hv hcounts
    rw [hr]
    simp only [reduceCtorEq, false_iff, not_exists, not_and]
    exact fun r c h => absurd ⟨r, c, h⟩ hcounts

/-- A dump read in the header layout is refused as invalid input exactly when it does not begin
with two counts, or their product passes the machine word. -/
theorem readNlModel_header_invalid_iff (hv : readDump w path = .ok v) :
    (∃ reason, readNlModel w path .header = .error (.invalidInput path reason)) ↔
      (¬∃ r c, HeaderCounts v r c) ∨
        ∃ r c, HeaderCounts v r c ∧ wordMax < min r wordMax * min c wordMax := by
  by_cases hcounts : ∃ r c, HeaderCounts v r c
  · obtain ⟨r, c, h⟩ := hcounts
    rw [readNlModel_header_of_headerCounts hv h]
    constructor
    · rintro ⟨reason, hm⟩
      split at hm
      · exact .inr ⟨r, c, h, by omega⟩
      split at hm <;> cases hm
    · rintro (hno | ⟨r', c', h', hbig⟩)
      · exact absurd ⟨r, c, h⟩ hno
      · obtain ⟨rfl, rfl⟩ := h.unique h'
        exact ⟨_, if_pos hbig⟩
  · exact ⟨fun _ => .inl hcounts, fun _ => readNlModel_header_of_no_counts hv hcounts⟩

/-- A dump read in the header layout is refused for its length exactly when it begins with two
counts whose product is at most a machine word but not the number of values after them. -/
theorem readNlModel_header_mismatch_iff (hv : readDump w path = .ok v) {n k : Nat} :
    readNlModel w path .header = .error (.lengthMismatch path n k) ↔
      ∃ r c, HeaderCounts v r c ∧ min r wordMax * min c wordMax ≤ wordMax ∧
        n = min r wordMax * min c wordMax ∧ k = v.size - 2 ∧ n ≠ k := by
  by_cases hcounts : ∃ r c, HeaderCounts v r c
  · obtain ⟨r, c, h⟩ := hcounts
    rw [readNlModel_header_of_headerCounts hv h]
    constructor
    · intro hm
      split at hm
      · cases hm
      split at hm
      · next hfits hlen =>
        cases hm
        exact ⟨r, c, h, by omega, rfl, rfl, fun h => hlen h.symm⟩
      · cases hm
    · rintro ⟨r', c', h', hfits, rfl, rfl, hne⟩
      obtain ⟨rfl, rfl⟩ := h.unique h'
      rw [if_neg (by omega), if_pos (fun h => hne h.symm)]
  · obtain ⟨reason, hr⟩ := readNlModel_header_of_no_counts hv hcounts
    rw [hr]
    simp only [Except.error.injEq, reduceCtorEq, false_iff, not_exists, not_and]
    exact fun r c h => absurd ⟨r, c, h⟩ hcounts

/-! ## The matrix of the values after the header -/

/-- The coefficient at a row and column inside the matrix of the values after a header is the
value that many rows and columns past the header. -/
theorem get?_of_header {r c : Nat} (hlen : r * c = v.size - 2) (i j : Nat) :
    (⟨r, c, v.extract 2 v.size⟩ : NlModel).get? i j =
      if i < r ∧ j < c then v[2 + i * c + j]? else none := by
  unfold NlModel.get?
  split
  next hin =>
    have hin : i < r ∧ j < c := hin
    have hidx : i * c + j < v.size - 2 := by
      have : (i + 1) * c ≤ r * c := Nat.mul_le_mul_right c hin.1
      rw [Nat.add_mul] at this
      omega
    simp only [Array.getElem?_extract, Nat.min_self, if_pos hidx, Nat.add_assoc]
  · rfl

/-- Row `i` of the matrix of the values after a header is the `i`-th run of `c` of them. -/
theorem row?_of_header {r c : Nat} (i : Nat) :
    ((⟨r, c, v.extract 2 v.size⟩ : NlModel).row? i).map Array.toList =
      if i < r then some ((v.toList.drop (2 + i * c)).take c) else none := by
  unfold NlModel.row?
  split
  · simp [Nat.add_mul, Nat.add_comm]
    omega
  · rfl

/-- A matrix whose coefficients are as many as its cells, at most a machine word, is read back
from its payload written as a dump, given its dimensions. -/
theorem readNlModel_explicit_of_writeDump {m : NlModel} (hsize : m.coefficients.size = m.rows * m.cols)
    (hfits : m.rows * m.cols ≤ wordMax) {w₁ w₂ : WorkDir} {out : String}
    (hw : writeDump w₁ out m.coefficients = .ok w₂) :
    readNlModel w₂ out (.explicit m.rows m.cols) = .ok m := by
  rw [readNlModel_explicit (readDump_of_writeDump hw), if_neg (by omega), if_neg (by omega)]

end

/-! ## Reshaping a dump by its header -/

/-- A dump of values `v` read in the header layout gives a matrix exactly when `v` begins with
two whole numbers `r` and `c`, not below zero, whose counts (a count past the machine word is the
largest word) multiply to at most a machine word and to the number of values after them; the
matrix has those counts as rows and columns. Otherwise it is refused as invalid input when there
is no such header or the product passes the machine word, and for its length when the product is
not the number of values after the header. In the matrix, the coefficient at row `i` and column
`j` is the value `2 + i * cols + j` of the dump, bit for bit, inside the matrix and none outside
it; row `i` is the `i`-th run of `cols` values after the header; and its payload, written as a
dump and read back with its dimensions, is the same matrix. -/
theorem readNlModel_header_reshapes {w w' : WorkDir} {path : String} {v : Array UInt32}
    (hw : writeDump w path v = .ok w') :
    (∀ m, readNlModel w' path .header = .ok m ↔
      ∃ r c, HeaderCounts v r c ∧ min r wordMax * min c wordMax ≤ wordMax ∧
        min r wordMax * min c wordMax = v.size - 2 ∧
        m = ⟨min r wordMax, min c wordMax, v.extract 2 v.size⟩) ∧
    ((∃ reason, readNlModel w' path .header = .error (.invalidInput path reason)) ↔
      (¬∃ r c, HeaderCounts v r c) ∨
        ∃ r c, HeaderCounts v r c ∧ wordMax < min r wordMax * min c wordMax) ∧
    (∀ n k, readNlModel w' path .header = .error (.lengthMismatch path n k) ↔
      ∃ r c, HeaderCounts v r c ∧ min r wordMax * min c wordMax ≤ wordMax ∧
        n = min r wordMax * min c wordMax ∧ k = v.size - 2 ∧ n ≠ k) ∧
    ∀ m, readNlModel w' path .header = .ok m →
      (∀ i j, m.get? i j = if i < m.rows ∧ j < m.cols then v[2 + i * m.cols + j]? else none) ∧
      (∀ i, (m.row? i).map Array.toList =
        if i < m.rows then some ((v.toList.drop (2 + i * m.cols)).take m.cols) else none) ∧
      ∀ out w₁ w₂, writeDump w₁ out m.coefficients = .ok w₂ →
        readNlModel w₂ out (.explicit m.rows m.cols) = .ok m := by
  have hv := readDump_of_writeDump hw
  refine ⟨fun m => readNlModel_header_eq_ok_iff hv, readNlModel_header_invalid_iff hv,
    fun n k => readNlModel_header_mismatch_iff hv, fun m hm => ?_⟩
  obtain ⟨r, c, -, hfits, hlen, rfl⟩ := (readNlModel_header_eq_ok_iff hv).1 hm
  refine ⟨get?_of_header hlen, row?_of_header, fun out w₁ w₂ hout => ?_⟩
  exact readNlModel_explicit_of_writeDump (by simp; omega) hfits hout

/-- A dump whose header is 2 and 3, followed by the values 1 to 6. -/
def twoByThreeDump : Array UInt32 :=
  #[0x40000000, 0x40400000, 0x3F800000, 0x40000000, 0x40400000, 0x40800000, 0x40A00000,
    0x40C00000]

/-- The header 2, 3 shapes the six values after it into two rows of three: the value at row 0
and column 2 is 3, row 1 is 4, 5, 6, and there is no row 2. -/
theorem header_two_by_three :
    writeDump {} "nlm_buffer.bin" twoByThreeDump =
        .ok (({} : WorkDir).put "nlm_buffer.bin" (dumpBytes twoByThreeDump)) ∧
      readNlModel (({} : WorkDir).put "nlm_buffer.bin" (dumpBytes twoByThreeDump))
          "nlm_buffer.bin" .header =
        .ok ⟨2, 3, #[0x3F800000, 0x40000000, 0x40400000, 0x40800000, 0x40A00000, 0x40C00000]⟩ ∧
      (⟨2, 3, #[0x3F800000, 0x40000000, 0x40400000, 0x40800000, 0x40A00000, 0x40C00000]⟩ :
          NlModel).get? 0 2 = some 0x40400000 ∧
      (⟨2, 3, #[0x3F800000, 0x40000000, 0x40400000, 0x40800000, 0x40A00000, 0x40C00000]⟩ :
          NlModel).get? 2 0 = none := by
  have hw : writeDump {} "nlm_buffer.bin" twoByThreeDump =
      .ok (({} : WorkDir).put "nlm_buffer.bin" (dumpBytes twoByThreeDump)) := by
    decide +kernel
  have hcounts : HeaderCounts twoByThreeDump 2 3 := ⟨by decide, by decide +kernel, by decide +kernel⟩
  have hread := ((readNlModel_header_reshapes hw).1 _).2 ⟨2, 3, hcounts, by decide, by decide, rfl⟩
  exact ⟨hw, hread, rfl, rfl⟩

/-- A header of `2 ^ 64` rows and no columns, the number of rows a whole single past the
largest machine word, is read as a matrix of `2 ^ 64 - 1` rows. -/
theorem header_rows_past_word_read_as_word_max :
    Format.single.value? (0x5F800000 : UInt32).toNat = some (18446744073709551616 : ℚ) ∧
      readNlModel (({} : WorkDir).put "nlm_buffer.bin" (dumpBytes #[0x5F800000, 0]))
          "nlm_buffer.bin" .header =
        .ok ⟨wordMax, 0, #[]⟩ := by
  have hw : writeDump {} "nlm_buffer.bin" #[0x5F800000, 0] =
      .ok (({} : WorkDir).put "nlm_buffer.bin" (dumpBytes #[0x5F800000, 0])) := by
    decide +kernel
  have hrows : Format.single.value? (0x5F800000 : UInt32).toNat =
      some (18446744073709551616 : ℚ) := by
    decide +kernel
  have hcounts : HeaderCounts #[0x5F800000, 0] 18446744073709551616 0 :=
    ⟨by decide, hrows, by decide +kernel⟩
  exact ⟨hrows, (readNlModel_header_eq_ok_iff (readDump_of_writeDump hw)).2
    ⟨_, _, hcounts, by decide, by decide, rfl⟩⟩

end VoiceBench.Media
