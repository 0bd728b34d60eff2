import Mathlib
import VoiceBench.Control.Value
import VoiceBench.Proofs.Decimal.Literals

/-!
# Reading values from argument text

What a command-line argument is read as, for each element type. The text is trimmed first, and
an error names the trimmed text. `ReadsAs` states the rules without reference to the reader,
and `ValueType.parse` follows exactly them (`parse_eq_iff_readsAs`):

* a text command takes no arguments;
* an integer is an integer literal (`IntegerLiteral`): an optional sign, `0x` or `0X` for
  hexadecimal, then at least one digit of the radix. A literal outside the type's range is out
  of range however many digits it has. The digits are read left to right into a 128-bit signed
  integer, and the digit that takes the value past the largest one stops the reading: such a
  text is out of range whatever follows the digits (`DigitsOverflow`), also when it is no
  literal at all (`forty_nines_then_letter_out_of_range`). Any other text is invalid;
* a float or an angle is a floating-point literal (`FloatLiteral`) rounded to single precision.
  A finite literal that rounds to an infinity is out of range, while the words `inf` and
  `infinity` are read as infinities: a text spells an infinity exactly when it is an infinite
  literal (`spellsInfinity_iff`). Any other text is invalid.
-/

namespace VoiceBench

/-- Whether a literal is finite and rounds to an infinity in single precision. -/
def Literal.roundsToInfinity : Literal → Bool
  | .finite neg d =>
    match Binary.Format.single.unpack
        (Binary.Format.single.roundDecimal neg d.coefficient d.exponent) with
    | .infinite _ => true
    | _ => false
  | _ => false

end VoiceBench

namespace VoiceBench.Control

open Codegen (IsHexDigit digitValue numeral numeral_append_singleton isHexDigit_iff_toNat
  isDigit_iff_toNat char_le_iff_toNat digitValue_of_isDigit digitValue_of_lower
  digitValue_of_upper)

/-! ## Digits of a radix -/

/-- The characters that are digits of a radix: those whose value as a hexadecimal digit is
below it. -/
def IsDigitOf (radix : Nat) (c : Char) : Prop := IsHexDigit c ∧ digitValue c < radix

instance (radix : Nat) (c : Char) : Decidable (IsDigitOf radix c) :=
  inferInstanceAs (Decidable (IsHexDigit c ∧ digitValue c < radix))

/-- The hexadecimal digit reader gives the value of exactly the hexadecimal digits. -/
theorem hexDigit?_eq (c : Char) :
    Bytes.hexDigit? c = if IsHexDigit c then some (digitValue c) else none := by
  have hzero : ('0' ≤ c ∧ c ≤ '9') ↔ 48 ≤ c.toNat ∧ c.toNat ≤ 57 := by simp [char_le_iff_toNat]
  have hlower : ('a' ≤ c ∧ c ≤ 'f') ↔ 97 ≤ c.toNat ∧ c.toNat ≤ 102 := by simp [char_le_iff_toNat]
  have hupper : ('A' ≤ c ∧ c ≤ 'F') ↔ 65 ≤ c.toNat ∧ c.toNat ≤ 70 := by simp [char_le_iff_toNat]
  by_cases hc : IsHexDigit c
  · rw [if_pos hc]
    -- one case for each of the three ranges of digits
    rcases isHexDigit_iff_toNat.1 hc with h | h | h
    · rw [Bytes.hexDigit?, if_pos (hzero.2 h), digitValue_of_isDigit (isDigit_iff_toNat.2 h)]
      rfl
    · rw [Bytes.hexDigit?, if_neg (by rw [hzero]; omega), if_pos (hlower.2 h),
        digitValue_of_lower h.1 h.2]
      simp only [Char.reduceToNat, Option.some.injEq]
      omega
    · rw [Bytes.hexDigit?, if_neg (by rw [hzero]; omega), if_neg (by rw [hlower]; omega),
        if_pos (hupper.2 h), digitValue_of_upper h.1 h.2]
      simp only [Char.reduceToNat, Option.some.injEq]
      omega
  · have h := mt isHexDigit_iff_toNat.2 hc
    rw [if_neg hc, Bytes.hexDigit?, if_neg (by rw [hzero]; omega), if_neg (by rw [hlower]; omega),
      if_neg (by rw [hupper]; omega)]

/-- A digit of a radix is read with its value. -/
theorem radixDigit?_eq (radix : Nat) (c : Char) :
    radixDigit? radix c = if IsDigitOf radix c then some (digitValue c) else none := by
  rw [radixDigit?, hexDigit?_eq]
  by_cases hc : IsHexDigit c
  · by_cases hr : digitValue c < radix <;> simp [hc, hr, IsDigitOf]
  · simp [hc, IsDigitOf]

/-- A digit is no sign. -/
theorem notSign_of_isDigitOf {radix : Nat} {c : Char} (hc : IsDigitOf radix c)
    (cs : List Char) : NotSign (c :: cs) := by
  intro d hd
  obtain rfl : c = d := by simpa using hd
  have h := isHexDigit_iff_toNat.1 hc.1
  constructor <;> rintro rfl <;> simp at h

/-! ## Reading digits -/

/-- The number that digits denote in a radix, read after digits that denote `acc`. -/
def digitsFrom (radix acc : Nat) (ds : List Char) : Nat :=
  ds.foldl (fun a c => radix * a + digitValue c) acc

@[simp] theorem digitsFrom_nil (radix acc : Nat) : digitsFrom radix acc [] = acc := rfl

@[simp] theorem digitsFrom_cons (radix acc : Nat) (c : Char) (ds : List Char) :
    digitsFrom radix acc (c :: ds) = digitsFrom radix (radix * acc + digitValue c) ds := rfl

/-- Read from nothing, digits denote their numeral. -/
theorem digitsFrom_zero (radix : Nat) (ds : List Char) :
    digitsFrom radix 0 ds = numeral radix ds := by
  induction ds using List.reverseRecOn with
  | nil => rfl
  | append_singleton ds c ih =>
    calc digitsFrom radix 0 (ds ++ [c]) = radix * digitsFrom radix 0 ds + digitValue c := by
          simp [digitsFrom]
      _ = numeral radix (ds ++ [c]) := by rw [ih, numeral_append_singleton, Nat.mul_comm]

/-- Reading more digits never lowers the value. -/
theorem le_digitsFrom {radix : Nat} (hr : 0 < radix) (acc : Nat) (ds : List Char) :
    acc ≤ digitsFrom radix acc ds := by
  induction ds generalizing acc with
  | nil => exact le_refl acc
  | cons c ds ih =>
    calc acc ≤ radix * acc + digitValue c := le_add_right (Nat.le_mul_of_pos_left acc hr)
      _ ≤ digitsFrom radix (radix * acc + digitValue c) ds := ih _

/-- One digit read: a character that is no digit is refused, and a digit that takes the value
past `intMax` stops the reading. -/
theorem readDigits_cons (radix acc : Nat) (c : Char) (ds : List Char) :
    readDigits radix acc (c :: ds) =
      if IsDigitOf radix c then
        if intMax < radix * acc + digitValue c then .error .overflow
        else readDigits radix (radix * acc + digitValue c) ds
      else .error .invalid := by
  rw [readDigits, radixDigit?_eq]
  by_cases hc : IsDigitOf radix c <;> simp [hc]

/-- Reading digits onto a value within bounds succeeds exactly when they are all digits of the
radix and what they denote stays within bounds. -/
theorem readDigits_eq_ok_iff {radix acc m : Nat} (hr : 0 < radix) (hacc : acc ≤ intMax)
    (ds : List Char) :
    readDigits radix acc ds = .ok m ↔
      (∀ c ∈ ds, IsDigitOf radix c) ∧ digitsFrom radix acc ds ≤ intMax ∧
        m = digitsFrom radix acc ds := by
  induction ds generalizing acc with
  | nil =>
    simp only [readDigits, digitsFrom_nil, List.not_mem_nil, IsEmpty.forall_iff, implies_true,
      true_and, Except.ok.injEq]
    exact ⟨fun h => ⟨hacc, h.symm⟩, fun h => h.2.symm⟩
  | cons c ds ih =>
    rw [readDigits_cons, List.forall_mem_cons, digitsFrom_cons]
    by_cases hc : IsDigitOf radix c
    · rw [if_pos hc]
      by_cases hover : intMax < radix * acc + digitValue c
      · -- past the bound at this digit, and every value read on from it is past it too
        have hpast := lt_of_lt_of_le hover (le_digitsFrom hr _ ds)
        rw [if_pos hover]
        constructor
        · intro h
          cases h
        · rintro ⟨-, hle, -⟩
          exact absurd hle (not_le.2 hpast)
      · rw [if_neg hover, ih (Nat.le_of_not_lt hover)]
        simp [hc]
    · rw [if_neg hc]
      constructor
      · intro h
        cases h
      · rintro ⟨⟨hc', -⟩, -⟩
        exact absurd hc' hc

/-- Reading digits onto a value within bounds passes the bound exactly when a run of digits of
the radix at the start passes it. -/
theorem readDigits_eq_overflow_iff {radix acc : Nat} (hacc : acc ≤ intMax) (ds : List Char) :
    readDigits radix acc ds = .error .overflow ↔
      ∃ p rest, ds = p ++ rest ∧ (∀ c ∈ p, IsDigitOf radix c) ∧
        intMax < digitsFrom radix acc p := by
  induction ds generalizing acc with
  | nil =>
    constructor
    · intro h
      cases h
    · rintro ⟨p, rest, hnil, -, hbig⟩
      obtain ⟨rfl, -⟩ := List.append_eq_nil_iff.1 hnil.symm
      exact absurd hacc (not_le.2 hbig)
  | cons c ds ih =>
    rw [readDigits_cons]
    by_cases hc : IsDigitOf radix c
    · rw [if_pos hc]
      by_cases hover : intMax < radix * acc + digitValue c
      · rw [if_pos hover]
        exact iff_of_true rfl ⟨[c], ds, rfl, by simpa using hc, hover⟩
      · have hnext : radix * acc + digitValue c ≤ intMax := Nat.le_of_not_lt hover
        rw [if_neg hover, ih hnext]
        constructor
        · rintro ⟨p, rest, rfl, hp, hbig⟩
          exact ⟨c :: p, rest, rfl, List.forall_mem_cons.2 ⟨hc, hp⟩, hbig⟩
        · -- no empty run passes the bound, since the value read so far is within it
          rintro ⟨_ | ⟨d, p⟩, rest, heq, hp, hbig⟩
          · exact absurd hacc (not_le.2 hbig)
          · obtain ⟨rfl, rfl⟩ := List.cons.inj heq
            exact ⟨p, rest, rfl, fun x hx => hp x (.tail _ hx), hbig⟩
    · rw [if_neg hc]
      constructor
      · intro h
        cases h
      · rintro ⟨_ | ⟨d, p⟩, rest, heq, hp, hbig⟩
        · exact absurd hacc (not_le.2 hbig)
        · obtain ⟨rfl, -⟩ := List.cons.inj heq
          exact absurd (hp c (.head _)) hc

/-! ## Integer literals -/

/-- How a literal announces its radix: decimal has no prefix, hexadecimal `0x` or `0X`. -/
inductive RadixPrefix : List Char → Nat → Prop
  | decimal : RadixPrefix [] 10
  | lower : RadixPrefix ['0', 'x'] 16
  | upper : RadixPrefix ['0', 'X'] 16

/-- The integer literals and their values: an optional sign, the prefix of a radix, and at least
one digit of that radix. -/
inductive IntegerLiteral : List Char → Int → Prop
  | mk (sign : NumberSign) {pre ds : List Char} {radix : Nat} : RadixPrefix pre radix →
      ds ≠ [] → (∀ c ∈ ds, IsDigitOf radix c) →
      IntegerLiteral (sign.chars ++ (pre ++ ds)) (sign.apply (numeral radix ds))

/-- The texts whose digits pass the largest 128-bit integer before anything that is no digit:
an optional sign, the prefix of a radix, digits of the radix that denote more than `intMax`, and
anything after them. -/
inductive DigitsOverflow : List Char → Prop
  | mk (sign : NumberSign) {pre ds : List Char} {radix : Nat} (rest : List Char) :
      RadixPrefix pre radix → (∀ c ∈ ds, IsDigitOf radix c) → intMax < numeral radix ds →
      DigitsOverflow (sign.chars ++ (pre ++ (ds ++ rest)))

theorem RadixPrefix.radix_pos {pre : List Char} {radix : Nat} (h : RadixPrefix pre radix) :
    0 < radix := by
  cases h <;> decide

theorem RadixPrefix.radix_le {pre : List Char} {radix : Nat} (h : RadixPrefix pre radix) :
    radix ≤ 16 := by
  cases h <;> decide

/-- A literal ends with a hexadecimal digit. -/
theorem IntegerLiteral.getLast_isHexDigit {cs : List Char} {n : Int} (h : IntegerLiteral cs n) :
    ∀ c ∈ cs.getLast?, IsHexDigit c := by
  cases h with
  | mk sign hpre hne hds =>
    intro c hc
    rw [← List.append_assoc, List.getLast?_append_of_ne_nil _ hne] at hc
    exact (hds c (List.mem_of_getLast? hc)).1

theorem NumberSign.natAbs_apply (sign : NumberSign) (n : Nat) : (sign.apply n).natAbs = n := by
  cases sign <;> simp [NumberSign.apply, NumberSign.neg]

theorem splitIntegerSign_eq (cs : List Char) : splitIntegerSign cs = Literal.splitSign cs := by
  rcases cs with _ | ⟨c, rest⟩
  · rfl
  by_cases hminus : c = '-'
  · subst hminus
    rfl
  by_cases hplus : c = '+'
  · subst hplus
    rfl
  simp [splitIntegerSign, Literal.splitSign, hminus, hplus]

/-- The radix split off is announced by the prefix it was written with. -/
theorem splitRadix_spec (cs : List Char) :
    ∃ pre, RadixPrefix pre (splitRadix cs).1 ∧ cs = pre ++ (splitRadix cs).2 := by
  unfold splitRadix
  split
  · exact ⟨['0', 'x'], .lower, rfl⟩
  · exact ⟨['0', 'X'], .upper, rfl⟩
  · exact ⟨[], .decimal, rfl⟩

/-- Digits of a radix written after its prefix are split off as written, unless decimal digits
themselves start like a hexadecimal prefix. -/
theorem split_of_digits {pre : List Char} {radix : Nat} (hpre : RadixPrefix pre radix)
    {d : Char} (hd : IsDigitOf radix d) {rest : List Char}
    (hhex : pre = [] → ∀ more, d :: rest ≠ '0' :: 'x' :: more ∧ d :: rest ≠ '0' :: 'X' :: more) :
    NotSign (pre ++ d :: rest) ∧ splitRadix (pre ++ d :: rest) = (radix, d :: rest) := by
  cases hpre with
  | decimal =>
    refine ⟨notSign_of_isDigitOf hd rest, ?_⟩
    simp only [List.nil_append, splitRadix]
    split
    · next more h => exact absurd h (hhex rfl more).1
    · next more h => exact absurd h (hhex rfl more).2
    · rfl
  | lower => exact ⟨fun c hc => by simp at hc; subst hc; decide, rfl⟩
  | upper => exact ⟨fun c hc => by simp at hc; subst hc; decide, rfl⟩

/-- Decimal digits start like a hexadecimal prefix only as a single `0` followed by more. -/
theorem not_hex_of_digits {ds rest : List Char} (hds : ∀ c ∈ ds, IsDigitOf 10 c)
    (hlen : rest = [] ∨ 2 ≤ ds.length) (more : List Char) :
    ds ++ rest ≠ '0' :: 'x' :: more ∧ ds ++ rest ≠ '0' :: 'X' :: more := by
  rcases ds with _ | ⟨d₁, _ | ⟨d₂, ds⟩⟩
  · rcases hlen with rfl | h
    · exact ⟨List.cons_ne_nil _ _ ∘ Eq.symm, List.cons_ne_nil _ _ ∘ Eq.symm⟩
    · simp at h
  · rcases hlen with rfl | h
    · simp
    · simp at h
  · -- the second digit is a decimal digit, neither `x` nor `X`
    have h₂ := hds d₂ (by simp)
    constructor <;> intro h <;> simp only [List.cons_append, List.cons.injEq] at h <;>
      rw [h.2.1] at h₂ <;> exact absurd h₂ (by decide)

/-- How the reader splits any text: a sign, a radix prefix and the digits after them. -/
theorem readInteger_spec (s : String) :
    ∃ (sign : NumberSign) (pre : List Char) (radix : Nat) (body : List Char),
      s.toList = sign.chars ++ (pre ++ body) ∧ RadixPrefix pre radix ∧
      readInteger s =
        if body = [] then .error .invalid else (readDigits radix 0 body).map sign.apply := by
  obtain ⟨sign, hs, hneg⟩ := Literal.splitSign_spec s.toList
  rcases hsplit : Literal.splitSign s.toList with ⟨neg, rest⟩
  rw [hsplit] at hs hneg
  obtain ⟨pre, hpre, hrest⟩ := splitRadix_spec rest
  rcases hradix : splitRadix rest with ⟨radix, body⟩
  rw [hradix] at hpre hrest
  refine ⟨sign, pre, radix, body, by rw [hs, hrest], hpre, ?_⟩
  simp only [readInteger, splitIntegerSign_eq, hsplit, hradix, List.isEmpty_iff]
  subst hneg
  by_cases hb : body = []
  · rw [if_pos hb, if_pos hb]
  · rw [if_neg hb, if_neg hb]
    cases readDigits radix 0 body <;> rfl

/-- A text written as a sign, a radix prefix and digits is read from those digits. -/
theorem readInteger_of_split {s : String} (sign : NumberSign) {pre body : List Char}
    {radix : Nat} (hs : s.toList = sign.chars ++ (pre ++ body)) (hne : body ≠ [])
    (hnot : NotSign (pre ++ body)) (hradix : splitRadix (pre ++ body) = (radix, body)) :
    readInteger s = (readDigits radix 0 body).map sign.apply := by
  have hempty : body.isEmpty = false := List.isEmpty_eq_false_iff.2 hne
  simp only [readInteger, splitIntegerSign_eq, hs, Literal.splitSign_chars sign hnot, hradix,
    hempty, Bool.false_eq_true, if_false]
  cases readDigits radix 0 body <;> rfl

/-- A text written as a sign, a radix prefix and digits of the radix, then more, is read from
those digits on. Decimal digits are not taken for a hexadecimal prefix when they are all there
is or there are at least two of them. -/
theorem readInteger_of_digits {s : String} (sign : NumberSign) {pre ds : List Char}
    {radix : Nat} (hpre : RadixPrefix pre radix) (hne : ds ≠ [])
    (hds : ∀ c ∈ ds, IsDigitOf radix c) (rest : List Char)
    (hrest : pre = [] → rest = [] ∨ 2 ≤ ds.length)
    (hs : s.toList = sign.chars ++ (pre ++ (ds ++ rest))) :
    readInteger s = (readDigits radix 0 (ds ++ rest)).map sign.apply := by
  obtain ⟨d, ds', rfl⟩ := List.exists_cons_of_ne_nil hne
  have hhex : pre = [] → ∀ more, d :: (ds' ++ rest) ≠ '0' :: 'x' :: more ∧
      d :: (ds' ++ rest) ≠ '0' :: 'X' :: more := by
    cases hpre with
    | decimal => exact fun hp more => not_hex_of_digits hds (hrest hp) more
    | lower | upper => exact fun h => absurd h (List.cons_ne_nil _ _)
  obtain ⟨hnot, hradix⟩ := split_of_digits hpre (hds d (.head _)) hhex
  exact readInteger_of_split sign (by rw [hs, List.cons_append]) (List.cons_ne_nil _ _) hnot
    hradix

/-- A literal is read as its value, unless that value passes the largest 128-bit integer. -/
theorem readInteger_of_literal {s : String} {n : Int} (h : IntegerLiteral s.toList n) :
    readInteger s = if intMax < n.natAbs then .error .overflow else .ok n := by
  generalize hcs : s.toList = cs at h
  cases h with
  | @mk sign pre ds radix hpre hne hds =>
    rw [readInteger_of_digits sign hpre hne hds [] (fun _ => .inl rfl)
      (by rw [hcs, List.append_nil]), List.append_nil, NumberSign.natAbs_apply]
    have hr := hpre.radix_pos
    by_cases hbig : intMax < numeral radix ds
    · have hover : readDigits radix 0 ds = .error .overflow :=
        (readDigits_eq_overflow_iff (Nat.zero_le _) ds).2
          ⟨ds, [], by simp, hds, by rwa [digitsFrom_zero]⟩
      rw [if_pos hbig, hover]
      rfl
    · have hok : readDigits radix 0 ds = .ok (numeral radix ds) :=
        (readDigits_eq_ok_iff hr (Nat.zero_le _) ds).2
          ⟨hds, by rw [digitsFrom_zero]; exact Nat.le_of_not_lt hbig, (digitsFrom_zero _ _).symm⟩
      rw [if_neg hbig, hok]
      rfl

/-- Digits that pass the bound make the reading stop there. -/
theorem readInteger_of_digitsOverflow {s : String} (h : DigitsOverflow s.toList) :
    readInteger s = .error .overflow := by
  generalize hcs : s.toList = cs at h
  cases h with
  | @mk sign pre ds radix rest hpre hds hbig =>
    have hlen : 2 ≤ ds.length := by
      rcases ds with _ | ⟨d, _ | ⟨d', ds⟩⟩
      · exact absurd (Nat.zero_le _) (not_le.2 hbig)
      · have hd := (hds d (by simp)).2
        have hsmall : 16 < intMax := by decide
        have hradix := hpre.radix_le
        simp [numeral] at hbig
        omega
      · simp
    have hne : ds ≠ [] := List.ne_nil_of_length_pos (by omega)
    have hover : readDigits radix 0 (ds ++ rest) = .error .overflow :=
      (readDigits_eq_overflow_iff (Nat.zero_le _) _).2
        ⟨ds, rest, rfl, hds, by rwa [digitsFrom_zero]⟩
    rw [readInteger_of_digits sign hpre hne hds rest (fun _ => .inr hlen) hcs, hover]
    rfl

/-- A text is read as an integer exactly when it is a literal whose value is within the largest
128-bit integer. -/
theorem readInteger_eq_ok_iff (s : String) (n : Int) :
    readInteger s = .ok n ↔ IntegerLiteral s.toList n ∧ n.natAbs ≤ intMax := by
  constructor
  · intro h
    obtain ⟨sign, pre, radix, body, hs, hpre, hread⟩ := readInteger_spec s
    rw [hread] at h
    by_cases hne : body = []
    · rw [if_pos hne] at h
      cases h
    rw [if_neg hne] at h
    obtain ⟨m, hm, rfl⟩ : ∃ m, readDigits radix 0 body = .ok m ∧ sign.apply m = n := by
      rcases hd : readDigits radix 0 body with e | m
      · rw [hd] at h
        cases h
      · exact ⟨m, rfl, by rw [hd] at h; exact Except.ok.inj h⟩
    obtain ⟨hds, hle, rfl⟩ := (readDigits_eq_ok_iff hpre.radix_pos (Nat.zero_le _) body).1 hm
    rw [digitsFrom_zero] at hle ⊢
    rw [hs, NumberSign.natAbs_apply]
    exact ⟨.mk sign hpre hne hds, hle⟩
  · rintro ⟨hlit, hle⟩
    rw [readInteger_of_literal hlit, if_neg (not_lt.2 hle)]

/-- A text passes the bound of the reading exactly when its digits do. -/
theorem readInteger_eq_overflow_iff (s : String) :
    readInteger s = .error .overflow ↔ DigitsOverflow s.toList := by
  refine ⟨fun h => ?_, readInteger_of_digitsOverflow⟩
  obtain ⟨sign, pre, radix, body, hs, hpre, hread⟩ := readInteger_spec s
  rw [hread] at h
  by_cases hne : body = []
  · rw [if_pos hne] at h
    cases h
  rw [if_neg hne] at h
  have hd : readDigits radix 0 body = .error .overflow := by
    rcases hd : readDigits radix 0 body with e | m
    · rw [hd] at h
      simpa [Except.map] using h
    · rw [hd] at h
      cases h
  obtain ⟨p, rest, rfl, hp, hbig⟩ :=
    (readDigits_eq_overflow_iff (Nat.zero_le _) body).1 hd
  rw [hs]
  exact .mk sign rest hpre hp (by rwa [← digitsFrom_zero])

/-- A literal past the bound of the reading is a run of digits past it. -/
theorem IntegerLiteral.digitsOverflow {s : String} {n : Int} (h : IntegerLiteral s.toList n)
    (hbig : intMax < n.natAbs) : DigitsOverflow s.toList := by
  have hread := readInteger_of_literal h
  rw [if_pos hbig] at hread
  exact (readInteger_eq_overflow_iff s).1 hread

/-- A text is refused as no integer exactly when it is no literal and no run of digits past the
bound. -/
theorem readInteger_eq_invalid_iff (s : String) :
    readInteger s = .error .invalid ↔
      (∀ n, ¬ IntegerLiteral s.toList n) ∧ ¬ DigitsOverflow s.toList := by
  constructor
  · intro h
    refine ⟨fun n hlit => ?_, fun hov => ?_⟩
    · rw [readInteger_of_literal hlit] at h
      split_ifs at h
      cases h
    · rw [readInteger_of_digitsOverflow hov] at h
      cases h
  · rintro ⟨hnone, hnov⟩
    rcases hread : readInteger s with e | n
    · cases e with
      | invalid => rfl
      | overflow => exact absurd ((readInteger_eq_overflow_iff s).1 hread) hnov
    · exact absurd ((readInteger_eq_ok_iff s n).1 hread).1 (hnone n)

/-! ## Values -/

/-- The integer a value of an integer type holds. -/
def Value.integer : Value → Option Int
  | .uint8 b => some b.toNat
  | .int32 v => some v.toInt
  | .uint32 v => some v.toNat
  | _ => none

/-- The single-precision encoding a float or an angle holds. -/
def Value.encoding : Value → Option UInt32
  | .float bits | .radians bits => some bits
  | _ => none

/-- The integer element types. -/
def ValueType.IsInteger (t : ValueType) : Prop := t = .uint8 ∨ t = .int32 ∨ t = .uint32

/-- The element types held in single precision. -/
def ValueType.IsFloat (t : ValueType) : Prop := t = .float ∨ t = .radians

/-- A value of an integer type is fixed by its type and the integer it holds. -/
theorem Value.eq_of_integer {v w : Value} (ht : v.type = w.type) (hi : v.integer = w.integer)
    (hs : v.integer ≠ none) : v = w := by
  cases v <;> cases w <;> simp [Value.type, Value.integer] at ht hi hs ⊢
  case uint8.uint8 => exact UInt8.toNat_inj.1 hi
  case int32.int32 => exact Int32.toInt_inj.1 hi
  case uint32.uint32 => exact UInt32.toNat_inj.1 hi

/-- A value of a float type is fixed by its type and its encoding. -/
theorem Value.eq_of_encoding {v w : Value} (ht : v.type = w.type) (he : v.encoding = w.encoding)
    (hs : v.encoding ≠ none) : v = w := by
  cases v <;> cases w <;> simp [Value.type, Value.encoding] at ht he hs ⊢
  case float.float => exact he
  case radians.radians => exact he

/-! The value the reader builds for an integer in range holds that integer. -/

theorem integer_uint8 {n : Int} (hn : ValueType.uint8.holds n = true) :
    (Value.uint8 (UInt8.ofNat n.toNat)).integer = some n := by
  simp only [ValueType.holds, Bool.and_eq_true, decide_eq_true_eq] at hn
  simp [Value.integer]
  omega

theorem integer_int32 {n : Int} (hn : ValueType.int32.holds n = true) :
    (Value.int32 (Int32.ofInt n)).integer = some n := by
  simp only [ValueType.holds, Bool.and_eq_true, decide_eq_true_eq] at hn
  have hsize : Int32.size = 4294967296 := rfl
  simp only [Value.integer, Int32.toInt_ofInt, Option.some.injEq]
  exact Int.bmod_eq_of_le (by omega) (by omega)

theorem integer_uint32 {n : Int} (hn : ValueType.uint32.holds n = true) :
    (Value.uint32 (UInt32.ofNat n.toNat)).integer = some n := by
  simp only [ValueType.holds, Bool.and_eq_true, decide_eq_true_eq] at hn
  simp [Value.integer]
  omega

/-! ## Reading integer arguments -/

section Integer

variable {t : ValueType} (ht : t.IsInteger) (raw : String)
include ht

theorem parse_of_invalid (h : readInteger (Text.trim raw) = .error .invalid) :
    t.parse raw = .error (.invalidValue t (Text.trim raw)) := by
  rcases ht with rfl | rfl | rfl <;> unfold ValueType.parse <;> simp only [h]

theorem parse_of_overflow (h : readInteger (Text.trim raw) = .error .overflow) :
    t.parse raw = .error (.outOfTypeRange t (Text.trim raw)) := by
  rcases ht with rfl | rfl | rfl <;> unfold ValueType.parse <;> simp only [h]

theorem parse_of_not_holds {n : Int} (h : readInteger (Text.trim raw) = .ok n)
    (hn : t.holds n = false) : t.parse raw = .error (.outOfTypeRange t (Text.trim raw)) := by
  rcases ht with rfl | rfl | rfl <;> unfold ValueType.parse <;>
    simp only [h, hn, Bool.false_eq_true, if_false]

/-- An integer in range is read as a value of the type that holds it. -/
theorem parse_of_holds {n : Int} (h : readInteger (Text.trim raw) = .ok n)
    (hn : t.holds n = true) :
    ∃ w : Value, t.parse raw = .ok w ∧ w.type = t ∧ w.integer = some n := by
  rcases ht with rfl | rfl | rfl
  · refine ⟨.uint8 (UInt8.ofNat n.toNat), ?_, rfl, integer_uint8 hn⟩
    unfold ValueType.parse
    simp only [h, hn, if_true]
  · refine ⟨.int32 (Int32.ofInt n), ?_, rfl, integer_int32 hn⟩
    unfold ValueType.parse
    simp only [h, hn, if_true]
  · refine ⟨.uint32 (UInt32.ofNat n.toNat), ?_, rfl, integer_uint32 hn⟩
    unfold ValueType.parse
    simp only [h, hn, if_true]

end Integer

/-- An integer in range lies within the largest 128-bit integer. -/
theorem natAbs_le_of_holds {t : ValueType} {n : Int} (hn : t.holds n = true) :
    n.natAbs ≤ intMax := by
  have hmax : 4294967296 ≤ intMax := by decide
  cases t <;> simp [ValueType.holds] at hn <;> omega

/-! ## Reading float arguments -/

/-- Signs are dropped from the front of a text up to what follows them. -/
theorem dropWhile_sign (sign : NumberSign) {cs : List Char} (h : NotSign cs) :
    (sign.chars ++ cs).dropWhile (fun c => decide (c = '+' ∨ c = '-')) = cs := by
  have hcs : cs.dropWhile (fun c => decide (c = '+' ∨ c = '-')) = cs := by
    rcases cs with _ | ⟨c, rest⟩
    · rfl
    · obtain ⟨hplus, hminus⟩ := h c rfl
      simp [hplus, hminus]
  cases sign <;> simpa [NumberSign.chars] using hcs

/-- A literal text spells an infinity exactly when it is an infinite literal. -/
theorem spellsInfinity_iff {s : String} {lit : Literal} (h : FloatLiteral s.toList lit) :
    ValueType.spellsInfinity s = true ↔ ∃ neg, lit = .infinite neg := by
  simp only [ValueType.spellsInfinity, beq_iff_eq]
  generalize hcs : s.toList = cs at h
  cases h with
  | @infinity sign word hword =>
    have hnot : NotSign word := by
      rcases hword with hword | hword <;> exact notSign_of_toLower hword (.inl rfl)
    rw [dropWhile_sign sign hnot]
    rcases hword with hword | hword <;> simp [hword]
  | @nan sign word hword =>
    rw [dropWhile_sign sign (notSign_of_toLower hword (.inr rfl)), hword]
    simp
  | @number sign m ds x places exp hm hx =>
    obtain ⟨c, rest, rfl, hc⟩ := hm.head
    obtain ⟨hnot, hlow, -⟩ := digitOrPoint_not_word_start hc (rest ++ x)
    have hnot : NotSign (c :: rest ++ x) := hnot
    rw [dropWhile_sign sign hnot]
    simp [hlow]

/-- The single-precision encodings of an infinity and of a NaN unpack as such. -/
theorem unpack_infinity (neg : Bool) :
    Binary.Format.single.unpack (Binary.Format.single.infinity neg) = .infinite neg := by
  cases neg <;> decide

theorem unpack_quietNaN (neg : Bool) :
    Binary.Format.single.unpack (Binary.Format.single.quietNaN neg) = .nan := by
  cases neg <;> decide

section Float

variable {t : ValueType} (ht : t.IsFloat)
include ht

/-- The value the reader builds for a float type holds the encoding it is given. -/
theorem floatValue_spec (w : UInt32) :
    (if t = .float then Value.float w else .radians w).type = t ∧
      (if t = .float then Value.float w else .radians w).encoding = some w := by
  rcases ht with rfl | rfl <;> exact ⟨rfl, rfl⟩

variable (raw : String)

theorem parse_of_read_none (h : Literal.read (Text.trim raw) = none) :
    t.parse raw = .error (.invalidValue t (Text.trim raw)) := by
  rcases ht with rfl | rfl <;> unfold ValueType.parse <;>
    simp only [Binary.Format.readText, h, Option.map_none]

/-- A literal is read as its rounding to single precision, unless it is finite and rounds to an
infinity. -/
theorem parse_of_read_some {lit : Literal} (h : Literal.read (Text.trim raw) = some lit) :
    t.parse raw = if lit.roundsToInfinity then .error (.outOfTypeRange t (Text.trim raw))
      else .ok (if t = .float then .float (UInt32.ofNat (Binary.Format.single.ofLiteral lit))
        else .radians (UInt32.ofNat (Binary.Format.single.ofLiteral lit))) := by
  have hspell := spellsInfinity_iff (Literal.read_eq_some_iff.1 h)
  rcases ht with rfl | rfl <;>
  · unfold ValueType.parse
    simp only [Binary.Format.readText, h, Option.map_some]
    rcases lit with neg | neg | ⟨neg, d⟩
    · -- a NaN is no infinity
      rw [Binary.Format.ofLiteral, unpack_quietNaN]
      rfl
    · -- an infinite literal spells an infinity
      have hs : ValueType.spellsInfinity (Text.trim raw) = true := hspell.2 ⟨neg, rfl⟩
      rw [Binary.Format.ofLiteral, unpack_infinity, hs]
      rfl
    · -- a finite literal never spells an infinity, so only its rounding decides
      have hs : ValueType.spellsInfinity (Text.trim raw) = false := by
        rw [Bool.eq_false_iff]
        intro hs
        obtain ⟨_, hinf⟩ := hspell.1 hs
        cases hinf
      rw [Binary.Format.ofLiteral, hs, Literal.roundsToInfinity]
      rcases Binary.Format.single.unpack (Binary.Format.single.roundDecimal neg d.coefficient
        d.exponent) with _ | neg' | ⟨neg', m, e⟩ <;> rfl

end Float

/-! ## The reading rules -/

/-- What an argument text, already trimmed, is read as for an element type. -/
inductive ReadsAs (t : ValueType) (s : String) : Except Error Value → Prop
  | text : t = .char → ReadsAs t s (.error .charWrite)
  | integer {n : Int} {v : Value} : t.IsInteger → IntegerLiteral s.toList n →
      t.holds n = true → v.type = t → v.integer = some n → ReadsAs t s (.ok v)
  | integerOutOfRange {n : Int} : t.IsInteger → IntegerLiteral s.toList n →
      t.holds n = false → ReadsAs t s (.error (.outOfTypeRange t s))
  | digitsOverflow : t.IsInteger → DigitsOverflow s.toList →
      ReadsAs t s (.error (.outOfTypeRange t s))
  | integerInvalid : t.IsInteger → (∀ n, ¬ IntegerLiteral s.toList n) →
      ¬ DigitsOverflow s.toList → ReadsAs t s (.error (.invalidValue t s))
  | float {lit : Literal} {v : Value} : t.IsFloat → FloatLiteral s.toList lit →
      lit.roundsToInfinity = false → v.type = t →
      v.encoding = some (UInt32.ofNat (Binary.Format.single.ofLiteral lit)) → ReadsAs t s (.ok v)
  | floatOutOfRange {lit : Literal} : t.IsFloat → FloatLiteral s.toList lit →
      lit.roundsToInfinity = true → ReadsAs t s (.error (.outOfTypeRange t s))
  | floatInvalid : t.IsFloat → (∀ lit, ¬ FloatLiteral s.toList lit) →
      ReadsAs t s (.error (.invalidValue t s))

theorem readsAs_parse_of_isInteger {t : ValueType} (ht : t.IsInteger) (raw : String) :
    ReadsAs t (Text.trim raw) (t.parse raw) := by
  rcases hread : readInteger (Text.trim raw) with e | n
  · cases e with
    | invalid =>
      obtain ⟨hnone, hnov⟩ := (readInteger_eq_invalid_iff _).1 hread
      rw [parse_of_invalid ht raw hread]
      exact .integerInvalid ht hnone hnov
    | overflow =>
      rw [parse_of_overflow ht raw hread]
      exact .digitsOverflow ht ((readInteger_eq_overflow_iff _).1 hread)
  · have hlit := ((readInteger_eq_ok_iff _ n).1 hread).1
    cases hn : t.holds n with
    | false =>
      rw [parse_of_not_holds ht raw hread hn]
      exact .integerOutOfRange ht hlit hn
    | true =>
      obtain ⟨w, hparse, hwt, hwi⟩ := parse_of_holds ht raw hread hn
      rw [hparse]
      exact .integer ht hlit hn hwt hwi

theorem readsAs_parse_of_isFloat {t : ValueType} (ht : t.IsFloat) (raw : String) :
    ReadsAs t (Text.trim raw) (t.parse raw) := by
  rcases hread : Literal.read (Text.trim raw) with _ | lit
  · rw [parse_of_read_none ht raw hread]
    refine .floatInvalid ht fun lit hlit => ?_
    rw [← Literal.read_eq_some_iff, hread] at hlit
    cases hlit
  · have hlit := Literal.read_eq_some_iff.1 hread
    rw [parse_of_read_some ht raw hread]
    cases hround : lit.roundsToInfinity with
    | true => exact .floatOutOfRange ht hlit hround
    | false =>
      obtain ⟨hvt, hve⟩ := floatValue_spec ht (UInt32.ofNat (Binary.Format.single.ofLiteral lit))
      exact .float ht hlit hround hvt hve

/-- The reader's result follows the rules. -/
theorem readsAs_parse (t : ValueType) (raw : String) : ReadsAs t (Text.trim raw) (t.parse raw) := by
  cases t with
  | char => exact .text rfl
  | uint8 => exact readsAs_parse_of_isInteger (.inl rfl) raw
  | int32 => exact readsAs_parse_of_isInteger (.inr (.inl rfl)) raw
  | uint32 => exact readsAs_parse_of_isInteger (.inr (.inr rfl)) raw
  | float => exact readsAs_parse_of_isFloat (.inl rfl) raw
  | radians => exact readsAs_parse_of_isFloat (.inr rfl) raw

/-- What the rules allow is what the reader gives. -/
theorem parse_of_readsAs {t : ValueType} {raw : String} {r : Except Error Value}
    (h : ReadsAs t (Text.trim raw) r) : t.parse raw = r := by
  cases h with
  | text ht =>
    subst ht
    rfl
  | @integer n v ht hlit hn hvt hvi =>
    have hread := (readInteger_eq_ok_iff _ n).2 ⟨hlit, natAbs_le_of_holds hn⟩
    obtain ⟨w, hparse, hwt, hwi⟩ := parse_of_holds ht raw hread hn
    rw [hparse, Value.eq_of_integer (hwt.trans hvt.symm) (hwi.trans hvi.symm) (by simp [hwi])]
  | @integerOutOfRange n ht hlit hn =>
    have hread := readInteger_of_literal hlit
    split_ifs at hread
    · exact parse_of_overflow ht raw hread
    · exact parse_of_not_holds ht raw hread hn
  | digitsOverflow ht hov =>
    exact parse_of_overflow ht raw (readInteger_of_digitsOverflow hov)
  | integerInvalid ht hnone hnov =>
    exact parse_of_invalid ht raw ((readInteger_eq_invalid_iff _).2 ⟨hnone, hnov⟩)
  | @float lit v ht hlit hround hvt hve =>
    rw [parse_of_read_some ht raw (Literal.read_eq_some_iff.2 hlit), hround, if_neg
      Bool.false_ne_true, Except.ok.injEq]
    obtain ⟨hwt, hwe⟩ := floatValue_spec ht (UInt32.ofNat (Binary.Format.single.ofLiteral lit))
    exact Value.eq_of_encoding (hwt.trans hvt.symm) (hwe.trans hve.symm) (by simp [hwe])
  | @floatOutOfRange lit ht hlit hround =>
    rw [parse_of_read_some ht raw (Literal.read_eq_some_iff.2 hlit), hround, if_pos rfl]
  | floatInvalid ht hnone =>
    refine parse_of_read_none ht raw ?_
    rcases hread : Literal.read (Text.trim raw) with _ | lit
    · rfl
    · exact absurd (Literal.read_eq_some_iff.1 hread) (hnone lit)

/-- Reading an argument as a value of a type gives exactly what the reading rules give for the
trimmed text: text commands take no arguments; an integer literal is its value when the type
holds it and out of range otherwise, and so is any text whose leading digits pass the largest
128-bit integer; a float literal is its rounding to single precision unless it is finite and
rounds to an infinity, when it is out of range; any other text is invalid. -/
theorem parse_eq_iff_readsAs (t : ValueType) (raw : String) (r : Except Error Value) :
    t.parse raw = r ↔ ReadsAs t (Text.trim raw) r := by
  constructor
  · rintro rfl
    exact readsAs_parse t raw
  · exact parse_of_readsAs

/-- Forty nines and a letter are no integer literal, yet they are read as out of range: the
digits pass the largest 128-bit integer before the letter is reached. -/
theorem forty_nines_then_letter_out_of_range :
    (∀ n, ¬ IntegerLiteral "9999999999999999999999999999999999999999x".toList n) ∧
      ValueType.uint8.parse "9999999999999999999999999999999999999999x" =
        .error (.outOfTypeRange .uint8 "9999999999999999999999999999999999999999x") := by
  refine ⟨fun n h => ?_, by decide +kernel⟩
  have hx := h.getLast_isHexDigit 'x' (by decide +kernel)
  exact absurd hx (by decide)

end VoiceBench.Control
