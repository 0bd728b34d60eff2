import Mathlib
import VoiceBench.Decimal.Read
import VoiceBench.Proofs.Codegen.Values

/-!
# The grammar of number literals

A floating-point literal is an optional sign, then the word `inf`, `infinity` or `nan` in any
ASCII case, or a mantissa of decimal digits with at most one point and at least one digit,
followed by an optional exponent part: `e` or `E`, an optional sign and at least one digit.
`FloatLiteral` states this grammar and what each literal denotes, without reference to the
reader; `Literal.read` accepts exactly these texts and returns exactly what they denote
(`Literal.read_eq_some_iff`).
-/

namespace VoiceBench

open Codegen (digitValue numeral numeral_append_singleton digitValue_of_isDigit isDigit_iff_toNat)

/-- How a number literal starts: with no sign, a plus or a minus. -/
inductive NumberSign where
  | none
  | plus
  | minus
  deriving DecidableEq

namespace NumberSign

/-- The characters of a sign. -/
def chars : NumberSign → List Char
  | none => []
  | plus => ['+']
  | minus => ['-']

/-- Whether a sign negates what follows it. -/
def neg : NumberSign → Bool
  | minus => true
  | _ => false

/-- A magnitude with a sign. -/
def apply (sign : NumberSign) (n : Nat) : Int := if sign.neg then -(n : Int) else n

end NumberSign

/-- A character that may stand after a sign: it is no sign itself. -/
def NotSign (cs : List Char) : Prop := ∀ c ∈ cs.head?, c ≠ '+' ∧ c ≠ '-'

theorem notSign_of_isDigit {c : Char} (h : c.isDigit = true) (cs : List Char) :
    NotSign (c :: cs) := by
  intro d hd
  obtain rfl : c = d := by simpa using hd
  constructor <;> rintro rfl <;> exact absurd h (by decide)

/-- Digits do not start with a sign. -/
theorem notSign_of_digits {ds : List Char} (hne : ds ≠ []) (hds : ∀ c ∈ ds, c.isDigit = true) :
    NotSign ds := by
  obtain ⟨d, ds', rfl⟩ := List.exists_cons_of_ne_nil hne
  exact notSign_of_isDigit (hds d (by simp)) ds'

/-- Characters below `A` are their own lowercase. -/
theorem toLower_of_lt {c : Char} (h : c.toNat < 65) : c.toLower = c := by
  rw [Char.toLower, dif_neg]
  rintro ⟨hA, -⟩
  have hc : c.val.toNat < 65 := h
  have hA' : 65 ≤ c.val.toNat := UInt32.le_iff_toNat_le.1 hA
  omega

namespace Literal

/-- Splitting a sign off gives a sign and the text it was written before. -/
theorem splitSign_spec (cs : List Char) :
    ∃ sign : NumberSign, cs = sign.chars ++ (splitSign cs).2 ∧ (splitSign cs).1 = sign.neg := by
  rcases cs with _ | ⟨c, rest⟩
  · exact ⟨.none, rfl, rfl⟩
  by_cases hminus : c = '-'
  · subst hminus
    exact ⟨.minus, rfl, rfl⟩
  by_cases hplus : c = '+'
  · subst hplus
    exact ⟨.plus, rfl, rfl⟩
  refine ⟨.none, ?_, ?_⟩ <;> simp [splitSign, hminus, hplus, NumberSign.chars, NumberSign.neg]

/-- A sign written before a text that does not start with a sign is split off again. -/
theorem splitSign_chars (sign : NumberSign) {cs : List Char} (h : NotSign cs) :
    splitSign (sign.chars ++ cs) = (sign.neg, cs) := by
  cases sign with
  | plus | minus => rfl
  | none =>
    rcases cs with _ | ⟨c, rest⟩
    · rfl
    · obtain ⟨hplus, hminus⟩ := h c rfl
      simp [splitSign, hplus, hminus, NumberSign.chars, NumberSign.neg]

/-- ASCII digits are read as the number they denote in base ten. -/
theorem digitsValue_eq_numeral {ds : List Char} (h : ∀ c ∈ ds, c.isDigit = true) :
    digitsValue ds = numeral 10 ds := by
  induction ds using List.reverseRecOn with
  | nil => rfl
  | append_singleton ds c ih =>
    have hc := digitValue_of_isDigit (h c (by simp))
    calc digitsValue (ds ++ [c]) = 10 * digitsValue ds + (c.toNat - 48) := by
          simp [digitsValue]
      _ = numeral 10 ds * 10 + digitValue c := by
          rw [ih fun d hd => h d (by simp [hd]), hc]
          ring
      _ = numeral 10 (ds ++ [c]) := (numeral_append_singleton 10 ds c).symm

end Literal

/-! ## Exponent parts -/

/-- The exponent part of a decimal literal and its value: nothing, or `e` or `E`, an optional
sign and at least one decimal digit. -/
inductive ExponentPart : List Char → Int → Prop
  | none : ExponentPart [] 0
  | mark (sign : NumberSign) {e : Char} {ds : List Char} : (e = 'e' ∨ e = 'E') → ds ≠ [] →
      (∀ c ∈ ds, c.isDigit = true) → ExponentPart (e :: (sign.chars ++ ds)) (sign.apply (numeral 10 ds))

/-- An exponent part starts with neither a digit nor a point. -/
theorem ExponentPart.head {x : List Char} {exp : Int} (hx : ExponentPart x exp) :
    ∀ c ∈ x.head?, c.isDigit = false ∧ c ≠ '.' := by
  cases hx with
  | none => simp
  | mark sign he =>
    intro c hc
    obtain rfl : _ = c := by simpa using hc
    rcases he with rfl | rfl <;> decide

namespace Literal

/-- The exponent reader accepts exactly the exponent parts, with their values. -/
theorem readExponent_eq_some_iff {x : List Char} {exp : Int} :
    readExponent x = some exp ↔ ExponentPart x exp := by
  constructor
  · intro h
    rcases x with _ | ⟨e, rest⟩
    · obtain rfl : (0 : Int) = exp := by simpa [readExponent] using h
      exact .none
    obtain ⟨sign, hrest, hneg⟩ := splitSign_spec rest
    rcases hsplit : splitSign rest with ⟨neg, ds⟩
    rw [hsplit] at hrest hneg
    simp only [readExponent, hsplit] at h
    by_cases he : e = 'e' ∨ e = 'E'
    · by_cases hds : ds ≠ [] ∧ ds.all Char.isDigit
      · -- the digits after the sign are all there is, and they are read in base ten
        rw [if_pos he, if_pos hds] at h
        obtain ⟨hne, hall⟩ := hds
        have hdig : ∀ c ∈ ds, c.isDigit = true := by simpa using hall
        obtain rfl := Option.some.inj h
        rw [hrest]
        have hval := ExponentPart.mark sign he hne hdig
        rwa [NumberSign.apply, ← hneg, ← digitsValue_eq_numeral hdig] at hval
      · rw [if_pos he, if_neg hds] at h
        cases h
    · rw [if_neg he] at h
      cases h
  · intro hx
    cases hx with
    | none => rfl
    | @mark sign e ds he hne hds =>
      have hsplit := splitSign_chars sign (notSign_of_digits hne hds)
      simpa [readExponent, he, hsplit, hne, digitsValue_eq_numeral hds, NumberSign.apply]
        using hds

end Literal

/-! ## Mantissas -/

/-- The mantissa of a decimal literal, the digits it holds and how many of them follow the
point: digits, or digits around a point with at least one digit in all. -/
inductive Mantissa : List Char → List Char → Nat → Prop
  | whole {ds : List Char} : ds ≠ [] → (∀ c ∈ ds, c.isDigit = true) → Mantissa ds ds 0
  | point {ws fs : List Char} : ws ++ fs ≠ [] → (∀ c ∈ ws, c.isDigit = true) →
      (∀ c ∈ fs, c.isDigit = true) → Mantissa (ws ++ '.' :: fs) (ws ++ fs) fs.length

/-- A mantissa starts with a digit or a point. -/
theorem Mantissa.head {m ds : List Char} {places : Nat} (hm : Mantissa m ds places) :
    ∃ c rest, m = c :: rest ∧ (c.isDigit = true ∨ c = '.') := by
  cases hm with
  | whole hne hds =>
    obtain ⟨c, rest, rfl⟩ := List.exists_cons_of_ne_nil hne
    exact ⟨c, rest, rfl, .inl (hds c (by simp))⟩
  | @point ws fs _ hws _ =>
    rcases ws with _ | ⟨c, rest⟩
    · exact ⟨'.', fs, rfl, .inr rfl⟩
    · exact ⟨c, rest ++ '.' :: fs, rfl, .inl (hws c (by simp))⟩

/-- A digit or a point is no sign, and it lowercases to no letter that starts a word. -/
theorem digitOrPoint_not_word_start {c : Char} (hc : c.isDigit = true ∨ c = '.')
    (tail : List Char) : NotSign (c :: tail) ∧ c.toLower ≠ 'i' ∧ c.toLower ≠ 'n' := by
  rcases hc with hc | rfl
  · refine ⟨notSign_of_isDigit hc tail, ?_⟩
    rw [toLower_of_lt (by rw [isDigit_iff_toNat] at hc; omega)]
    constructor <;> rintro rfl <;> exact absurd hc (by decide)
  · refine ⟨fun d hd => ?_, by decide⟩
    obtain rfl : '.' = d := by simpa using hd
    decide

/-- The digits of a text up to the first character that is no digit. -/
theorem takeWhile_digits {ds rest : List Char} (hds : ∀ c ∈ ds, c.isDigit = true)
    (hrest : ∀ c ∈ rest.head?, c.isDigit = false) :
    (ds ++ rest).takeWhile Char.isDigit = ds ∧ (ds ++ rest).dropWhile Char.isDigit = rest := by
  rw [List.takeWhile_append_of_pos hds, List.dropWhile_append_of_pos hds]
  rcases rest with _ | ⟨c, rest⟩
  · simp
  · have hc : c.isDigit = false := hrest c rfl
    simp [hc]

namespace Literal

/-- A mantissa and an exponent part are read as the decimal they denote. -/
theorem readDecimal_of_mantissa {m ds x : List Char} {places : Nat} {exp : Int}
    (hm : Mantissa m ds places) (hx : ExponentPart x exp) :
    readDecimal (m ++ x) = some ⟨numeral 10 ds, exp - places⟩ := by
  have hxhead := hx.head
  have hxdig : ∀ c ∈ x.head?, c.isDigit = false := fun c hc => (hxhead c hc).1
  cases hm with
  | whole hne hds =>
    obtain ⟨htake, hdrop⟩ := takeWhile_digits hds hxdig
    have hempty : m.isEmpty = false := List.isEmpty_eq_false_iff.2 hne
    simp only [readDecimal, htake, hdrop]
    rcases x with _ | ⟨e, x⟩
    · simp [hempty, readExponent_eq_some_iff.2 hx, digitsValue_eq_numeral hds]
    · have he : e ≠ '.' := (hxhead e rfl).2
      simp [hempty, he, readExponent_eq_some_iff.2 hx, digitsValue_eq_numeral hds]
  | @point ws fs hne hws hfs =>
    have hpoint : ∀ c ∈ ('.' :: fs ++ x).head?, c.isDigit = false := by simp
    obtain ⟨htake, hdrop⟩ := takeWhile_digits hws hpoint
    obtain ⟨hfrac, hrest⟩ := takeWhile_digits hfs hxdig
    have hall : ∀ c ∈ ws ++ fs, c.isDigit = true := by
      simpa [or_imp, forall_and] using And.intro hws hfs
    have hempty : ¬ (ws.isEmpty = true ∧ fs.isEmpty = true) := by simpa using hne
    simp only [List.append_assoc, List.cons_append] at htake hdrop ⊢
    simp only [readDecimal, htake, hdrop, hfrac, hrest, hempty, if_false,
      readExponent_eq_some_iff.2 hx, Option.map_some, digitsValue_eq_numeral hall]

/-- What the decimal reader accepts is a mantissa followed by an exponent part. -/
theorem readDecimal_eq_some {cs : List Char} {d : Decimal} (h : readDecimal cs = some d) :
    ∃ m ds places x exp, cs = m ++ x ∧ Mantissa m ds places ∧ ExponentPart x exp ∧
      d = ⟨numeral 10 ds, exp - places⟩ := by
  have hcs := (List.takeWhile_append_dropWhile (p := Char.isDigit) (l := cs)).symm
  have hwhole : ∀ c ∈ cs.takeWhile Char.isDigit, c.isDigit = true :=
    fun c hc => List.mem_takeWhile_imp hc
  simp only [readDecimal] at h
  split at h
  · -- digits, a point and more digits
    next more hrest =>
    have hfrac : ∀ c ∈ more.takeWhile Char.isDigit, c.isDigit = true :=
      fun c hc => List.mem_takeWhile_imp hc
    dsimp only at h
    split_ifs at h with hempty
    obtain ⟨exp, hexp, rfl⟩ := Option.map_eq_some_iff.1 h
    refine ⟨cs.takeWhile Char.isDigit ++ '.' :: more.takeWhile Char.isDigit,
      cs.takeWhile Char.isDigit ++ more.takeWhile Char.isDigit,
      (more.takeWhile Char.isDigit).length, more.dropWhile Char.isDigit, exp, ?_,
      .point (by simpa using hempty) hwhole hfrac, readExponent_eq_some_iff.1 hexp, ?_⟩
    · calc cs = cs.takeWhile Char.isDigit ++ cs.dropWhile Char.isDigit := hcs
        _ = _ := by simp [hrest]
    · rw [digitsValue_eq_numeral (by simpa [or_imp, forall_and] using And.intro hwhole hfrac)]
  · -- digits and no point
    split_ifs at h with hempty
    obtain ⟨exp, hexp, rfl⟩ := Option.map_eq_some_iff.1 h
    have hne : cs.takeWhile Char.isDigit ≠ [] := by simpa using hempty
    refine ⟨_, _, 0, _, exp, hcs, .whole hne hwhole, readExponent_eq_some_iff.1 hexp, ?_⟩
    simp [digitsValue_eq_numeral hwhole]

end Literal

/-! ## Literals -/

/-- The floating-point literals and what they denote: an optional sign, then `inf`, `infinity`
or `nan` in any ASCII case, or a mantissa and an exponent part. -/
inductive FloatLiteral : List Char → Literal → Prop
  | infinity (sign : NumberSign) {word : List Char} :
      (word.map Char.toLower = ['i', 'n', 'f'] ∨
        word.map Char.toLower = ['i', 'n', 'f', 'i', 'n', 'i', 't', 'y']) →
      FloatLiteral (sign.chars ++ word) (.infinite sign.neg)
  | nan (sign : NumberSign) {word : List Char} : word.map Char.toLower = ['n', 'a', 'n'] →
      FloatLiteral (sign.chars ++ word) (.nan sign.neg)
  | number (sign : NumberSign) {m ds x : List Char} {places : Nat} {exp : Int} :
      Mantissa m ds places → ExponentPart x exp →
      FloatLiteral (sign.chars ++ (m ++ x)) (.finite sign.neg ⟨numeral 10 ds, exp - places⟩)

/-- A word that lowercases to a word starting with a letter does not start with a sign. -/
theorem notSign_of_toLower {word : List Char} {c : Char} {rest : List Char}
    (h : word.map Char.toLower = c :: rest) (hc : c = 'i' ∨ c = 'n') : NotSign word := by
  rcases word with _ | ⟨d, word⟩
  · simp at h
  · intro d' hd'
    obtain rfl : d = d' := by simpa using hd'
    have hd : d.toLower = c := (List.cons.inj h).1
    constructor <;> rintro rfl <;> rcases hc with rfl | rfl <;> exact absurd hd (by decide)

/-- A text whose lowercase starts otherwise than a word is not that word. -/
theorem ofList_toLower_ne {c : Char} {cs : List Char} {w : String} {d : Char}
    (hw : w.toList.head? = some d) (hc : c.toLower ≠ d) :
    String.ofList ((c :: cs).map Char.toLower) ≠ w := by
  rintro rfl
  simp only [String.toList_ofList, List.map_cons, List.head?_cons, Option.some.injEq] at hw
  exact hc hw

namespace Literal

/-- The reader accepts exactly the literals of the grammar, with what they denote. -/
theorem read_eq_some_iff {s : String} {lit : Literal} :
    read s = some lit ↔ FloatLiteral s.toList lit := by
  constructor
  · intro h
    obtain ⟨sign, hs, hneg⟩ := splitSign_spec s.toList
    simp only [read] at h
    rw [hs]
    split_ifs at h with hinf hnan
    · obtain rfl := Option.some.inj h
      rw [hneg]
      refine .infinity sign ?_
      rcases hinf with hinf | hinf
      · exact .inl (by simpa using congrArg String.toList hinf)
      · exact .inr (by simpa using congrArg String.toList hinf)
    · obtain rfl := Option.some.inj h
      rw [hneg]
      exact .nan sign (by simpa using congrArg String.toList hnan)
    · obtain ⟨d, hd, rfl⟩ := Option.map_eq_some_iff.1 h
      obtain ⟨m, ds, places, x, exp, hbody, hm, hx, rfl⟩ := readDecimal_eq_some hd
      rw [hbody, hneg]
      exact .number sign hm hx
  · intro h
    -- the text splits where the grammar splits it, since no body starts with a sign
    generalize hcs : s.toList = cs at h
    cases h with
    | @infinity sign word hword =>
      have hnot : NotSign word := by
        rcases hword with hword | hword <;> exact notSign_of_toLower hword (.inl rfl)
      have hinf : String.ofList (word.map Char.toLower) = "inf" ∨
          String.ofList (word.map Char.toLower) = "infinity" := by
        rcases hword with hword | hword <;> simp [hword]
      simp [read, hcs, splitSign_chars sign hnot, hinf]
    | @nan sign word hword =>
      have hnot := notSign_of_toLower hword (.inr rfl)
      simp [read, hcs, splitSign_chars sign hnot, hword]
    | @number sign m ds x places exp hm hx =>
      obtain ⟨c, rest, rfl, hc⟩ := hm.head
      obtain ⟨hnot, hi, hn⟩ := digitOrPoint_not_word_start hc (rest ++ x)
      have hnot : NotSign (c :: rest ++ x) := hnot
      have hinf : ¬ (String.ofList ((c :: rest ++ x).map Char.toLower) = "inf" ∨
          String.ofList ((c :: rest ++ x).map Char.toLower) = "infinity") := by
        rintro (h | h) <;> exact ofList_toLower_ne (by simp) hi h
      have hnan : String.ofList ((c :: rest ++ x).map Char.toLower) ≠ "nan" :=
        ofList_toLower_ne (by simp) hn
      have hdec := readDecimal_of_mantissa hm hx
      simp only [read, hcs, splitSign_chars sign hnot]
      rw [if_neg hinf, if_neg hnan, hdec]
      rfl

end Literal

end VoiceBench
