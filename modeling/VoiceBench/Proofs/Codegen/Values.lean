import Mathlib
import VoiceBench.Codegen.Enum

/-!
# The values of enumerators

The forms an enumerator's value takes in a header, as a grammar over characters, and the value
each form denotes (`ValueForm`): a constant, decimal or `0x` hexadecimal, with integer suffix
letters after its digits; the name of an enumerator declared before it; a minus sign before a
value. Blanks may stand around each of these and one pair of parentheses around it
(`Enclosed`). An item of a block declares a name, with such a value or with none, in which case
it takes the value after the last one (`ItemForm`).

Every text of these forms is read as the form says (`valueOf?_of_valueForm`,
`parseEntry_of_itemForm`). Decimal digits are read in base ten, after a leading zero too: the
library has no octal constants.
-/

namespace VoiceBench.Codegen

open Text

/-! ## Blanks -/

/-- Characters that are all blanks. -/
def Blanks (cs : List Char) : Prop := ∀ c ∈ cs, isBlank c = true

-- decided through `List.all`, so that only the characters of the list are looked at
instance (cs : List Char) : Decidable (Blanks cs) :=
  decidable_of_iff (cs.all isBlank = true) (by simp [Blanks])

/-- A printable ASCII character other than the space is no blank. -/
theorem isBlank_of_printable {c : Char} (h₁ : 32 < c.toNat) (h₂ : c.toNat < 127) :
    isBlank c = false := by
  simp only [isBlank]
  simp
  omega

/-- Blanks after a text do not change what `trim` keeps. -/
theorem trim_append_blanks {b : List Char} (hb : Blanks b) (cs : List Char) :
    trim (String.ofList (cs ++ b)) = trim (String.ofList cs) := by
  simp only [trim, dropBlanks, String.toList_ofList, List.dropWhile_append]
  split
  · next h =>
    rw [List.isEmpty_iff.1 h, List.dropWhile_eq_nil_iff.2 hb]
  · have hrev : ∀ c ∈ b.reverse, isBlank c = true := fun c hc => hb c (List.mem_reverse.1 hc)
    rw [List.reverse_append, List.dropWhile_append_of_pos hrev]

/-- Blanks around a text do not change what `trim` keeps. -/
theorem trim_blanks_around {b b' : List Char} (hb : Blanks b) (hb' : Blanks b') (cs : List Char) :
    trim (String.ofList (b ++ cs ++ b')) = trim (String.ofList cs) := by
  rw [trim_append_blanks hb']
  simp only [trim, dropBlanks, String.toList_ofList, List.dropWhile_append_of_pos hb]

/-- A text that starts with a character other than a blank loses only its trailing blanks. -/
theorem trim_cons {c : Char} (hc : isBlank c = false) (cs : List Char) :
    trim (String.ofList (c :: cs)) = String.ofList (c :: cs.rdropWhile isBlank) := by
  have hkeep : ¬ isBlank c = true := by simp [hc]
  simp only [trim, dropBlanks, List.rdropWhile, String.toList_ofList,
    List.dropWhile_cons_of_neg hkeep, List.reverse_cons, List.dropWhile_append]
  split
  · next h => simp [List.isEmpty_iff.1 h]
  · simp

/-- A text and the text without its trailing blanks have one trim. -/
theorem trim_rdropWhile (cs : List Char) :
    trim (String.ofList (cs.rdropWhile isBlank)) = trim (String.ofList cs) := by
  have htail : Blanks (cs.rtakeWhile isBlank) := fun _ hc => List.mem_rtakeWhile_imp hc
  conv => rhs; rw [← List.rdropWhile_append_rtakeWhile (p := isBlank) (l := cs)]
  exact (trim_append_blanks htail _).symm

/-- Characters none of which is a blank. -/
def Solid (cs : List Char) : Prop := ∀ c ∈ cs, isBlank c = false

theorem dropBlanks_of_solid {cs : List Char} (h : Solid cs) : dropBlanks cs = cs := by
  cases cs with
  | nil => rfl
  | cons c cs => exact List.dropWhile_cons_of_neg (by simp [h c (by simp)])

/-- A text without blanks is its own trim. -/
theorem trim_of_solid {cs : List Char} (h : Solid cs) : trim (String.ofList cs) = String.ofList cs := by
  have hrev : Solid cs.reverse := fun c hc => h c (List.mem_reverse.1 hc)
  simp [trim, dropBlanks_of_solid h, dropBlanks_of_solid hrev]

/-- Trimming a trimmed text changes nothing. -/
theorem trim_trim (s : String) : trim (trim s) = trim s := by
  have htrim : ∀ s : String,
      trim s = String.ofList ((s.toList.dropWhile isBlank).rdropWhile isBlank) := fun _ => rfl
  have hkeep : ∀ X : List Char, (X.dropWhile isBlank).rdropWhile isBlank =
      ((X.dropWhile isBlank).rdropWhile isBlank).dropWhile isBlank := by
    intro X
    rcases hY : (X.dropWhile isBlank).rdropWhile isBlank with _ | ⟨c, r⟩
    · rfl
    · obtain ⟨t, ht⟩ := hY ▸ List.rdropWhile_prefix isBlank (X.dropWhile isBlank)
      have hhead := List.head?_dropWhile_not isBlank X
      rw [← ht] at hhead
      exact (List.dropWhile_cons_of_neg (by simpa using hhead)).symm
  rw [htrim (trim s), htrim s, String.toList_ofList, ← hkeep, List.rdropWhile_idempotent]

/-- `trim` keeps every character that is no blank. -/
theorem count_trim {c : Char} (hc : isBlank c = false) (s : String) :
    (trim s).toList.count c = s.toList.count c := by
  have hnone : ∀ l : List Char, Blanks l → l.count c = 0 := fun l hl =>
    List.count_eq_zero.2 fun h => by simp [hl c h] at hc
  have hfront := List.takeWhile_append_dropWhile (p := isBlank) (l := s.toList)
  have hback := List.rdropWhile_append_rtakeWhile (p := isBlank) (l := s.toList.dropWhile isBlank)
  have hcount := congrArg (List.count c) hfront
  rw [← hback] at hcount
  simp only [List.count_append, hnone _ fun _ h => List.mem_takeWhile_imp h,
    hnone _ fun _ h => List.mem_rtakeWhile_imp h] at hcount
  simpa [trim, dropBlanks, List.rdropWhile] using hcount

/-! ## Prefixes and suffixes -/

theorem dropPrefix?_of_toList {s pre : String} (rest : List Char)
    (h : s.toList = pre.toList ++ rest) : dropPrefix? s pre = some (String.ofList rest) := by
  have hp : s.startsWith pre = true := by
    rw [String.startsWith_string_iff, h]
    exact List.prefix_append _ _
  simp [dropPrefix?, hp, h, ← String.length_toList]

theorem dropPrefix?_eq_none {s pre : String} (h : ¬ pre.toList <+: s.toList) :
    dropPrefix? s pre = none := by
  have hp : s.startsWith pre = false := String.startsWith_string_eq_false_iff.2 h
  simp [dropPrefix?, hp]

theorem dropSuffix?_of_toList {s suf : String} (rest : List Char)
    (h : s.toList = rest ++ suf.toList) : dropSuffix? s suf = some (String.ofList rest) := by
  have hs : s.endsWith suf = true := by
    simp [← String.endsWith_toSlice, h]
  simp [dropSuffix?, hs, h, ← String.length_toList]

/-! ## Constants -/

/-- A hexadecimal digit: a decimal digit, or a letter from `a` to `f` in either case. -/
def IsHexDigit (c : Char) : Prop := c.isDigit ∨ ('a' ≤ c ∧ c ≤ 'f') ∨ ('A' ≤ c ∧ c ≤ 'F')

instance (c : Char) : Decidable (IsHexDigit c) :=
  inferInstanceAs (Decidable (c.isDigit ∨ ('a' ≤ c ∧ c ≤ 'f') ∨ ('A' ≤ c ∧ c ≤ 'F')))

/-- The value of a hexadecimal digit. -/
def digitValue (c : Char) : Nat :=
  if c.isDigit then c.toNat - '0'.toNat
  else if 'a' ≤ c ∧ c ≤ 'f' then c.toNat - 'a'.toNat + 10
  else c.toNat - 'A'.toNat + 10

/-- The number that digits denote in a radix, most significant first. -/
def numeral (radix : Nat) (ds : List Char) : Nat := Nat.ofDigits radix (ds.reverse.map digitValue)

theorem numeral_append_singleton (radix : Nat) (ds : List Char) (c : Char) :
    numeral radix (ds ++ [c]) = numeral radix ds * radix + digitValue c := by
  simp only [numeral, List.reverse_append, List.reverse_singleton, List.singleton_append,
    List.map_cons, Nat.ofDigits_cons]
  ring

/-- One more digit of a radix: the value read so far is shifted by one place. -/
theorem digitsValue?_append_singleton (radix : Nat) (ds : List Char) {c : Char}
    (hc : IsHexDigit c) (hr : digitValue c < radix) :
    digitsValue? radix (ds ++ [c]) = (digitsValue? radix ds).map (· * radix + digitValue c) := by
  rcases hfold : digitsValue? radix ds with _ | acc
  · simp only [digitsValue?, List.foldlM_append] at hfold ⊢
    rw [hfold]
    rfl
  · simp only [digitsValue?, List.foldlM_append] at hfold ⊢
    rw [hfold]
    simp only [Option.bind_eq_bind, Option.bind_some, List.foldlM_cons, List.foldlM_nil]
    rcases hc with hdig | ⟨ha, hf⟩ | ⟨hA, hF⟩
    · simpa [hdig, digitValue, pure] using hr
    · have hdig : c.isDigit = false := by
        simp [Char.isDigit, Char.le_def, UInt32.le_iff_toNat_le] at ha hf ⊢
        omega
      have hz : c ≤ 'z' := by
        simp [Char.le_def, UInt32.le_iff_toNat_le] at hf ⊢
        omega
      simpa [hdig, ha, hz, hf, digitValue, pure] using hr
    · have hdig : c.isDigit = false := by
        simp [Char.isDigit, Char.le_def, UInt32.le_iff_toNat_le] at hA hF ⊢
        omega
      have ha : ¬ 'a' ≤ c := by
        simp [Char.le_def, UInt32.le_iff_toNat_le] at hF ⊢
        omega
      have hZ : c ≤ 'Z' := by
        simp [Char.le_def, UInt32.le_iff_toNat_le] at hF ⊢
        omega
      simpa [hdig, ha, hA, hZ, digitValue, pure] using hr

/-- Digits of a radix are read as the number they denote. -/
theorem digitsValue?_eq_numeral (radix : Nat) {ds : List Char}
    (h : ∀ c ∈ ds, IsHexDigit c ∧ digitValue c < radix) :
    digitsValue? radix ds = some (numeral radix ds) := by
  induction ds using List.reverseRecOn with
  | nil => rfl
  | append_singleton ds c ih =>
    have hc := h c (by simp)
    rw [digitsValue?_append_singleton radix ds hc.1 hc.2, ih fun d hd => h d (by simp [hd]),
      numeral_append_singleton]
    rfl

/-! ## Characters of constants and names -/

theorem isDigit_iff_toNat {c : Char} : c.isDigit = true ↔ 48 ≤ c.toNat ∧ c.toNat ≤ 57 := by
  simp [Char.isDigit, UInt32.le_iff_toNat_le]

theorem isHexDigit_iff_toNat {c : Char} :
    IsHexDigit c ↔ (48 ≤ c.toNat ∧ c.toNat ≤ 57) ∨ (97 ≤ c.toNat ∧ c.toNat ≤ 102) ∨
      (65 ≤ c.toNat ∧ c.toNat ≤ 70) := by
  simp [IsHexDigit, Char.isDigit, Char.le_def, UInt32.le_iff_toNat_le]

theorem isSuffixChar_iff_toNat {c : Char} :
    isSuffixChar c = true ↔ c.toNat = 117 ∨ c.toNat = 85 ∨ c.toNat = 108 ∨ c.toNat = 76 := by
  simp [isSuffixChar, ← Char.toNat_inj, or_assoc]

theorem isAlphanum_iff_toNat {c : Char} :
    c.isAlphanum = true ↔ (48 ≤ c.toNat ∧ c.toNat ≤ 57) ∨ (65 ≤ c.toNat ∧ c.toNat ≤ 90) ∨
      (97 ≤ c.toNat ∧ c.toNat ≤ 122) := by
  simp only [Char.isAlphanum, Char.isAlpha, Char.isUpper, Char.isLower, Char.isDigit,
    UInt32.le_iff_toNat_le]
  simp
  omega

theorem char_le_iff_toNat {c d : Char} : c ≤ d ↔ c.toNat ≤ d.toNat := by
  simp [Char.le_def, UInt32.le_iff_toNat_le]

theorem digitValue_of_isDigit {c : Char} (h : c.isDigit = true) : digitValue c = c.toNat - 48 := by
  rw [digitValue, if_pos h]
  rfl

theorem digitValue_of_lower {c : Char} (ha : 97 ≤ c.toNat) (hf : c.toNat ≤ 102) :
    digitValue c = c.toNat - 87 := by
  have hdig : c.isDigit = false := by
    rw [Bool.eq_false_iff, ne_eq, isDigit_iff_toNat]
    omega
  have hlow : 'a' ≤ c ∧ c ≤ 'f' := by
    simp only [char_le_iff_toNat]
    exact ⟨ha, hf⟩
  rw [digitValue, hdig, if_neg Bool.false_ne_true, if_pos hlow]
  simp only [Char.toNat]
  simp
  omega

theorem digitValue_of_upper {c : Char} (hA : 65 ≤ c.toNat) (hF : c.toNat ≤ 70) :
    digitValue c = c.toNat - 55 := by
  have hdig : c.isDigit = false := by
    rw [Bool.eq_false_iff, ne_eq, isDigit_iff_toNat]
    omega
  have hlow : ¬ ('a' ≤ c ∧ c ≤ 'f') := by
    simp only [char_le_iff_toNat]
    simp
    omega
  rw [digitValue, hdig, if_neg Bool.false_ne_true, if_neg hlow]
  simp
  omega

theorem decimal_digit {c : Char} (h : c.isDigit = true) : IsHexDigit c ∧ digitValue c < 10 := by
  refine ⟨.inl h, ?_⟩
  rw [digitValue_of_isDigit h]
  rw [isDigit_iff_toNat] at h
  omega

theorem hex_digit {c : Char} (h : IsHexDigit c) : IsHexDigit c ∧ digitValue c < 16 := by
  refine ⟨h, ?_⟩
  rcases isHexDigit_iff_toNat.1 h with h | h | h
  · rw [digitValue_of_isDigit (isDigit_iff_toNat.2 h)]
    omega
  · rw [digitValue_of_lower h.1 h.2]
    omega
  · rw [digitValue_of_upper h.1 h.2]
    omega

/-- Decimal digits below `2 ^ 63` are read as their number. -/
theorem readDecimal?_of_digits {ds : List Char} (hne : ds ≠ []) (hds : ∀ c ∈ ds, c.isDigit)
    (hmax : (numeral 10 ds : Int) ≤ int64Max) :
    readDecimal? (String.ofList ds) = some (numeral 10 ds) := by
  have hempty : (String.ofList ds).isEmpty = false := by simpa using hne
  simp [readDecimal?, hempty, digitsValue?_eq_numeral 10 fun c hc => decimal_digit (hds c hc),
    hmax]

/-- Hexadecimal digits below `2 ^ 63` are read as their number. -/
theorem readHex?_of_digits {ds : List Char} (hne : ds ≠ []) (hds : ∀ c ∈ ds, IsHexDigit c)
    (hmax : (numeral 16 ds : Int) ≤ int64Max) :
    readHex? (String.ofList ds) = some (numeral 16 ds) := by
  obtain ⟨c, cs, rfl⟩ := List.exists_cons_of_ne_nil hne
  have hc := isHexDigit_iff_toNat.1 (hds c (by simp))
  have hplus : c ≠ '+' := fun h => by subst h; simp at hc
  have hminus : c ≠ '-' := fun h => by subst h; simp at hc
  have hmin : int64Min ≤ (numeral 16 (c :: cs) : Int) :=
    le_trans (by decide) (Int.natCast_nonneg _)
  unfold readHex?
  simp only [String.toList_ofList]
  split
  · next rest h => exact absurd (List.cons.inj h).1 hplus
  · next rest h => exact absurd (List.cons.inj h).1 hminus
  · simp [digitsValue?_eq_numeral 16 fun d hd => hex_digit (hds d hd), hmin, hmax]

/-! ## Atoms: constants and names -/

/-- A constant or a name, and the value it denotes after the enumerators `prev`. -/
inductive Atom (prev : List Entry) : List Char → Int → Prop
  /-- Decimal digits, read in base ten after a leading zero too, then suffix letters. -/
  | decimal {ds sfx : List Char} : ds ≠ [] → (∀ c ∈ ds, c.isDigit) →
      (∀ c ∈ sfx, isSuffixChar c) → (numeral 10 ds : Int) ≤ int64Max →
      Atom prev (ds ++ sfx) (numeral 10 ds)
  /-- `0x` or `0X`, hexadecimal digits, then suffix letters. -/
  | hex {x : Char} {ds sfx : List Char} : (x = 'x' ∨ x = 'X') → ds ≠ [] →
      (∀ c ∈ ds, IsHexDigit c) → (∀ c ∈ sfx, isSuffixChar c) → (numeral 16 ds : Int) ≤ int64Max →
      Atom prev ('0' :: x :: ds ++ sfx) (numeral 16 ds)
  /-- The name of an enumerator declared before, the first of that name. -/
  | name {e : Entry} : isIdentifier e.name → prev.find? (·.name == e.name) = some e →
      (e.value : Int) ≤ int64Max → Atom prev e.name.toList e.value

/-- The characters of a name: ASCII letters, digits and underscores, a letter or an underscore
first. -/
theorem isIdentifier_chars {s : String} (h : isIdentifier s = true) :
    ∃ c cs, s.toList = c :: cs ∧ (c.isAlpha ∨ c = '_') ∧ ∀ d ∈ c :: cs, d.isAlphanum ∨ d = '_' := by
  unfold isIdentifier at h
  split at h
  · next c cs hs =>
    simp only [Bool.and_eq_true, Bool.or_eq_true, beq_iff_eq, List.all_eq_true] at h
    refine ⟨c, cs, hs, h.1, ?_⟩
    intro d hd
    rcases List.mem_cons.1 hd with rfl | hd
    · rcases h.1 with ha | hu
      · exact .inl (by simp [Char.isAlphanum, ha])
      · exact .inr hu
    · exact h.2 d hd
  · cases h

/-- Every character of a name is an ASCII digit, letter or underscore. -/
theorem isIdentifier_ranges {s : String} (h : isIdentifier s = true) :
    ∀ d ∈ s.toList, (48 ≤ d.toNat ∧ d.toNat ≤ 57) ∨ (65 ≤ d.toNat ∧ d.toNat ≤ 90) ∨
      (97 ≤ d.toNat ∧ d.toNat ≤ 122) ∨ d.toNat = 95 := by
  obtain ⟨c, cs, hs, _, hall⟩ := isIdentifier_chars h
  intro d hd
  rw [hs] at hd
  rcases hall d hd with h | rfl
  · have := isAlphanum_iff_toNat.1 h
    omega
  · decide

/-- Every character of a constant or a name is an ASCII letter, digit or underscore. -/
theorem Atom.chars {prev : List Entry} {a : List Char} {v : Int} (h : Atom prev a v) :
    ∀ c ∈ a, 48 ≤ c.toNat ∧ c.toNat ≤ 122 := by
  have hsuffix : ∀ {c : Char}, isSuffixChar c = true → 48 ≤ c.toNat ∧ c.toNat ≤ 122 := by
    intro c hc
    rw [isSuffixChar_iff_toNat] at hc
    omega
  cases h with
  | decimal _ hds hs =>
    intro c hc
    rcases List.mem_append.1 hc with hc | hc
    · have := isDigit_iff_toNat.1 (hds c hc)
      omega
    · exact hsuffix (hs c hc)
  | hex hx _ hds hs =>
    intro c hc
    simp only [List.cons_append, List.mem_cons, List.mem_append] at hc
    rcases hc with rfl | rfl | hc | hc
    · decide
    · rcases hx with rfl | rfl <;> decide
    · have := isHexDigit_iff_toNat.1 (hds c hc)
      omega
    · exact hsuffix (hs c hc)
  | name hid =>
    intro c hc
    have := isIdentifier_ranges hid c hc
    omega

/-- Suffix letters after characters that end with another are dropped, and only they. -/
theorem rdropWhile_suffix {ds sfx : List Char} (hne : ds ≠ [])
    (hds : ∀ c ∈ ds, isSuffixChar c = false) (hs : ∀ c ∈ sfx, isSuffixChar c = true) :
    ((ds ++ sfx).reverse.dropWhile isSuffixChar).reverse = ds := by
  rw [List.reverse_append, List.dropWhile_append_of_pos fun c hc => hs c (List.mem_reverse.1 hc)]
  obtain ⟨c, cs, hrev⟩ := List.exists_cons_of_ne_nil (List.reverse_ne_nil_iff.2 hne)
  have hc : ¬ isSuffixChar c = true := by
    simp [hds c (List.mem_reverse.1 (hrev ▸ List.mem_cons_self))]
  rw [hrev, List.dropWhile_cons_of_neg hc, ← hrev, List.reverse_reverse]

theorem isSuffixChar_of_chars {c : Char} (h : 48 ≤ c.toNat ∧ c.toNat ≤ 57 ∨
    (97 ≤ c.toNat ∧ c.toNat ≤ 102) ∨ (65 ≤ c.toNat ∧ c.toNat ≤ 70)) : isSuffixChar c = false := by
  rw [Bool.eq_false_iff, ne_eq, isSuffixChar_iff_toNat]
  omega

/-- A constant or a name is read as the value it denotes. -/
theorem atomValue?_of_atom {prev : List Entry} {a : List Char} {v : Int} (h : Atom prev a v) :
    atomValue? prev (String.ofList a) = some v := by
  cases h with
  | @decimal ds sfx hne hds hs hmax =>
    have hdigits := rdropWhile_suffix hne
      (fun c hc => isSuffixChar_of_chars (.inl (isDigit_iff_toNat.1 (hds c hc)))) hs
    have hx : ∀ x, x = 'x' ∨ x = 'X' → ¬ ['0', x] <+: ds := by
      intro x hx hp
      have := isDigit_iff_toNat.1 (hds x (hp.subset (by simp)))
      rcases hx with rfl | rfl <;> simp at this
    obtain ⟨c, cs, rfl⟩ := List.exists_cons_of_ne_nil hne
    have hhead : c.isDigit = true := hds c (by simp)
    unfold atomValue?
    simp only [String.toList_ofList, hdigits]
    rw [dropPrefix?_eq_none (by simpa using hx 'x' (.inl rfl)),
      dropPrefix?_eq_none (by simpa using hx 'X' (.inr rfl)), readDecimal?_of_digits hne hds hmax]
    simp [hhead]
  | @hex x ds sfx hx hne hds hs hmax =>
    have hdigits := rdropWhile_suffix (by simp : '0' :: x :: ds ≠ [])
      (by
        intro c hc
        simp only [List.mem_cons] at hc
        rcases hc with rfl | rfl | hc
        · decide
        · rcases hx with rfl | rfl <;> decide
        · exact isSuffixChar_of_chars (isHexDigit_iff_toNat.1 (hds c hc))) hs
    unfold atomValue?
    simp only [List.cons_append, String.toList_ofList] at hdigits ⊢
    rw [hdigits]
    rcases hx with rfl | rfl
    · rw [dropPrefix?_of_toList ds (by simp)]
      exact readHex?_of_digits hne hds hmax
    · rw [dropPrefix?_eq_none (by simp), dropPrefix?_of_toList ds (by simp)]
      exact readHex?_of_digits hne hds hmax
  | @name e hid hfind hmax =>
    obtain ⟨c, cs, hs, hc, _⟩ := isIdentifier_chars hid
    have hc' : 65 ≤ c.toNat := by
      rcases hc with hc | rfl
      · simp only [Char.isAlpha, Char.isUpper, Char.isLower, UInt32.le_iff_toNat_le] at hc
        simp at hc
        omega
      · decide
    have hpre : (e.name.toList.reverse.dropWhile isSuffixChar).reverse <+: c :: cs :=
      hs ▸ List.rdropWhile_prefix isSuffixChar e.name.toList
    have hzero : ∀ x, ¬ ['0', x] <+: (e.name.toList.reverse.dropWhile isSuffixChar).reverse := by
      intro x hp
      have := (List.cons_prefix_cons.1 (hp.trans hpre)).1
      subst this
      simp at hc'
    have hdig : ((e.name.toList.reverse.dropWhile isSuffixChar).reverse.head?.any Char.isDigit) =
        false := by
      rcases hd : (e.name.toList.reverse.dropWhile isSuffixChar).reverse with _ | ⟨d, ds⟩
      · rfl
      · rw [hd] at hpre
        have := (List.cons_prefix_cons.1 hpre).1
        subst this
        simp only [List.head?_cons, Option.any_some]
        rw [Bool.eq_false_iff, ne_eq, isDigit_iff_toNat]
        omega
    unfold atomValue?
    simp only [String.toList_ofList]
    rw [dropPrefix?_eq_none (by simpa using hzero 'x'), dropPrefix?_eq_none (by simpa using hzero 'X'),
      hdig]
    simp [hfind]

/-- A constant is at least 0 and a name stands for a value at least 0. -/
theorem Atom.bounds {prev : List Entry} {a : List Char} {v : Int} (h : Atom prev a v) :
    0 ≤ v ∧ v ≤ int64Max := by
  cases h with
  | decimal _ _ _ hmax | hex _ _ _ _ hmax | name _ _ hmax => exact ⟨Int.natCast_nonneg _, hmax⟩

/-! ## Values -/

/-- `cs` is `core` with blanks around it, and around that perhaps one pair of parentheses with
blanks around them. -/
inductive Enclosed (core : List Char) : List Char → Prop
  | bare {b b' : List Char} : Blanks b → Blanks b' → Enclosed core (b ++ core ++ b')
  | paren {b i i' b' : List Char} : Blanks b → Blanks i → Blanks i' → Blanks b' →
      Enclosed core (b ++ '(' :: (i ++ core ++ i' ++ ')' :: b'))

/-- A value text and the value it denotes after the enumerators `prev`: a constant or a name,
or a minus sign before a value text, either one enclosed in blanks and perhaps parentheses. -/
inductive ValueForm (prev : List Entry) : List Char → Int → Prop
  | atom {a cs : List Char} {v : Int} : Atom prev a v → Enclosed a cs → ValueForm prev cs v
  | neg {t cs : List Char} {v : Int} : ValueForm prev t v → Enclosed ('-' :: t) cs →
      ValueForm prev cs (-v)

/-- Every value a value text denotes has a 64-bit negation. -/
theorem ValueForm.bounds {prev : List Entry} {cs : List Char} {v : Int} (h : ValueForm prev cs v) :
    -int64Max ≤ v ∧ v ≤ int64Max := by
  induction h with
  | atom ha _ =>
    obtain ⟨hpos, hmax⟩ := ha.bounds
    have h0 : (0 : Int) ≤ int64Max := by decide
    exact ⟨by omega, hmax⟩
  | neg _ _ ih => exact ⟨by omega, by omega⟩

theorem negate64_of_bounds {v : Int} (h : -int64Max ≤ v) : negate64 v = -v := by
  have hmin : int64Min = -int64Max - 1 := by decide
  rw [negate64, if_neg (by omega)]

theorem Blanks.count_minus {b : List Char} (hb : Blanks b) : b.count '-' = 0 :=
  List.count_eq_zero.2 fun h => absurd (hb '-' h) (by decide)

/-- Blanks and parentheses around a core add no minus sign. -/
theorem Enclosed.count_minus {core cs : List Char} (h : Enclosed core cs) :
    cs.count '-' = core.count '-' := by
  cases h with
  | bare hb hb' => simp [hb.count_minus, hb'.count_minus]
  | paren hb hi hi' hb' => simp [hb.count_minus, hi.count_minus, hi'.count_minus, hb'.count_minus]

theorem Atom.ne_nil {prev : List Entry} {a : List Char} {v : Int} (h : Atom prev a v) : a ≠ [] := by
  cases h with
  | decimal hne => simp [hne]
  | hex => simp
  | name hid =>
    obtain ⟨_, _, hs, _⟩ := isIdentifier_chars hid
    simp [hs]

/-- A core that starts with neither a blank nor a parenthesis is what a value text enclosing it
leaves once trimmed and rid of its parentheses. -/
theorem dropParens_trim_enclosed {c : Char} {rest cs : List Char} (he : Enclosed (c :: rest) cs)
    (hc : isBlank c = false) (hp : c ≠ '(') :
    dropParens (trim (String.ofList cs)) = trim (String.ofList (c :: rest)) := by
  cases he with
  | bare hb hb' =>
    rw [trim_blanks_around hb hb', trim_cons hc]
    unfold dropParens
    rw [dropPrefix?_eq_none (by simp [hp.symm])]
  | @paren b i i' b' hb hi hi' hb' =>
    have hshape : b ++ '(' :: (i ++ c :: rest ++ i' ++ ')' :: b') =
        b ++ '(' :: (i ++ c :: rest ++ i' ++ [')']) ++ b' := by simp
    have hkeep : (i ++ c :: rest ++ i' ++ [')']).rdropWhile isBlank = i ++ c :: rest ++ i' ++ [')'] := by
      rw [show i ++ c :: rest ++ i' ++ [')'] = (i ++ c :: rest ++ i') ++ [')'] by simp]
      exact List.rdropWhile_concat_neg _ _ _ (by decide)
    rw [hshape, trim_blanks_around hb hb', trim_cons (by decide), hkeep]
    unfold dropParens
    rw [dropPrefix?_of_toList (i ++ c :: rest ++ i' ++ [')']) (by simp)]
    dsimp only
    rw [dropSuffix?_of_toList (i ++ c :: rest ++ i') (by simp)]
    exact trim_blanks_around hi hi' _

/-- The value read from a text depends on the text only through its trim. -/
theorem valueOf?_congr_trim {prev : List Entry} {f : Nat} {s s' : String} (h : trim s = trim s') :
    valueOf? prev (f + 1) s = valueOf? prev (f + 1) s' := by
  simp only [valueOf?]
  unfold signedValue?
  rw [h]

/-- A value text is read as the value it denotes, with one level of fuel for each minus sign. -/
theorem valueOf?_of_valueForm {prev : List Entry} {cs : List Char} {v : Int}
    (h : ValueForm prev cs v) :
    ∀ fuel, cs.count '-' < fuel → valueOf? prev fuel (String.ofList cs) = some v := by
  induction h with
  | @atom a cs v ha he =>
    intro fuel hf
    obtain ⟨f, rfl⟩ : ∃ f, fuel = f + 1 := ⟨fuel - 1, by omega⟩
    obtain ⟨c, rest, rfl⟩ := List.exists_cons_of_ne_nil ha.ne_nil
    have hsolid : Solid (c :: rest) := fun d hd => by
      have := ha.chars d hd
      exact isBlank_of_printable (by omega) (by omega)
    have hchar := ha.chars c (by simp)
    have hp : c ≠ '(' := fun h => by subst h; simp at hchar
    have hm : c ≠ '-' := fun h => by subst h; simp at hchar
    rw [valueOf?]
    unfold signedValue?
    rw [dropParens_trim_enclosed he (hsolid c (by simp)) hp, trim_of_solid hsolid]
    dsimp only
    rw [dropPrefix?_eq_none (by simp [hm.symm]), atomValue?_of_atom ha]
  | @neg t cs v ht he ih =>
    intro fuel hf
    rw [he.count_minus, List.count_cons_self] at hf
    obtain ⟨f, rfl⟩ : ∃ f, fuel = f + 2 := ⟨fuel - 2, by omega⟩
    rw [valueOf?]
    unfold signedValue?
    rw [dropParens_trim_enclosed he (by decide) (by decide), trim_cons (by decide)]
    dsimp only
    rw [dropPrefix?_of_toList (t.rdropWhile isBlank) (by simp)]
    dsimp only
    rw [valueOf?_congr_trim (trim_rdropWhile t), ih (f + 1) (by omega), Option.map_some,
      negate64_of_bounds ht.bounds.1]

/-! ## Items -/

/-- The value an item without a value text takes: the one after the last enumerator's, 0 for
the first. -/
def nextValue (prev : List Entry) : Int :=
  match prev.getLast? with
  | some e => e.value + 1
  | none => 0

/-- An item of a block, the name it declares, and that name's value after the enumerators
`prev`: a name alone, or a name, blanks, `=` and a value text. -/
inductive ItemForm (prev : List Entry) : List Char → String → Int → Prop
  | implicit {name : String} : isIdentifier name → ItemForm prev name.toList name (nextValue prev)
  | explicit {name : String} {b vt : List Char} {v : Int} : isIdentifier name → Blanks b →
      ValueForm prev vt v → ItemForm prev (name.toList ++ b ++ '=' :: vt) name v

/-- A name has neither blanks nor an equals sign. -/
theorem isIdentifier_solid {name : String} (h : isIdentifier name = true) :
    Solid name.toList ∧ '=' ∉ name.toList := by
  refine ⟨fun d hd => ?_, fun hd => ?_⟩
  · have := isIdentifier_ranges h d hd
    exact isBlank_of_printable (by omega) (by omega)
  · have := isIdentifier_ranges h '=' hd
    simp at this

theorem splitAtFirst?_of_not_mem {xs : List Char} {c : Char} (h : c ∉ xs) :
    splitAtFirst? (String.ofList xs) c = none := by
  have hpos : ∀ a ∈ xs, decide (a ≠ c) = true := fun a ha => by
    simpa using fun hac : a = c => h (hac ▸ ha)
  simp only [splitAtFirst?, String.toList_ofList, List.span_eq_takeWhile_dropWhile,
    List.dropWhile_eq_nil_iff.2 hpos]

theorem splitAtFirst?_append {xs ys : List Char} {c : Char} (h : c ∉ xs) :
    splitAtFirst? (String.ofList (xs ++ c :: ys)) c = some (String.ofList xs, String.ofList ys) := by
  have hpos : ∀ a ∈ xs, decide (a ≠ c) = true := fun a ha => by
    simpa using fun hac : a = c => h (hac ▸ ha)
  have hstop : ¬ decide (c ≠ c) = true := by simp
  simp only [splitAtFirst?, String.toList_ofList, List.span_eq_takeWhile_dropWhile,
    List.takeWhile_append_of_pos hpos, List.dropWhile_append_of_pos hpos,
    List.takeWhile_cons_of_neg (p := fun x => decide (x ≠ c)) hstop,
    List.dropWhile_cons_of_neg (p := fun x => decide (x ≠ c)) hstop, List.append_nil]

/-- A value text after `=` is read, trimmed, as the value it denotes. -/
theorem itemValue?_of_valueForm {prev : List Entry} {vt : List Char} {v : Int}
    (h : ValueForm prev vt v) : itemValue? prev (some (trim (String.ofList vt))) = some v := by
  have hfuel : vt.count '-' < (trim (String.ofList vt)).length + 1 := by
    have hcount := count_trim (c := '-') (by decide) (String.ofList vt)
    rw [String.toList_ofList] at hcount
    have := List.count_le_length (a := '-') (l := (trim (String.ofList vt)).toList)
    rw [String.length_toList] at this
    omega
  rw [itemValue?, valueOf?_congr_trim (trim_trim _), valueOf?_of_valueForm h _ hfuel]

/-- An item of the forms is read as declaring its name with its value, which is then checked
against the range of a table. -/
theorem parseEntry_of_itemForm {prev : List Entry} {cs : List Char} {name : String} {v : Int}
    (h : ItemForm prev cs name v) (line : Nat) :
    parseEntry (String.ofList cs) line prev = checkedEntry (String.ofList cs) name line (some v) := by
  cases h with
  | implicit hid =>
    have hparts : itemParts (String.ofList name.toList) = (name, none) := by
      rw [itemParts, splitAtFirst?_of_not_mem (isIdentifier_solid hid).2, String.ofList_toList]
    simp only [parseEntry, hparts, hid, Bool.not_true, Bool.false_eq_true, if_false]
    rfl
  | @explicit _ b vt v hid hb hv =>
    have hparts : itemParts (String.ofList (name.toList ++ b ++ '=' :: vt)) =
        (name, some (trim (String.ofList vt))) := by
      have hnot : '=' ∉ name.toList ++ b := by
        simp only [List.mem_append, not_or]
        exact ⟨(isIdentifier_solid hid).2, fun hm => absurd (hb '=' hm) (by decide)⟩
      rw [itemParts, List.append_assoc, ← List.append_assoc, splitAtFirst?_append hnot]
      dsimp only
      rw [trim_append_blanks hb, trim_of_solid (isIdentifier_solid hid).1, String.ofList_toList]
    simp only [parseEntry, hparts, hid, Bool.not_true, Bool.false_eq_true, if_false]
    rw [itemValue?_of_valueForm hv]

end VoiceBench.Codegen
