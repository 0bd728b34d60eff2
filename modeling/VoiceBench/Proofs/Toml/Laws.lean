import Mathlib
import VoiceBench.Toml.Codec

/-!
# TOML libraries that read back what they write

Command maps are stored through a TOML library, a parameter of everything proved about them.
What is asked of it is one law, `Codec.ReadsBack`: every table it covers is written, and the
text written reads back as the same table, strings, integers and floats exactly. The tables
covered (`Value.Plain`) hold no date-times, only 64-bit integers, and distinct keys at every
level, as a TOML document does.

The law can be met: `Codec.prefixCode` writes a table as a prefix code of its structure, and
reads a text as the table whose code it is. The code of a value followed by any text determines
the value and the text (`PrefixCode.value_append_inj`), so reading gives back the table
written (`Codec.prefixCode_readsBack`).
-/

namespace VoiceBench.Toml

/-- A value the law covers: no date-times, every integer a 64-bit integer, and the keys of every
table distinct. -/
inductive Value.Plain : Value → Prop
  | string (s : String) : Plain (.string s)
  | integer {n : Int} : -2 ^ 63 ≤ n → n < 2 ^ 63 → Plain (.integer n)
  | float (bits : UInt64) : Plain (.float bits)
  | boolean (b : Bool) : Plain (.boolean b)
  | array {items : List Value} : (∀ v ∈ items, Plain v) → Plain (.array items)
  | table {entries : List (String × Value)} : (entries.map Prod.fst).Nodup →
      (∀ e ∈ entries, Plain e.2) → Plain (.table entries)

/-- A library reads back what it writes: every table the law covers is written, and its text
reads back as the table, its strings, integers and floats exactly. -/
def Codec.ReadsBack (toml : Codec) : Prop :=
  ∀ entries, Value.Plain (.table entries) →
    ∃ text, toml.render entries = .ok text ∧ toml.parse text = .ok entries

/-! ## A prefix code of values -/

namespace PrefixCode

/-- A list of characters, each after a `+`, closed by a `.`. -/
def marked : List Char → List Char
  | [] => ['.']
  | c :: cs => '+' :: c :: marked cs

/-- A number as that many `+`, closed by a `.`. -/
def unary (n : Nat) : List Char := List.replicate n '+' ++ ['.']

mutual

/-- The code of a value: a letter for its kind, then its contents. -/
def value : Value → List Char
  | .string s => 's' :: marked s.toList
  | .integer n => 'i' :: (unary n.toNat ++ unary (-n).toNat)
  | .float bits => 'f' :: unary bits.toNat
  | .boolean b => ['b', if b then 't' else 'u']
  | .datetime t => 'd' :: marked t.toList
  | .array vs => 'a' :: items vs
  | .table es => 'm' :: entries es

/-- The code of the items of an array, each after a `+`, closed by a `.`. -/
def items : List Value → List Char
  | [] => ['.']
  | v :: vs => '+' :: (value v ++ items vs)

/-- The code of the entries of a table, each key and value after a `+`, closed by a `.`. -/
def entries : List (String × Value) → List Char
  | [] => ['.']
  | (k, v) :: es => '+' :: (marked k.toList ++ (value v ++ entries es))

end

/-- Marked lists are self-delimiting. -/
theorem marked_append_inj : ∀ {a b r r' : List Char},
    marked a ++ r = marked b ++ r' → a = b ∧ r = r'
  | [], [], _, _, h => ⟨rfl, by simpa [marked] using h⟩
  | [], _ :: _, _, _, h => by simp [marked] at h
  | _ :: _, [], _, _, h => by simp [marked] at h
  | x :: xs, y :: ys, r, r', h => by
    simp only [marked, List.cons_append, List.cons.injEq, true_and] at h
    obtain ⟨rfl, htail⟩ := h
    obtain ⟨rfl, rfl⟩ := marked_append_inj htail
    exact ⟨rfl, rfl⟩

/-- Marked texts are self-delimiting. -/
theorem string_append_inj {a b : String} {r r' : List Char}
    (h : marked a.toList ++ r = marked b.toList ++ r') : a = b ∧ r = r' := by
  obtain ⟨hab, rfl⟩ := marked_append_inj h
  exact ⟨String.toList_inj.1 hab, rfl⟩

/-- Unary numbers are self-delimiting. -/
theorem unary_append_inj : ∀ {m n : Nat} {r r' : List Char},
    unary m ++ r = unary n ++ r' → m = n ∧ r = r'
  | 0, 0, _, _, h => ⟨rfl, by simpa [unary] using h⟩
  | 0, _ + 1, _, _, h => by simp [unary, List.replicate_succ] at h
  | _ + 1, 0, _, _, h => by simp [unary, List.replicate_succ] at h
  | m + 1, n + 1, r, r', h => by
    simp only [unary, List.replicate_succ, List.cons_append, List.append_assoc, List.cons.injEq,
      true_and] at h
    obtain ⟨rfl, rfl⟩ := unary_append_inj (m := m) (n := n) (by simpa [unary] using h)
    exact ⟨rfl, rfl⟩

/-- Integers, written as their positive and their negative part, are self-delimiting. -/
theorem int_append_inj {m n : Int} {r r' : List Char}
    (h : unary m.toNat ++ (unary (-m).toNat ++ r) = unary n.toNat ++ (unary (-n).toNat ++ r')) :
    m = n ∧ r = r' := by
  obtain ⟨hpos, h⟩ := unary_append_inj h
  obtain ⟨hneg, rfl⟩ := unary_append_inj h
  exact ⟨by omega, rfl⟩

mutual

/-- The code of a value followed by any text determines the value and the text: the first
letter names the kind, and the contents are codes of their own. -/
theorem value_append_inj : ∀ {v w : Value} {r r' : List Char},
    value v ++ r = value w ++ r' → v = w ∧ r = r'
  | .string a, w, r, r', h => by
    cases w <;> simp [value] at h
    obtain ⟨rfl, rfl⟩ := string_append_inj h
    exact ⟨rfl, rfl⟩
  | .integer m, w, r, r', h => by
    cases w <;> simp [value] at h
    obtain ⟨rfl, rfl⟩ := int_append_inj h
    exact ⟨rfl, rfl⟩
  | .float a, w, r, r', h => by
    cases w <;> simp [value] at h
    obtain ⟨hab, rfl⟩ := unary_append_inj h
    exact ⟨congrArg _ (UInt64.toNat_inj.1 hab), rfl⟩
  | .boolean a, w, r, r', h => by
    cases w with
    | boolean b =>
      simp only [value, List.cons_append, List.cons.injEq, true_and] at h
      obtain ⟨hab, rfl⟩ := h
      cases a <;> cases b <;> simp at hab ⊢
    | _ => simp [value] at h
  | .datetime a, w, r, r', h => by
    cases w <;> simp [value] at h
    obtain ⟨rfl, rfl⟩ := string_append_inj h
    exact ⟨rfl, rfl⟩
  | .array a, w, r, r', h => by
    cases w <;> simp [value] at h
    obtain ⟨rfl, rfl⟩ := items_append_inj h
    exact ⟨rfl, rfl⟩
  | .table a, w, r, r', h => by
    cases w <;> simp [value] at h
    obtain ⟨rfl, rfl⟩ := entries_append_inj h
    exact ⟨rfl, rfl⟩

/-- The items of an array are self-delimiting. -/
theorem items_append_inj : ∀ {a b : List Value} {r r' : List Char},
    items a ++ r = items b ++ r' → a = b ∧ r = r'
  | [], [], _, _, h => ⟨rfl, by simpa [items] using h⟩
  | [], _ :: _, _, _, h => by simp [items] at h
  | _ :: _, [], _, _, h => by simp [items] at h
  | v :: vs, w :: ws, r, r', h => by
    simp only [items, List.cons_append, List.cons.injEq, true_and, List.append_assoc] at h
    obtain ⟨rfl, hitems⟩ := value_append_inj h
    obtain ⟨rfl, rfl⟩ := items_append_inj hitems
    exact ⟨rfl, rfl⟩

/-- The entries of a table are self-delimiting. -/
theorem entries_append_inj : ∀ {a b : List (String × Value)} {r r' : List Char},
    entries a ++ r = entries b ++ r' → a = b ∧ r = r'
  | [], [], _, _, h => ⟨rfl, by simpa [entries] using h⟩
  | [], _ :: _, _, _, h => by simp [entries] at h
  | _ :: _, [], _, _, h => by simp [entries] at h
  | (k, v) :: es, (k', w) :: ws, r, r', h => by
    simp only [entries, List.cons_append, List.cons.injEq, true_and, List.append_assoc] at h
    obtain ⟨rfl, hvalue⟩ := string_append_inj h
    obtain ⟨rfl, hentries⟩ := value_append_inj hvalue
    obtain ⟨rfl, rfl⟩ := entries_append_inj hentries
    exact ⟨rfl, rfl⟩

end

/-- Two tables with one code are one table. -/
theorem entries_injective : Function.Injective entries := fun a b h =>
  (entries_append_inj (by rw [h] : entries a ++ [] = entries b ++ [])).1

end PrefixCode

open Classical in
/-- The library that writes a table as its prefix code, and reads a text as the table whose
code it is. -/
noncomputable def Codec.prefixCode : Codec where
  parse text :=
    if h : ∃ es, PrefixCode.entries es = text.toList then .ok (Classical.choose h)
    else .error "not the code of a table"
  render es := .ok (String.ofList (PrefixCode.entries es))

/-- The prefix code reads back every table it writes. -/
theorem Codec.prefixCode_readsBack : Codec.prefixCode.ReadsBack := by
  intro es _
  refine ⟨_, rfl, ?_⟩
  have hcode : ∃ es', PrefixCode.entries es' = (String.ofList (PrefixCode.entries es)).toList :=
    ⟨es, by rw [String.toList_ofList]⟩
  have hchosen : PrefixCode.entries (Classical.choose hcode) = PrefixCode.entries es :=
    (Classical.choose_spec hcode).trans String.toList_ofList
  simp only [Codec.prefixCode, dif_pos hcode]
  rw [PrefixCode.entries_injective hchosen]

end VoiceBench.Toml
