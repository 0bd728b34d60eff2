import Mathlib
import VoiceBench.Proofs.Codegen.Scan
import VoiceBench.Proofs.Codegen.Values
import VoiceBench.Proofs.Checks

/-!
# The block an enum is read from

A header's lines, once comments are stripped, are of three kinds for the scan: a line that
opens a block (`blockStart?`), a line that closes one as `} name;` (`blockEnd?`), and a plain
line. A block closed under a name (`Block`) is an opening line, plain lines, and a closing
line; its items are the comma-separated pieces of the text after the opening brace, of the
plain lines and of the text before the closing brace, each with its line (`Block.items`).

The scan does one thing per kind of line (`scan_opening`, `scan_plain`, `scan_closing`,
`scan_closing_other`, `scan_searching_other`), so that it reads a whole block as the items of
the block read one after another (`scan_block`). A parse that succeeds has read the first
block closed under the name (`scan_searching_ok`), and its enumerators are that block's items
in order, on their lines, each with the value its text denotes (`parseEnum_reads_first_block`).
When every item has one of the forms of a value, the parse ends as a compiler's reading of
the items does (`Reading`): with the first item outside the range of a table, or with all of
them.
-/

namespace VoiceBench.Codegen

open Text

/-! ## Lines and blocks -/

/-- A line inside a block: it neither opens a block nor closes one. -/
def Plain (line : String) : Prop := blockStart? line = none ∧ blockEnd? line = none

instance (line : String) : Decidable (Plain line) :=
  inferInstanceAs (Decidable (blockStart? line = none ∧ blockEnd? line = none))

/-- A block of lines closed under `n`: a line that opens a block with `after` after its brace,
plain lines, and a line that closes the block as `} n;` with `body` before its brace. -/
structure Block (n : String) where
  opening : String
  after : String
  opens : blockStart? opening = some after
  inner : List String
  plain : ∀ l ∈ inner, Plain l
  closing : String
  body : String
  stays : blockStart? closing = none
  closes : blockEnd? closing = some (body, n)

/-- The items of texts on consecutive lines from line `k`, each with the number of its line. -/
def numberedItems : Nat → List String → List (String × Nat)
  | _, [] => []
  | k, t :: ts => (items t).map (·, k) ++ numberedItems (k + 1) ts

namespace Block

variable {n : String}

/-- The lines of a block. -/
def lines (b : Block n) : List String := b.opening :: b.inner ++ [b.closing]

/-- The texts of a block that hold its items: after the opening brace, the plain lines, and
before the closing brace. -/
def texts (b : Block n) : List String := b.after :: b.inner ++ [b.body]

/-- The items of a block whose opening line is line `k`, each with the number of its line. -/
def items (b : Block n) (k : Nat) : List (String × Nat) := numberedItems k b.texts

end Block

/-- No block of the lines is closed under `n`. -/
def NoBlock (n : String) (ls : List String) : Prop :=
  ∀ (P S : List String) (b : Block n), ls ≠ P ++ b.lines ++ S

/-! ## Reading items -/

/-- The entries collected so far with the one an item declares on its line after them. -/
def addItem (acc : List Entry) (item : String × Nat) : Except Error (List Entry) :=
  addEntry item.2 acc item.1

/-- How a block's scan ends once its items are read: an enum, unless it has no enumerator. -/
def finishBlock (n : String) (es : List Entry) : Except Error Definition :=
  if es.isEmpty then .error (.emptyEnum n) else .ok { name := n, entries := es }

theorem collectEntries_eq_addItem (text : String) (line : Nat) (es : List Entry) :
    collectEntries text line es = ((items text).map (·, line)).foldlM addItem es := by
  rw [collectEntries_eq, List.foldlM_map]
  rfl

/-! ## One line of the scan -/

section
variable (n : String) (es : List Entry) (k : Nat) (line : String) (rest : List String)

/-- An opening line starts a block with the items after its brace, whatever came before. -/
theorem scan_opening {after : String} (h : blockStart? line = some after) (st : Scan) :
    scan n st es k (line :: rest) =
      collectEntries after k [] >>= fun es' => scan n (.inBlock k) es' (k + 1) rest := by
  cases st <;> simp [scan, h]

/-- Outside a block, every line but an opening one is passed over. -/
theorem scan_searching_other (h : blockStart? line = none) :
    scan n .searching es k (line :: rest) = scan n .searching es (k + 1) rest := by
  simp [scan, h]

/-- Inside a block, a plain line adds its items. -/
theorem scan_plain (h : Plain line) (start : Nat) :
    scan n (.inBlock start) es k (line :: rest) =
      collectEntries line k es >>= fun es' => scan n (.inBlock start) es' (k + 1) rest := by
  simp [scan, h.1, h.2]

/-- The line that closes a block under the name adds its items and ends the scan. -/
theorem scan_closing {body : String} (h₁ : blockStart? line = none)
    (h₂ : blockEnd? line = some (body, n)) (start : Nat) :
    scan n (.inBlock start) es k (line :: rest) = collectEntries body k es >>= finishBlock n := by
  simp only [scan, h₁, h₂, if_true]
  rfl

/-- A line that closes a block under another name drops the block's items. -/
theorem scan_closing_other {body m : String} (h₁ : blockStart? line = none)
    (h₂ : blockEnd? line = some (body, m)) (hm : m ≠ n) (start : Nat) :
    scan n (.inBlock start) es k (line :: rest) = scan n .searching [] (k + 1) rest := by
  simp [scan, h₁, h₂, hm]

end

/-! ## Runs of lines and whole blocks -/

theorem numberedItems_append (A B : List String) :
    ∀ k, numberedItems k (A ++ B) = numberedItems k A ++ numberedItems (k + A.length) B := by
  induction A with
  | nil => intro k; rfl
  | cons t A ih =>
    intro k
    simp only [List.cons_append, numberedItems, ih (k + 1), List.append_assoc, List.length_cons]
    rw [Nat.add_assoc, Nat.add_comm 1]

/-- Inside a block, plain lines add their items one line after another. -/
theorem scan_plains (n : String) (start : Nat) :
    ∀ (B : List String), (∀ l ∈ B, Plain l) → ∀ (es : List Entry) (k : Nat) (R : List String),
      scan n (.inBlock start) es k (B ++ R) =
        (numberedItems k B).foldlM addItem es >>= fun es' =>
          scan n (.inBlock start) es' (k + B.length) R
  | [], _, es, k, R => rfl
  | l :: B, hB, es, k, R => by
    rw [List.cons_append, scan_plain n es k l _ (hB l (by simp)), collectEntries_eq_addItem]
    simp only [numberedItems, List.foldlM_append]
    cases ((items l).map (·, k)).foldlM addItem es with
    | error e => rfl
    | ok es₁ =>
      simp only [bind, Except.bind]
      rw [scan_plains n start B (fun l hl => hB l (by simp [hl])) es₁ (k + 1) R,
        List.length_cons, Nat.add_assoc, Nat.add_comm 1]
      rfl

/-- A whole block is read as its items one after another, whatever the scan stood at. -/
theorem scan_block {n : String} (b : Block n) (st : Scan) (es : List Entry) (k : Nat)
    (S : List String) :
    scan n st es k (b.lines ++ S) = (b.items k).foldlM addItem [] >>= finishBlock n := by
  have hlines : b.lines ++ S = b.opening :: (b.inner ++ b.closing :: S) := by simp [Block.lines]
  have hitems : b.items k = (items b.after).map (·, k) ++ numberedItems (k + 1) b.inner ++
      (items b.body).map (·, k + 1 + b.inner.length) := by
    simp [Block.items, Block.texts, numberedItems, numberedItems_append]
  rw [hlines, scan_opening n es k _ _ b.opens st, collectEntries_eq_addItem, hitems,
    List.foldlM_append, List.foldlM_append]
  cases ((items b.after).map (·, k)).foldlM addItem [] with
  | error e => rfl
  | ok es₁ =>
    simp only [bind, Except.bind]
    rw [scan_plains n k b.inner b.plain es₁ (k + 1)]
    cases (numberedItems (k + 1) b.inner).foldlM addItem es₁ with
    | error e => rfl
    | ok es₂ =>
      simp only [bind, Except.bind]
      rw [scan_closing n es₂ _ _ _ b.stays b.closes k, collectEntries_eq_addItem]
      rfl

/-! ## Items read as a compiler reads them -/

/-- Items read one after another as a compiler reads them, each value kept in the range of a
table: every item is of the forms, and the first one whose value falls outside 0..255 ends the
reading with the error that names it. -/
inductive Reading : List Entry → List (String × Nat) → Except Error (List Entry) → Prop
  | done {es : List Entry} : Reading es [] (.ok es)
  | next {es : List Entry} {piece name : String} {line : Nat} {v : Int}
      {rest : List (String × Nat)} {r : Except Error (List Entry)} :
      ItemForm es piece.toList name v → 0 ≤ v → v ≤ maxEnumValue →
      Reading (es ++ [⟨name, v.toNat, line⟩]) rest r → Reading es ((piece, line) :: rest) r
  | negative {es : List Entry} {piece name : String} {line : Nat} {v : Int}
      {rest : List (String × Nat)} :
      ItemForm es piece.toList name v → v < 0 →
      Reading es ((piece, line) :: rest) (.error (.negativeValue name v line))
  | tooLarge {es : List Entry} {piece name : String} {line : Nat} {v : Int}
      {rest : List (String × Nat)} :
      ItemForm es piece.toList name v → maxEnumValue < v →
      Reading es ((piece, line) :: rest) (.error (.valueOutOfRange name v line))

theorem parseEntry_toList_of_itemForm {prev : List Entry} {piece name : String} {v : Int}
    (h : ItemForm prev piece.toList name v) (line : Nat) :
    parseEntry piece line prev = checkedEntry piece name line (some v) := by
  simpa using parseEntry_of_itemForm h line

theorem addItem_of_itemForm {es : List Entry} {piece name : String} {v : Int}
    (h : ItemForm es piece.toList name v) (line : Nat) :
    addItem es (piece, line) = (checkedEntry piece name line (some v)).map (es ++ [·]) := by
  simp only [addItem, addEntry, parseEntry_toList_of_itemForm h line]

/-- Items of the forms are collected as a compiler reads them. -/
theorem foldlM_addItem_of_reading {es : List Entry} {items : List (String × Nat)}
    {r : Except Error (List Entry)} (h : Reading es items r) : items.foldlM addItem es = r := by
  induction h with
  | done => rfl
  | next hf h0 hmax _ ih =>
    rw [List.foldlM_cons, addItem_of_itemForm hf]
    simpa [checkedEntry, not_lt.2 h0, not_lt.2 hmax, Except.map, bind, Except.bind] using ih
  | negative hf hneg =>
    rw [List.foldlM_cons, addItem_of_itemForm hf]
    simp [checkedEntry, hneg, Except.map, bind, Except.bind]
  | @tooLarge _ _ _ _ v _ hf hbig =>
    rw [List.foldlM_cons, addItem_of_itemForm hf]
    have h0 : ¬ v < 0 := not_lt.2 (le_trans (by decide) hbig.le)
    simp [checkedEntry, h0, hbig, Except.map, bind, Except.bind]

/-! ## What an item that was read declares -/

theorem checkedEntry_eq_ok {piece name : String} {line : Nat} {v : Int} {e : Entry}
    (h : checkedEntry piece name line (some v) = .ok e) :
    e = ⟨name, v.toNat, line⟩ ∧ 0 ≤ v ∧ v ≤ maxEnumValue := by
  simp only [checkedEntry] at h
  split_ifs at h with h0 hmax
  cases h
  exact ⟨rfl, by omega, by omega⟩

/-- An item that is read declares the name before its `=` on its line, with a value that fits
a table. -/
theorem parseEntry_eq_ok {piece : String} {line : Nat} {prev : List Entry} {e : Entry}
    (h : parseEntry piece line prev = .ok e) :
    e.name = (itemParts piece).1 ∧ e.line = line ∧ (e.value : Int) ≤ maxEnumValue := by
  rcases hparts : itemParts piece with ⟨name, valueText⟩
  simp only [parseEntry, hparts] at h
  split_ifs at h
  cases hv : itemValue? prev valueText with
  | none => simp [hv, checkedEntry] at h
  | some v =>
    rw [hv] at h
    obtain ⟨rfl, h0, hmax⟩ := checkedEntry_eq_ok h
    exact ⟨rfl, rfl, by simpa [Int.toNat_of_nonneg h0] using hmax⟩

/-- An item of the forms that is read declares its name with its value. -/
theorem parseEntry_eq_ok_of_itemForm {piece name : String} {line : Nat} {prev : List Entry}
    {v : Int} {e : Entry} (hf : ItemForm prev piece.toList name v)
    (h : parseEntry piece line prev = .ok e) : e.name = name ∧ (e.value : Int) = v := by
  rw [parseEntry_toList_of_itemForm hf line] at h
  obtain ⟨rfl, h0, -⟩ := checkedEntry_eq_ok h
  exact ⟨rfl, Int.toNat_of_nonneg h0⟩

/-- Items collected one after another: the result extends the entries before them by one entry
per item, each the one its item declares after the entries before it. -/
theorem foldlM_addItem_eq_ok : ∀ (items : List (String × Nat)) (prev es : List Entry),
    items.foldlM addItem prev = .ok es →
      prev <+: es ∧ es.length = prev.length + items.length ∧
      ∀ i piece line, items[i]? = some (piece, line) →
        ∃ e, es[prev.length + i]? = some e ∧
          parseEntry piece line (es.take (prev.length + i)) = .ok e
  | [], prev, es, h => by
    have hes : es = prev := by simpa [pure, Except.pure] using h.symm
    subst hes
    exact ⟨List.prefix_refl _, by simp, fun i _ _ h => by simp at h⟩
  | (piece, line) :: rest, prev, es, h => by
    rw [List.foldlM_cons] at h
    obtain ⟨acc, hacc, h⟩ := bind_eq_ok_iff.1 h
    obtain ⟨e, he, rfl⟩ : ∃ e, parseEntry piece line prev = .ok e ∧ acc = prev ++ [e] := by
      simp only [addItem, addEntry] at hacc
      cases hp : parseEntry piece line prev with
      | error err => simp [hp, Except.map] at hacc
      | ok e => exact ⟨e, rfl, by simpa [hp, Except.map] using hacc.symm⟩
    obtain ⟨hpre, hlen, hitems⟩ := foldlM_addItem_eq_ok rest (prev ++ [e]) es h
    obtain ⟨t, rfl⟩ := hpre
    refine ⟨(List.prefix_append _ _).trans (List.prefix_append _ _), by simp at hlen ⊢; omega, ?_⟩
    intro i piece' line' hi
    cases i with
    | zero =>
      obtain ⟨rfl, rfl⟩ : piece' = piece ∧ line' = line := by simpa using hi.symm
      exact ⟨e, by simp, by simpa using he⟩
    | succ j =>
      obtain ⟨e', he', hp'⟩ := hitems j piece' line' (by simpa using hi)
      have hidx : (prev ++ [e]).length + j = prev.length + (j + 1) := by simp; omega
      exact ⟨e', hidx ▸ he', hidx ▸ hp'⟩

/-! ## The first block closed under a name -/

/-- A line that closes a block under `n`. -/
def ClosesAs (n line : String) : Prop :=
  blockStart? line = none ∧ ∃ body, blockEnd? line = some (body, n)

section
variable {n : String}

theorem Block.opening_not_plain (b : Block n) : ¬ Plain b.opening := fun h => by
  have hopens := b.opens
  rw [h.1] at hopens
  cases hopens

theorem NoBlock.nil : NoBlock n [] := fun P S b h => by
  have := congrArg List.length h
  simp [Block.lines] at this

/-- A block of lines starts at their first line or lies among the others. -/
theorem NoBlock.cons_of {l : String} {P : List String}
    (hhead : ∀ (b : Block n) S, l :: P ≠ b.lines ++ S) (h : NoBlock n P) : NoBlock n (l :: P) := by
  intro P' S b heq
  cases P' with
  | nil => exact hhead b S heq
  | cons y P'' =>
    simp only [List.cons_append, List.cons.injEq] at heq
    exact h P'' S b heq.2

/-- A line that opens no block adds no block before the others. -/
theorem NoBlock.cons {l : String} {P : List String} (hl : blockStart? l = none)
    (h : NoBlock n P) : NoBlock n (l :: P) := by
  refine NoBlock.cons_of (fun b S heq => ?_) h
  simp only [Block.lines, List.cons_append, List.cons.injEq] at heq
  rw [heq.1, b.opens] at hl
  cases hl

/-- Plain lines before lines that hold no block under `n`, and whose first line is neither
plain nor closes a block under `n`: together they hold no block under `n`, and no run of plain
lines in them is followed by a line that closes one. -/
theorem plains_append {B Q : List String} (hB : ∀ l ∈ B, Plain l) (hQ : NoBlock n Q)
    (hhead : ∀ x Q', Q = x :: Q' → ¬ Plain x ∧ ¬ ClosesAs n x) :
    NoBlock n (B ++ Q) ∧
      ∀ I c S, B ++ Q = I ++ c :: S → (∀ l ∈ I, Plain l) → ¬ ClosesAs n c := by
  induction B with
  | nil =>
    refine ⟨hQ, fun I c S heq hI hc => ?_⟩
    cases I with
    | nil => exact (hhead c S heq).2 hc
    | cons y I' => exact (hhead y (I' ++ c :: S) heq).1 (hI y (by simp))
  | cons y B ih =>
    obtain ⟨ihBlock, ihClose⟩ := ih fun l hl => hB l (by simp [hl])
    have hy : Plain y := hB y (by simp)
    refine ⟨NoBlock.cons_of (fun b S heq => ?_) ihBlock, fun I c S heq hI hc => ?_⟩
    · -- the block would open on a plain line
      simp only [Block.lines, List.cons_append, List.cons.injEq] at heq
      exact b.opening_not_plain (heq.1 ▸ hy)
    · cases I with
      | nil =>
        simp only [List.nil_append, List.cons_append, List.cons.injEq] at heq
        obtain ⟨body, hbody⟩ := hc.2
        rw [← heq.1, hy.2] at hbody
        cases hbody
      | cons z I' =>
        simp only [List.cons_append, List.cons.injEq] at heq
        exact ihClose I' c S heq.2 (fun l hl => hI l (by simp [hl])) hc

/-- An opening line, plain lines, and lines as in `plains_append` hold no block under `n`. -/
theorem NoBlock.after_opening (l : String) {B Q : List String} (hB : ∀ l ∈ B, Plain l)
    (hQ : NoBlock n Q) (hhead : ∀ x Q', Q = x :: Q' → ¬ Plain x ∧ ¬ ClosesAs n x) :
    NoBlock n (l :: B ++ Q) := by
  obtain ⟨hBlock, hClose⟩ := plains_append hB hQ hhead
  rw [List.cons_append]
  refine NoBlock.cons_of (fun b S heq => ?_) hBlock
  simp only [Block.lines, List.cons_append, List.cons.injEq, List.append_assoc] at heq
  exact hClose b.inner b.closing S heq.2 b.plain ⟨b.stays, b.body, b.closes⟩

end

/-- Lines split after their longest run of plain lines. -/
theorem exists_plain_prefix (L : List String) :
    ∃ B R, L = B ++ R ∧ (∀ l ∈ B, Plain l) ∧ ∀ x R', R = x :: R' → ¬ Plain x := by
  refine ⟨L.takeWhile (fun l => decide (Plain l)), L.dropWhile (fun l => decide (Plain l)),
    List.takeWhile_append_dropWhile.symm, fun l hl => by simpa using List.mem_takeWhile_imp hl,
    fun x R' hR => ?_⟩
  have hfirst := List.head?_dropWhile_not (fun l => decide (Plain l)) L
  rw [hR] at hfirst
  simpa using hfirst

/-- A scan that succeeds from outside a block has read the first block closed under the name:
the lines before it hold none, and the result is that block's items read one after another. -/
theorem scan_searching_ok (n : String) (L : List String) (es : List Entry) (k : Nat)
    (d : Definition) (h : scan n .searching es k L = .ok d) :
    ∃ (P S : List String) (b : Block n), L = P ++ b.lines ++ S ∧ NoBlock n P ∧
      (b.items (k + P.length)).foldlM addItem [] >>= finishBlock n = .ok d := by
  -- by induction on the number of lines: the scan goes on with fewer after each step
  induction hlen : L.length using Nat.strong_induction_on generalizing L es k d with
  | _ len ih =>
  rcases L with _ | ⟨l, rest⟩
  · simp [scan] at h
  have hwhole := h
  cases hstart : blockStart? l with
  | none =>
    rw [scan_searching_other n es k l rest hstart] at h
    obtain ⟨P, S, b, hL, hP, hd⟩ := ih rest.length (by simp [← hlen]) rest es (k + 1) d h rfl
    refine ⟨l :: P, S, b, by simp [hL], hP.cons hstart, ?_⟩
    rwa [List.length_cons, Nat.add_comm P.length, ← Nat.add_assoc]
  | some after =>
    rw [scan_opening n es k l rest hstart] at h
    obtain ⟨es₁, -, h⟩ := bind_eq_ok_iff.1 h
    obtain ⟨B, R, rfl, hB, hR⟩ := exists_plain_prefix rest
    rw [scan_plains n k B hB es₁ (k + 1) R] at h
    obtain ⟨es₂, -, h⟩ := bind_eq_ok_iff.1 h
    rcases R with _ | ⟨x, S⟩
    · simp [scan] at h
    have hx := hR x S rfl
    cases hxs : blockStart? x with
    | some after' =>
      rw [scan_opening n es₂ _ x S hxs, ← scan_opening n es₂ _ x S hxs .searching] at h
      obtain ⟨P, S', b, hL, hP, hd⟩ :=
        ih (x :: S).length (by simp [← hlen]) (x :: S) es₂ (k + 1 + B.length) d h rfl
      refine ⟨l :: B ++ P, S', b, by simp [hL], NoBlock.after_opening l hB hP ?_, ?_⟩
      · intro y Q' hy
        have hyx : y = x := by
          rw [hy] at hL
          exact (List.cons.inj hL).1.symm
        subst hyx
        exact ⟨fun hp => by simp [hp.1] at hxs, fun hc => by simp [hc.1] at hxs⟩
      · rwa [show k + (l :: B ++ P).length = k + 1 + B.length + P.length by simp; omega]
    | none =>
      obtain ⟨body, m, hend⟩ : ∃ body m, blockEnd? x = some (body, m) := by
        cases hxe : blockEnd? x with
        | none => exact absurd ⟨hxs, hxe⟩ hx
        | some p => exact ⟨p.1, p.2, rfl⟩
      by_cases hm : m = n
      · -- the block closes under the name here
        subst hm
        let b : Block m := ⟨l, after, hstart, B, hB, x, body, hxs, hend⟩
        refine ⟨[], S, b, by simp [b, Block.lines], NoBlock.nil, ?_⟩
        rw [List.length_nil, Nat.add_zero, ← scan_block b .searching es k S]
        simpa [b, Block.lines] using hwhole
      · rw [scan_closing_other n es₂ _ x S hxs hend hm] at h
        obtain ⟨P, S', b, hL, hP, hd⟩ :=
          ih S.length (by simp [← hlen]; omega) S [] (k + 1 + B.length + 1) d h rfl
        refine ⟨l :: B ++ x :: P, S', b, by simp [hL],
          NoBlock.after_opening l hB (hP.cons hxs) ?_, ?_⟩
        · intro y Q' hy
          obtain ⟨rfl, -⟩ := List.cons.inj hy
          refine ⟨hx, fun hc => hm ?_⟩
          obtain ⟨-, body', hbody'⟩ := hc
          rw [hend] at hbody'
          exact (Prod.mk.inj (Option.some.inj hbody')).2
        · rwa [show k + (l :: B ++ x :: P).length = k + 1 + B.length + 1 + P.length by
            simp; omega]

theorem finishBlock_eq_ok {n : String} {es : List Entry} {d : Definition}
    (h : finishBlock n es = .ok d) : d = { name := n, entries := es } := by
  unfold finishBlock at h
  split_ifs at h
  cases h
  rfl

/-! ## The enum a header declares -/

/-- A parse that succeeds reads the first block of the header closed under the name: its
enumerators are the block's items in order, each on the line the item stands on, with a value
that fits a table, and every item of the forms of a value declares its name with the value the
form denotes, after the enumerators before it. When the lines before a block closed under the
name raise nothing and every item of the block is of the forms, the parse ends as the items
read one after another do: with the first item whose value lies outside 0..255, or with the
enum of all of them. -/
theorem parseEnum_reads_first_block (src n : String) :
    (∀ d, parseEnum src n = .ok d →
      ∃ (P S : List String) (b : Block n),
        stripLines false (lines src) = P ++ b.lines ++ S ∧ NoBlock n P ∧ d.name = n ∧
        d.entries.length = (b.items (P.length + 1)).length ∧
        ∀ i piece line, (b.items (P.length + 1))[i]? = some (piece, line) →
          ∃ e, d.entries[i]? = some e ∧ e.name = (itemParts piece).1 ∧ e.line = line ∧
            (e.value : Int) ≤ maxEnumValue ∧
            ∀ name v, ItemForm (d.entries.take i) piece.toList name v →
              e.name = name ∧ (e.value : Int) = v) ∧
    (∀ (P S : List String) (b : Block n) (r : Except Error (List Entry)),
      stripLines false (lines src) = P ++ b.lines ++ S →
      scan n .searching [] 1 P = .error (.notFound n) →
      Reading [] (b.items (P.length + 1)) r →
      parseEnum src n = r >>= finishBlock n) := by
  refine ⟨fun d hd => ?_, fun P S b r hls hP hr => ?_⟩
  · obtain ⟨P, S, b, hls, hP, hfold⟩ := scan_searching_ok n _ [] 1 d hd
    rw [Nat.add_comm 1 P.length] at hfold
    obtain ⟨es, hes, hfin⟩ := bind_eq_ok_iff.1 hfold
    obtain rfl := finishBlock_eq_ok hfin
    obtain ⟨-, hlen, hitems⟩ := foldlM_addItem_eq_ok _ [] es hes
    refine ⟨P, S, b, hls, hP, rfl, by simpa using hlen, fun i piece line hi => ?_⟩
    obtain ⟨e, he, hentry⟩ := hitems i piece line hi
    rw [List.length_nil, Nat.zero_add] at he hentry
    obtain ⟨hname, hline, hmax⟩ := parseEntry_eq_ok hentry
    exact ⟨e, he, hname, hline, hmax, fun name v hf => parseEntry_eq_ok_of_itemForm hf hentry⟩
  · unfold parseEnum
    rw [hls, List.append_assoc, scan_append_of_notFound n _ P .searching [] 1 hP, scan_block,
      foldlM_addItem_of_reading (Nat.add_comm P.length 1 ▸ hr)]

/-- A block whose items are a hexadecimal constant and a name alone is read as a compiler
reads it: `A = 0x1F, B` declares 31 and 32. -/
theorem hex_then_implicit_item_read :
    parseEnum "typedef enum \x7b\n A = 0x1F, B\n\x7d e_t;\n" "e_t" =
      .ok ⟨"e_t", [⟨"A", 31, 2⟩, ⟨"B", 32, 2⟩]⟩ := by
  let b : Block "e_t" :=
    ⟨"typedef enum \x7b", "", by decide +kernel, [" A = 0x1F, B"], by decide +kernel, "\x7d e_t;", "",
      by decide +kernel, by decide +kernel⟩
  have hlines : stripLines false (lines "typedef enum \x7b\n A = 0x1F, B\n\x7d e_t;\n") =
      [] ++ b.lines ++ [] := by decide +kernel
  have hitems : b.items ([] : List String).length.succ = [("A = 0x1F", 2), ("B", 2)] := by
    decide +kernel
  have hA : ItemForm [] "A = 0x1F".toList "A" 31 := by
    have hatom : Atom [] ('0' :: 'x' :: ['1', 'F'] ++ []) (numeral 16 ['1', 'F']) :=
      .hex (.inl rfl) (by simp) (by simp [isHexDigit_iff_toNat]) (by simp) (by decide +kernel)
    have hform : ValueForm [] [' ', '0', 'x', '1', 'F'] (numeral 16 ['1', 'F']) :=
      .atom hatom (.bare (by decide +kernel : Blanks [' ']) (by decide +kernel : Blanks []))
    have hvalue : (numeral 16 ['1', 'F'] : Int) = 31 := by decide +kernel
    have htext : "A = 0x1F".toList = "A".toList ++ [' '] ++ '=' :: [' ', '0', 'x', '1', 'F'] := by
      decide +kernel
    rw [htext, ← hvalue]
    exact .explicit (by decide +kernel) (by decide +kernel) hform
  have hB : ItemForm [⟨"A", (31 : Int).toNat, 2⟩] "B".toList "B" 32 := by
    have hnext : nextValue [⟨"A", (31 : Int).toNat, 2⟩] = 32 := by decide +kernel
    rw [← hnext]
    exact .implicit (by decide +kernel)
  have hreading : Reading [] [("A = 0x1F", 2), ("B", 2)]
      (.ok [⟨"A", (31 : Int).toNat, 2⟩, ⟨"B", (32 : Int).toNat, 2⟩]) :=
    .next hA (by decide) (by decide) (.next hB (by decide) (by decide) .done)
  rw [(parseEnum_reads_first_block _ _).2 [] [] b _ hlines rfl (hitems ▸ hreading)]
  rfl

/-- A constant with a leading zero is read in decimal: `010` is ten, where C reads eight. -/
theorem octal_constant_read_as_decimal :
    parseEnum "typedef enum \x7b\n A = 010\n\x7d e_t;\n" "e_t" = .ok ⟨"e_t", [⟨"A", 10, 2⟩]⟩ := by
  decide +kernel

end VoiceBench.Codegen
