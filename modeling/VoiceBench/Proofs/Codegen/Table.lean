import Mathlib
import VoiceBench.Codegen.Table
import VoiceBench.Proofs.Codegen.Blocks

/-!
# What a lookup table holds

A lookup table is built by writing each enumerator's name into the slot of its value, in
declaration order, over 256 slots that start out as `UNUSED_ENUM`. So the table keeps its 256
slots (`length_foldl_write`), and a slot holds the name of the last enumerator declared with its
value, or `UNUSED_ENUM` when there is none (`getElem?_foldl_write`, `get_ofDefinition`): the last
write wins. Every value a parsed enum declares is a slot of the table
(`value_lt_of_parseEnum`).

The used slots are recovered from the table alone, by comparing each name with `UNUSED_ENUM`
(`mem_used`), in increasing order of value (`used_values_increasing`). An enumerator that is
itself named `UNUSED_ENUM` cannot be told from an unused slot, so its value is missing from the
used slots (`sentinel_named_enumerator_unused`); every other declared value is there with its
name (`ofDefinition_lookup`).
-/

namespace VoiceBench.Codegen

/-- The name of the last entry declared with a value, if any entry declares it. -/
def Definition.lastNamed (d : Definition) (v : Nat) : Option String :=
  (d.entries.reverse.find? (·.value == v)).map (·.name)

/-- A value is declared exactly when some entry is last declared with it. -/
theorem Definition.lastNamed_isSome (d : Definition) (v : Nat) :
    (d.lastNamed v).isSome ↔ ∃ e ∈ d.entries, e.value = v := by
  simp [Definition.lastNamed, List.find?_isSome]

/-- Writing an entry's name into the slot of its value. -/
def writeSlot (slots : List String) (e : Entry) : List String := slots.set e.value e.name

/-- Writing entries into slots keeps the number of slots. -/
theorem length_foldl_write (es : List Entry) (slots : List String) :
    (es.foldl writeSlot slots).length = slots.length := by
  induction es generalizing slots with
  | nil => rfl
  | cons e es ih => rw [List.foldl_cons, ih, writeSlot, List.length_set]

/-- After entries are written in order, a slot holds the name of the last entry with its value,
or what it held before when no entry has that value. -/
theorem getElem?_foldl_write (es : List Entry) (slots : List String) {v : Nat}
    (hv : v < slots.length) :
    (es.foldl writeSlot slots)[v]? =
      ((es.reverse.find? (·.value == v)).map (·.name)).or slots[v]? := by
  -- by induction from the end of the list: the last entry written is the first one found
  induction es using List.reverseRecOn with
  | nil => simp
  | append_singleton es e ih =>
    have hlen : v < (es.foldl writeSlot slots).length := by rwa [length_foldl_write]
    rw [List.foldl_append, List.foldl_cons, List.foldl_nil, writeSlot, List.getElem?_set,
      List.reverse_append, List.reverse_singleton, List.singleton_append, List.find?_cons]
    by_cases he : e.value = v
    · simp [he, hlen]
    · have hskip : (e.value == v) = false := beq_false_of_ne he
      simp [he, hskip, ih]

/-- A table's slots are the entries written over unused slots. -/
theorem slots_ofDefinition (d : Definition) :
    (Table.ofDefinition d).slots = d.entries.foldl writeSlot (List.replicate tableSize unusedName) :=
  rfl

/-- A table has one slot per byte value. -/
theorem length_ofDefinition (d : Definition) : (Table.ofDefinition d).slots.length = tableSize := by
  rw [slots_ofDefinition, length_foldl_write, List.length_replicate]

/-- A byte value's slot names the last enumerator declared with that value, or is unused. -/
theorem get_ofDefinition (d : Definition) {v : Nat} (hv : v < tableSize) :
    (Table.ofDefinition d).get v = (d.lastNamed v).getD unusedName := by
  have hslot := getElem?_foldl_write d.entries (List.replicate tableSize unusedName)
    (by rwa [List.length_replicate])
  rw [Table.get, slots_ofDefinition, List.getD_eq_getElem?_getD, hslot,
    List.getElem?_replicate, if_pos hv, Definition.lastNamed]
  cases (d.entries.reverse.find? (·.value == v)).map (·.name) <;> rfl

/-- Every enumerator of a parsed enum was read from an item of its block. -/
theorem exists_parseEntry_of_parseEnum {src n : String} {d : Definition}
    (h : parseEnum src n = .ok d) :
    ∀ e ∈ d.entries, ∃ piece line prev, parseEntry piece line prev = .ok e := by
  obtain ⟨P, S, b, -, -, hfold⟩ := scan_searching_ok n _ [] 1 d h
  obtain ⟨es, hes, hfin⟩ := bind_eq_ok_iff.1 hfold
  obtain rfl := finishBlock_eq_ok hfin
  obtain ⟨-, hlen, hitems⟩ := foldlM_addItem_eq_ok _ [] es hes
  intro e he
  obtain ⟨i, hi, rfl⟩ := List.getElem_of_mem he
  have hitem : i < (b.items (1 + P.length)).length := by simpa [hlen] using hi
  obtain ⟨e', he', hread⟩ := hitems i _ _ (List.getElem?_eq_getElem hitem)
  rw [List.length_nil, Nat.zero_add, List.getElem?_eq_getElem hi, Option.some.injEq] at he'
  exact ⟨_, _, _, he' ▸ hread⟩

/-- Every value a parsed enum declares is a slot of a table. -/
theorem value_lt_of_parseEnum {src n : String} {d : Definition} (h : parseEnum src n = .ok d) :
    ∀ e ∈ d.entries, e.value < tableSize := by
  intro e he
  obtain ⟨piece, line, prev, hread⟩ := exists_parseEntry_of_parseEnum h e he
  have hmax := (parseEntry_eq_ok hread).2.2
  simp only [maxEnumValue, tableSize] at hmax ⊢
  omega

/-! ## The used slots -/

/-- A pair is a used slot exactly when the table's slot at the value holds the name and the
name is not `UNUSED_ENUM`. -/
theorem mem_used (t : Table) (v : Nat) (name : String) :
    (v, name) ∈ t.used ↔ t.slots[v]? = some name ∧ name ≠ unusedName := by
  simp only [Table.used, List.mem_map, List.mem_filter, bne_iff_ne, ne_eq, Prod.mk.injEq]
  constructor
  · rintro ⟨⟨name', v'⟩, ⟨hmem, hne⟩, rfl, rfl⟩
    exact ⟨List.mem_zipIdx_iff_getElem?.1 hmem, hne⟩
  · rintro ⟨hslot, hne⟩
    exact ⟨(name, v), ⟨List.mem_zipIdx_iff_getElem?.2 hslot, hne⟩, rfl, rfl⟩

/-- The positions a list is numbered with from `k` on increase along it. -/
theorem zipIdx_positions_increasing {α : Type} :
    ∀ (l : List α) (k : Nat), (l.zipIdx k).Pairwise fun a b => a.2 < b.2
  | [], _ => List.Pairwise.nil
  | a :: l, k => by
    rw [List.zipIdx_cons, List.pairwise_cons]
    refine ⟨fun b hb => ?_, zipIdx_positions_increasing l (k + 1)⟩
    obtain ⟨hle, -, -⟩ := List.mem_zipIdx (x := b.1) (i := b.2) hb
    omega

/-- The used slots are listed in increasing order of value. -/
theorem used_values_increasing (t : Table) : (t.used.map Prod.fst).Pairwise (· < ·) := by
  rw [Table.used, List.map_map, List.pairwise_map]
  exact (zipIdx_positions_increasing t.slots 0).filter _

/-- The table of a parsed enum. It has 256 slots, each value declared by the enum is one of
them, and the slot of a byte value names the last enumerator declared with that value, or is
`UNUSED_ENUM`. The used slots are listed in increasing order of value, and they are exactly the
pairs of a value that some enumerator declares and the name in its slot, except where that name
is `UNUSED_ENUM` itself. -/
theorem ofDefinition_lookup {src n : String} {d : Definition} (h : parseEnum src n = .ok d) :
    (∀ e ∈ d.entries, e.value < tableSize) ∧
    (Table.ofDefinition d).slots.length = tableSize ∧
    (∀ v < tableSize, (Table.ofDefinition d).get v = (d.lastNamed v).getD unusedName) ∧
    (∀ v name, (v, name) ∈ (Table.ofDefinition d).used ↔
      (∃ e ∈ d.entries, e.value = v) ∧ name = (Table.ofDefinition d).get v ∧
        name ≠ unusedName) ∧
    ((Table.ofDefinition d).used.map Prod.fst).Pairwise (· < ·) := by
  have hvalues := value_lt_of_parseEnum h
  refine ⟨hvalues, length_ofDefinition d, fun v hv => get_ofDefinition d hv,
    fun v name => ?_, used_values_increasing _⟩
  rw [mem_used]
  constructor
  · rintro ⟨hslot, hne⟩
    have hv : v < tableSize := by
      have := (List.getElem?_eq_some_iff.1 hslot).1
      rwa [length_ofDefinition] at this
    have hget : (Table.ofDefinition d).get v = name := by
      rw [Table.get, List.getD_eq_getElem?_getD, hslot, Option.getD_some]
    rw [get_ofDefinition d hv] at hget
    cases hlast : d.lastNamed v with
    | none => rw [hlast, Option.getD_none] at hget; exact absurd hget.symm hne
    | some name' =>
      refine ⟨(d.lastNamed_isSome v).1 (by rw [hlast]; rfl), ?_, hne⟩
      rw [get_ofDefinition d hv, hlast]
      rw [hlast, Option.getD_some] at hget
      exact hget.symm
  · rintro ⟨⟨e, he, rfl⟩, rfl, hne⟩
    refine ⟨?_, hne⟩
    rw [Table.get, List.getD_eq_getElem?_getD]
    have hlen : e.value < (Table.ofDefinition d).slots.length := by
      rw [length_ofDefinition]
      exact hvalues e he
    rw [List.getElem?_eq_getElem hlen, Option.getD_some]

/-- Two enumerators of one value: the table keeps the second. -/
theorem duplicate_value_keeps_last_table :
    parseEnum "typedef enum \x7b\n A = 2,\n B = 2\n\x7d e_t;\n" "e_t" =
        .ok ⟨"e_t", [⟨"A", 2, 2⟩, ⟨"B", 2, 3⟩]⟩ ∧
      ((∀ e ∈ [(⟨"A", 2, 2⟩ : Entry), ⟨"B", 2, 3⟩], e.value < tableSize) ∧
      (Table.ofDefinition ⟨"e_t", [⟨"A", 2, 2⟩, ⟨"B", 2, 3⟩]⟩).slots.length = tableSize ∧
      (∀ v < tableSize, (Table.ofDefinition ⟨"e_t", [⟨"A", 2, 2⟩, ⟨"B", 2, 3⟩]⟩).get v =
        (Definition.lastNamed ⟨"e_t", [⟨"A", 2, 2⟩, ⟨"B", 2, 3⟩]⟩ v).getD unusedName) ∧
      (∀ v name, (v, name) ∈ (Table.ofDefinition ⟨"e_t", [⟨"A", 2, 2⟩, ⟨"B", 2, 3⟩]⟩).used ↔
        (∃ e ∈ [(⟨"A", 2, 2⟩ : Entry), ⟨"B", 2, 3⟩], e.value = v) ∧
          name = (Table.ofDefinition ⟨"e_t", [⟨"A", 2, 2⟩, ⟨"B", 2, 3⟩]⟩).get v ∧
          name ≠ unusedName) ∧
      ((Table.ofDefinition ⟨"e_t", [⟨"A", 2, 2⟩, ⟨"B", 2, 3⟩]⟩).used.map Prod.fst).Pairwise
        (· < ·)) := by
  have hparse : parseEnum "typedef enum \x7b\n A = 2,\n B = 2\n\x7d e_t;\n" "e_t" =
      .ok ⟨"e_t", [⟨"A", 2, 2⟩, ⟨"B", 2, 3⟩]⟩ := by
    decide +kernel
  exact ⟨hparse, ofDefinition_lookup hparse⟩

/-- An enumerator named `UNUSED_ENUM` declares value 0, yet the table lists no used slot. -/
theorem sentinel_named_enumerator_unused :
    parseEnum "typedef enum \x7b\n UNUSED_ENUM\n\x7d e_t;\n" "e_t" =
        .ok ⟨"e_t", [⟨"UNUSED_ENUM", 0, 2⟩]⟩ ∧
      (Table.ofDefinition ⟨"e_t", [⟨"UNUSED_ENUM", 0, 2⟩]⟩).used = [] := by
  decide +kernel

end VoiceBench.Codegen
