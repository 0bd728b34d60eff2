import Mathlib
import VoiceBench.Proofs.Codegen.Scan
import VoiceBench.Proofs.Codegen.Table
import VoiceBench.Proofs.Codegen.Values

/-!
# Stale headers

A header is checked against a table by comparing its lines with those of the table's header
once every blank inside a line is removed (`headersEquivalent`). The check is exact for tables
of parsed enums: two such tables render equivalent headers under one enum name exactly when
they are equal, that is when their 256 slots agree (`headersEquivalent_iff_same_table`).

The argument follows the layout of a header. Its text is a fixed top, which names the enum,
then one line per slot and a closing line (`lines_renderHeader`); the top is the same in both
headers, so only the slot lines are compared. A slot line is the slot's name between a quote
and a quote and comma, and squashing it keeps the name whole when the name holds no blank
(`squashLine_slotLine`). Every slot of a parsed enum's table is `UNUSED_ENUM` or an
enumerator's identifier (`mem_slots_ofDefinition`), and neither holds a blank or a line feed,
so squashing loses nothing and the comparison sees each slot's name.
-/

namespace VoiceBench.Codegen

open Text

/-! ## The lines of a header -/

/-- The header above the slots: the banner, the comment naming the enum, the declaration of
the array and its opening brace. -/
def headerTop (enumName : String) : String :=
  let banner := "/*********************************/\n"
  banner ++ "/* AUTOGENERATED. DO NOT MODIFY! */\n" ++ banner ++ "\n" ++
    s!"// {enumName} enum value to enum string mapping\n" ++
    s!"const char *{arrayName enumName}[] =\n" ++ "\x7b\n"

/-- The line of a slot, without its line feed. -/
def slotLine (name : String) : String := "    \"" ++ name ++ "\","

/-- A header is its top, one line per slot and the closing line. -/
theorem renderHeader_eq (t : Table) (n : String) :
    renderHeader t n =
      headerTop n ++ (String.join (t.slots.map fun x => slotLine x ++ "\n") ++ "\x7d;\n") := by
  have hslot : (fun name => s!"    \"{name}\",\n") = fun x => slotLine x ++ "\n" := by
    funext x
    show "    \"" ++ x ++ "\",\n" = _
    simp [slotLine, String.append_assoc]
  have hrender : renderHeader t n = headerTop n ++
      String.join (t.slots.map fun name => s!"    \"{name}\",\n") ++ "\x7d;\n" := by
    unfold renderHeader headerTop
    rfl
  rw [hrender, hslot, String.append_assoc]

/-- The top of a header ends with a line feed. -/
theorem headerTop_getLast (n : String) : (headerTop n).toList.getLast? = some '\n' := by
  have hbrace : "\x7b\n".toList = ['\x7b', '\n'] := by simp
  unfold headerTop
  rw [String.toList_append, hbrace, List.getLast?_append_of_ne_nil _ (by simp)]
  rfl

/-- The lines of a text that ends with a line feed, followed by more text, are its own lines
followed by those of the rest. -/
theorem lines_append_of_getLast {s : String} (hs : s.toList.getLast? = some '\n') (src : String) :
    lines (s ++ src) = lines s ++ lines src := by
  have hfeed : s = String.ofList s.toList.dropLast ++ "\n" := by
    rw [← String.toList_inj, String.toList_append, String.toList_ofList]
    simpa using (List.dropLast_append_getLast? _ hs).symm
  rw [hfeed]
  exact lines_append _ _

/-- A line followed by a line feed is one line, without a carriage return that ended it. -/
theorem lines_line_feed {l : String} (hl : '\n' ∉ l.toList) :
    lines (l ++ "\n") = [dropReturn l] := by
  have h : (l ++ "\n").toList = l.toList ++ '\n' :: [] := by simp
  simp [lines, h, List.splitOn_append_cons_self_of_not_mem hl]

/-- A line that ends with a character other than a carriage return keeps it. -/
theorem dropReturn_of_toList {l : String} {p : List Char} {c : Char} (hl : l.toList = p ++ [c])
    (hc : c ≠ '\r') : dropReturn l = l := by
  have hend : ¬ ['\r'] <:+ l.toList := by
    rw [hl, List.singleton_suffix_append_singleton_iff]
    exact fun h => hc h.symm
  simp [dropReturn, ← String.endsWith_toSlice, hend]

theorem toList_slotLine (x : String) :
    (slotLine x).toList = (' ' :: ' ' :: ' ' :: ' ' :: '"' :: x.toList ++ ['"']) ++ [','] := by
  simp [slotLine]

/-- The text after the top of a header: a line per slot, then the closing line, for slots that
hold no line feed. -/
theorem lines_slots (xs : List String) (h : ∀ x ∈ xs, '\n' ∉ x.toList) :
    lines (String.join (xs.map fun x => slotLine x ++ "\n") ++ "\x7d;\n") =
      xs.map slotLine ++ ["\x7d;"] := by
  induction xs with
  | nil =>
    have hclose : "\x7d;\n" = "\x7d;" ++ "\n" := by simp
    rw [List.map_nil, String.join_nil, String.empty_append, hclose,
      lines_line_feed (by simp), dropReturn_of_toList (p := ['\x7d']) (c := ';') (by simp) (by decide)]
    rfl
  | cons x xs ih =>
    have hx : '\n' ∉ (slotLine x).toList := by
      have := h x (by simp)
      simp [slotLine, this]
    rw [List.map_cons, String.join_cons, String.append_assoc, lines_append,
      lines_line_feed hx, dropReturn_of_toList (toList_slotLine x) (by decide),
      ih fun y hy => h y (by simp [hy])]
    rfl

/-- The lines of a header whose slots hold no line feed: those of its top, one per slot, and the
closing line. -/
theorem lines_renderHeader (t : Table) (n : String) (h : ∀ x ∈ t.slots, '\n' ∉ x.toList) :
    lines (renderHeader t n) = lines (headerTop n) ++ (t.slots.map slotLine ++ ["\x7d;"]) := by
  rw [renderHeader_eq, lines_append_of_getLast (headerTop_getLast n), lines_slots _ h]

/-! ## Lines without blanks -/

/-- A line with its blanks removed, as headers are compared. -/
def squashLine (l : String) : String := String.ofList (l.toList.filter fun c => !isBlank c)

theorem squash_eq_map (s : String) : squash s = (lines s).map squashLine := rfl

/-- Removing the blanks of a text without blanks keeps it. -/
theorem filter_of_solid {cs : List Char} (h : Solid cs) : cs.filter (fun c => !isBlank c) = cs :=
  List.filter_eq_self.2 fun c hc => by simp [h c hc]

/-- A text without blanks holds no line feed. -/
theorem feed_not_mem_of_solid {cs : List Char} (h : Solid cs) : '\n' ∉ cs := fun hc =>
  absurd (h '\n' hc) (by decide)

/-- The squashed line of a slot keeps the slot's name whole when the name holds no blank. -/
theorem squashLine_slotLine {x : String} (hx : Solid x.toList) :
    squashLine (slotLine x) = String.ofList ('"' :: x.toList ++ ['"', ',']) := by
  have hspace : isBlank ' ' = true := by decide
  have hquote : isBlank '"' = false := by decide
  have hcomma : isBlank ',' = false := by decide
  rw [squashLine, toList_slotLine, List.filter_append, List.filter_append]
  simp only [List.filter_cons, filter_of_solid hx, hspace, hquote, hcomma]
  simp

/-- Names without blanks are told apart by their squashed slot lines. -/
theorem map_squashLine_slotLine_inj {xs ys : List String} (hx : ∀ x ∈ xs, Solid x.toList)
    (hy : ∀ y ∈ ys, Solid y.toList) :
    (xs.map slotLine).map squashLine = (ys.map slotLine).map squashLine ↔ xs = ys := by
  refine ⟨fun h => ?_, fun h => h ▸ rfl⟩
  induction xs generalizing ys with
  | nil => cases ys <;> simp_all
  | cons x xs ih =>
    rcases ys with _ | ⟨y, ys⟩
    · simp at h
    · simp only [List.map_cons, List.cons.injEq] at h
      have hxy : x = y := by
        have hl := congrArg String.toList h.1
        rw [squashLine_slotLine (hx x (by simp)), squashLine_slotLine (hy y (by simp))] at hl
        simpa [← String.toList_inj] using hl
      rw [hxy, ih (fun x' hx' => hx x' (by simp [hx'])) (fun y' hy' => hy y' (by simp [hy'])) h.2]

/-- Two headers of tables whose slots hold no blank are equivalent exactly when the tables are
equal: the tops agree, and each slot's name survives the squashing of its line. -/
theorem headersEquivalent_renderHeader_iff {t u : Table} (ht : ∀ x ∈ t.slots, Solid x.toList)
    (hu : ∀ x ∈ u.slots, Solid x.toList) (n : String) :
    headersEquivalent (renderHeader t n) (renderHeader u n) = true ↔ t = u := by
  have hft := fun x hx => feed_not_mem_of_solid (ht x hx)
  have hfu := fun x hx => feed_not_mem_of_solid (hu x hx)
  rw [headersEquivalent, beq_iff_eq, squash_eq_map, squash_eq_map, lines_renderHeader t n hft,
    lines_renderHeader u n hfu]
  simp only [List.map_append, List.append_cancel_left_eq, List.append_cancel_right_eq]
  rw [map_squashLine_slotLine_inj ht hu]
  cases t
  cases u
  simp

/-! ## The slots of a parsed enum -/

/-- Every slot of a table holds `UNUSED_ENUM` or the name of one of the enumerators. -/
theorem mem_slots_ofDefinition {d : Definition} {x : String}
    (hx : x ∈ (Table.ofDefinition d).slots) : x = unusedName ∨ ∃ e ∈ d.entries, e.name = x := by
  rw [slots_ofDefinition] at hx
  refine List.foldlRecOn (motive := fun slots => ∀ x ∈ slots, x = unusedName ∨
    ∃ e ∈ d.entries, e.name = x) d.entries writeSlot
    (fun x hx => .inl (List.eq_of_mem_replicate hx)) ?_ x hx
  intro slots hslots e he x hx
  rcases List.mem_or_eq_of_mem_set hx with hx | rfl
  · exact hslots x hx
  · exact .inr ⟨e, he, rfl⟩

/-- An identifier holds no blank. -/
theorem solid_of_isIdentifier {s : String} (h : isIdentifier s = true) : Solid s.toList := by
  intro c hc
  have := isIdentifier_ranges h c hc
  exact isBlank_of_printable (by omega) (by omega)

/-- An enumerator of a parsed enum is named by an identifier. -/
theorem isIdentifier_of_parseEntry {piece : String} {line : Nat} {prev : List Entry} {e : Entry}
    (h : parseEntry piece line prev = .ok e) : isIdentifier e.name = true := by
  have hname := (parseEntry_eq_ok h).1
  rcases hparts : itemParts piece with ⟨name, valueText⟩
  rw [hparts] at hname
  simp only [parseEntry, hparts] at h
  split_ifs at h with hid
  simpa [hname] using hid

/-- No slot of a parsed enum's table holds a blank. -/
theorem solid_of_mem_slots {src n : String} {d : Definition} (h : parseEnum src n = .ok d) :
    ∀ x ∈ (Table.ofDefinition d).slots, Solid x.toList := by
  intro x hx
  rcases mem_slots_ofDefinition hx with rfl | ⟨e, he, rfl⟩
  · simp [Solid, unusedName, isBlank]
  · obtain ⟨piece, line, prev, hread⟩ := exists_parseEntry_of_parseEnum h e he
    exact solid_of_isIdentifier (isIdentifier_of_parseEntry hread)

/-- Two tables of 256 slots are equal exactly when each value's slot agrees. -/
theorem ofDefinition_eq_iff_get (d₁ d₂ : Definition) :
    Table.ofDefinition d₁ = Table.ofDefinition d₂ ↔
      ∀ v < tableSize, (Table.ofDefinition d₁).get v = (Table.ofDefinition d₂).get v := by
  refine ⟨fun h v _ => h ▸ rfl, fun h => ?_⟩
  have hlen₁ := length_ofDefinition d₁
  have hlen₂ := length_ofDefinition d₂
  cases ht₁ : Table.ofDefinition d₁ with
  | mk s₁ =>
    cases ht₂ : Table.ofDefinition d₂ with
    | mk s₂ =>
      rw [ht₁] at hlen₁ h
      rw [ht₂] at hlen₂ h
      congr 1
      refine List.ext_getElem (by rw [hlen₁, hlen₂]) fun v hv₁ hv₂ => ?_
      have := h v (hlen₁ ▸ hv₁)
      simpa [Table.get, List.getD_eq_getElem?_getD, hv₁, hv₂] using this

/-- Stale-header detection is exact. For tables of parsed enums, the headers rendered under one
enum name are equivalent exactly when the tables are equal, and the tables are equal exactly
when all 256 slots agree. -/
theorem headersEquivalent_iff_same_table {src₁ src₂ n₁ n₂ : String} {d₁ d₂ : Definition}
    (h₁ : parseEnum src₁ n₁ = .ok d₁) (h₂ : parseEnum src₂ n₂ = .ok d₂) (n : String) :
    (headersEquivalent (renderHeader (Table.ofDefinition d₁) n)
        (renderHeader (Table.ofDefinition d₂) n) = true ↔
      Table.ofDefinition d₁ = Table.ofDefinition d₂) ∧
    (Table.ofDefinition d₁ = Table.ofDefinition d₂ ↔
      ∀ v < tableSize, (Table.ofDefinition d₁).get v = (Table.ofDefinition d₂).get v) :=
  ⟨headersEquivalent_renderHeader_iff (solid_of_mem_slots h₁) (solid_of_mem_slots h₂) n,
    ofDefinition_eq_iff_get d₁ d₂⟩

/-- An enum with `A` at 0 and one with `A` at 1: their headers differ in two slots and are not
equivalent. -/
theorem moved_enumerator_header_stale :
    parseEnum "typedef enum \x7b\n A\n\x7d e_t;\n" "e_t" = .ok ⟨"e_t", [⟨"A", 0, 2⟩]⟩ ∧
    parseEnum "typedef enum \x7b\n A = 1\n\x7d e_t;\n" "e_t" = .ok ⟨"e_t", [⟨"A", 1, 2⟩]⟩ ∧
    ((headersEquivalent (renderHeader (Table.ofDefinition ⟨"e_t", [⟨"A", 0, 2⟩]⟩) "e_t")
        (renderHeader (Table.ofDefinition ⟨"e_t", [⟨"A", 1, 2⟩]⟩) "e_t") = true ↔
      Table.ofDefinition ⟨"e_t", [⟨"A", 0, 2⟩]⟩ = Table.ofDefinition ⟨"e_t", [⟨"A", 1, 2⟩]⟩) ∧
    (Table.ofDefinition ⟨"e_t", [⟨"A", 0, 2⟩]⟩ = Table.ofDefinition ⟨"e_t", [⟨"A", 1, 2⟩]⟩ ↔
      ∀ v < tableSize, (Table.ofDefinition ⟨"e_t", [⟨"A", 0, 2⟩]⟩).get v =
        (Table.ofDefinition ⟨"e_t", [⟨"A", 1, 2⟩]⟩).get v)) := by
  have h₁ : parseEnum "typedef enum \x7b\n A\n\x7d e_t;\n" "e_t" = .ok ⟨"e_t", [⟨"A", 0, 2⟩]⟩ := by
    decide +kernel
  have h₂ : parseEnum "typedef enum \x7b\n A = 1\n\x7d e_t;\n" "e_t" =
      .ok ⟨"e_t", [⟨"A", 1, 2⟩]⟩ := by
    decide +kernel
  exact ⟨h₁, h₂, headersEquivalent_iff_same_table h₁ h₂ "e_t"⟩

end VoiceBench.Codegen
