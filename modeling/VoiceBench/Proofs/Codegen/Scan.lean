import Mathlib
import VoiceBench.Codegen.Enum

/-!
# Scanning a header line by line

Three facts about the line scan of `parseEnum`, each by induction over the lines.

* Line numbers only label entries and errors: scanning the same lines numbered `m` further
  down gives the same result with every line number moved by `m` (`scan_shift`).
* While searching, the scan carries no state worth keeping: the entries it holds are never read
  (`scan_searching_entries`).
* Lines that the scan runs through without finding the enum and without an error leave it
  searching, so what follows is scanned as if they were not there (`scan_append_of_notFound`).

With the line and comment rules of a header text (`lines_append`, `stripLines_append`), text
before a header therefore changes nothing but the line numbers, as long as parsing that text
alone finds no enum of the name and meets no malformed or out-of-range enumerator
(`parseEnum_append_of_notFound`). The condition is needed: the scan collects and checks the
enumerators of every block it passes through, even of a block closed under another name, and
the first bad one ends the parse (`unrelated_block_out_of_range_aborts`).
-/

namespace VoiceBench.Codegen

open Text

/-! ## Moving line numbers -/

/-- An entry declared `m` lines further down. -/
def Entry.shift (m : Nat) (e : Entry) : Entry := { e with line := e.line + m }

/-- A definition whose entries are declared `m` lines further down. -/
def Definition.shift (m : Nat) (d : Definition) : Definition :=
  { d with entries := d.entries.map (Entry.shift m) }

/-- A failure reported `m` lines further down; failures without a line stay as they are. -/
def Error.shift (m : Nat) : Error → Error
  | .unterminated n l => .unterminated n (l + m)
  | .malformedEntry l t => .malformedEntry (l + m) t
  | .negativeValue n v l => .negativeValue n v (l + m)
  | .valueOutOfRange n v l => .valueOutOfRange n v (l + m)
  | e => e

/-- The scan state of a block opened `m` lines further down. -/
def Scan.shift (m : Nat) : Scan → Scan
  | .searching => .searching
  | .inBlock l => .inBlock (l + m)

@[simp] theorem Scan.shift_searching (m : Nat) : Scan.searching.shift m = .searching := rfl

@[simp] theorem Scan.shift_inBlock (l m : Nat) : (Scan.inBlock l).shift m = .inBlock (l + m) := rfl

@[simp] theorem Entry.shift_zero (e : Entry) : e.shift 0 = e := rfl

@[simp] theorem Definition.shift_zero (d : Definition) : d.shift 0 = d := by
  have hid : Entry.shift 0 = id := funext Entry.shift_zero
  simp [Definition.shift, hid]

@[simp] theorem Error.shift_zero (e : Error) : e.shift 0 = e := by
  cases e <;> rfl

@[simp] theorem Entry.name_shift (m : Nat) (e : Entry) : (e.shift m).name = e.name := rfl

@[simp] theorem Entry.value_shift (m : Nat) (e : Entry) : (e.shift m).value = e.value := rfl

/-- A name is looked up by name alone, whatever lines the earlier entries were declared on. -/
theorem atomValue?_map_shift (prev : List Entry) (m : Nat) (t : String) :
    atomValue? (prev.map (Entry.shift m)) t = atomValue? prev t := by
  have hfind : ((prev.map (Entry.shift m)).find? (·.name == t)).map (fun e => (e.value : Int)) =
      (prev.find? (·.name == t)).map fun e => (e.value : Int) := by
    rw [List.find?_map, Option.map_map]
    rfl
  unfold atomValue?
  simp only [hfind]

/-- A value text means the same whatever lines the earlier entries were declared on. -/
theorem valueOf?_map_shift (prev : List Entry) (m : Nat) :
    ∀ fuel text, valueOf? (prev.map (Entry.shift m)) fuel text = valueOf? prev fuel text
  | 0, _ => rfl
  | fuel + 1, text => by
    have hinner : valueOf? (prev.map (Entry.shift m)) fuel = valueOf? prev fuel :=
      funext (valueOf?_map_shift prev m fuel)
    simp only [valueOf?, hinner]
    unfold signedValue?
    simp only [atomValue?_map_shift]

theorem itemValue?_map_shift (prev : List Entry) (m : Nat) (valueText : Option String) :
    itemValue? (prev.map (Entry.shift m)) valueText = itemValue? prev valueText := by
  cases valueText with
  | some text => exact valueOf?_map_shift prev m _ text
  | none => cases h : prev.getLast? <;> simp [itemValue?, List.getLast?_map, h]

/-- A checked value gives the same entry or failure, moved by `m` lines. -/
theorem checkedEntry_shift (piece name : String) (line m : Nat) (v : Option Int) :
    checkedEntry piece name (line + m) v =
      ((checkedEntry piece name line v).map (Entry.shift m)).mapError (Error.shift m) := by
  cases v with
  | none => rfl
  | some v =>
    simp only [checkedEntry]
    split_ifs <;> rfl

/-- An item declared `m` lines further down, after entries declared `m` lines further down,
is the same entry or failure moved by `m` lines. -/
theorem parseEntry_shift (piece : String) (line m : Nat) (prev : List Entry) :
    parseEntry piece (line + m) (prev.map (Entry.shift m)) =
      ((parseEntry piece line prev).map (Entry.shift m)).mapError (Error.shift m) := by
  unfold parseEntry
  obtain ⟨name, valueText⟩ := itemParts piece
  dsimp only
  rw [itemValue?_map_shift]
  split_ifs
  · rfl
  · exact checkedEntry_shift piece name line m _

/-! ## Items of a line -/

/-- The items of a line's text: its comma-separated pieces without their blanks, empty ones
dropped. -/
def items (text : String) : List String :=
  (((text.toList.splitOn ',').map String.ofList).map trim).filter (!·.isEmpty)

/-- The entries collected so far, with the one an item on the given line declares after them. -/
def addEntry (line : Nat) (acc : List Entry) (piece : String) : Except Error (List Entry) :=
  (parseEntry piece line acc).map (acc ++ [·])

/-- Collecting a line adds the entries of its items one after another. -/
theorem collectEntries_eq (text : String) (line : Nat) (es : List Entry) :
    collectEntries text line es = (items text).foldlM (addEntry line) es := by
  rw [collectEntries, items, List.foldlM_filter]
  simp only [List.foldlM_map]
  refine congrArg (fun f => List.foldlM f es _) (funext fun acc => funext fun raw => ?_)
  cases (trim (String.ofList raw)).isEmpty <;> simp [addEntry, pure, Except.pure]

/-- The items of one line, `m` lines further down, after entries `m` lines further down. -/
theorem foldlM_addEntry_shift (line m : Nat) :
    ∀ (pieces : List String) (es : List Entry),
      pieces.foldlM (addEntry (line + m)) (es.map (Entry.shift m)) =
        ((pieces.foldlM (addEntry line) es).map (List.map (Entry.shift m))).mapError
          (Error.shift m)
  | [], _ => rfl
  | piece :: rest, es => by
    simp only [List.foldlM_cons, addEntry, parseEntry_shift]
    cases parseEntry piece line es with
    | error e => rfl
    | ok e =>
      have hmap : es.map (Entry.shift m) ++ [e.shift m] = (es ++ [e]).map (Entry.shift m) := by
        simp
      simp only [Except.map, Except.mapError, bind, Except.bind, hmap]
      exact foldlM_addEntry_shift line m rest (es ++ [e])

theorem collectEntries_shift (text : String) (line m : Nat) (es : List Entry) :
    collectEntries text (line + m) (es.map (Entry.shift m)) =
      ((collectEntries text line es).map (List.map (Entry.shift m))).mapError (Error.shift m) := by
  simp only [collectEntries_eq, foldlM_addEntry_shift]

/-- An item is refused, if at all, for itself: never for want of an enum. -/
theorem parseEntry_ne_notFound (piece : String) (line : Nat) (es : List Entry) (n : String) :
    parseEntry piece line es ≠ .error (.notFound n) := by
  unfold parseEntry
  obtain ⟨name, valueText⟩ := itemParts piece
  dsimp only
  split_ifs
  · simp
  · cases itemValue? es valueText with
    | none => simp [checkedEntry]
    | some v =>
      simp only [checkedEntry]
      split_ifs <;> simp

/-- Collecting items fails, if at all, at an item: never for want of an enum. -/
theorem collectEntries_ne_notFound (text : String) (line : Nat) (es : List Entry) (n : String) :
    collectEntries text line es ≠ .error (.notFound n) := by
  rw [collectEntries_eq]
  induction items text generalizing es with
  | nil => simp [pure, Except.pure]
  | cons piece rest ih =>
    simp only [List.foldlM_cons, addEntry]
    cases h : parseEntry piece line es with
    | error e =>
      have hne := parseEntry_ne_notFound piece line es n
      rw [h] at hne
      simpa [Except.map, bind, Except.bind] using hne
    | ok e =>
      simpa [Except.map, bind, Except.bind] using ih (es ++ [e])

/-- A step after collecting items that ends without finding the enum collected them without
failing. -/
theorem collectEntries_bind_eq_notFound {text : String} {line : Nat} {es : List Entry}
    {n : String} {f : List Entry → Except Error Definition}
    (h : collectEntries text line es >>= f = .error (.notFound n)) :
    ∃ es', collectEntries text line es = .ok es' ∧ f es' = .error (.notFound n) := by
  cases hc : collectEntries text line es with
  | error e =>
    have he : e = .notFound n := by simpa [hc, bind, Except.bind] using h
    exact absurd (he ▸ hc) (collectEntries_ne_notFound text line es n)
  | ok es' => exact ⟨es', rfl, by simpa [hc, bind, Except.bind] using h⟩

/-! ## Moving a scan -/

/-- Scanning lines numbered `m` further down moves every line number of the result by `m`. -/
theorem scan_shift (n : String) (m : Nat) :
    ∀ (L : List String) (st : Scan) (es : List Entry) (k : Nat),
      scan n (st.shift m) (es.map (Entry.shift m)) (k + m) L =
        ((scan n st es k L).map (Definition.shift m)).mapError (Error.shift m)
  | [], st, _, _ => by cases st <;> rfl
  | line :: rest, st, es, k => by
    have hnext : k + m + 1 = k + 1 + m := by omega
    have hopen : ∀ after, blockStart? line = some after →
        (do
          let entries ← collectEntries after (k + m) []
          scan n (.inBlock (k + m)) entries (k + m + 1) rest) =
        (((do
          let entries ← collectEntries after k []
          scan n (.inBlock k) entries (k + 1) rest) : Except Error Definition).map
            (Definition.shift m)).mapError (Error.shift m) := by
      intro after _
      have hfirst := collectEntries_shift after k m []
      rw [List.map_nil] at hfirst
      rw [hfirst]
      cases collectEntries after k [] with
      | error e => rfl
      | ok es' =>
        simp only [Except.map, Except.mapError, bind, Except.bind, hnext]
        exact scan_shift n m rest (.inBlock k) es' (k + 1)
    cases st with
    | searching =>
      simp only [Scan.shift, scan]
      cases hstart : blockStart? line with
      | some after => exact hopen after hstart
      | none => simpa [hnext] using scan_shift n m rest .searching es (k + 1)
    | inBlock start =>
      simp only [Scan.shift, scan]
      cases hstart : blockStart? line with
      | some after => exact hopen after hstart
      | none =>
        cases hend : blockEnd? line with
        | some p =>
          obtain ⟨body, closed⟩ := p
          by_cases hn : closed = n
          · -- the closing line of the block: its items are the last ones
            simp only [hn, if_true, collectEntries_shift]
            cases collectEntries body k es with
            | error e => rfl
            | ok es' =>
              simp only [Except.map, Except.mapError, bind, Except.bind, List.isEmpty_map]
              split_ifs <;> rfl
          · simp only [hn, if_false, hnext]
            exact scan_shift n m rest .searching [] (k + 1)
        | none =>
          simp only [collectEntries_shift]
          cases collectEntries line k es with
          | error e => rfl
          | ok es' =>
            simp only [Except.map, Except.mapError, bind, Except.bind, hnext]
            exact scan_shift n m rest (.inBlock start) es' (k + 1)

/-! ## Searching and appending -/

/-- While searching, the entries carried along are never read. -/
theorem scan_searching_entries (n : String) :
    ∀ (L : List String) (es : List Entry) (k : Nat),
      scan n .searching es k L = scan n .searching [] k L
  | [], _, _ => rfl
  | line :: rest, es, k => by
    simp only [scan]
    cases blockStart? line with
    | some after => rfl
    | none => exact scan_searching_entries n rest es (k + 1)

/-- Lines the scan runs through without finding the enum and without failing leave it
searching: what follows them is scanned from there, as if it came first. -/
theorem scan_append_of_notFound (n : String) (S : List String) :
    ∀ (P : List String) (st : Scan) (es : List Entry) (k : Nat),
      scan n st es k P = .error (.notFound n) →
        scan n st es k (P ++ S) = scan n .searching [] (k + P.length) S
  | [], st, es, k, h => by
    cases st with
    | searching => simpa using scan_searching_entries n S es k
    | inBlock start => simp [scan] at h
  | line :: rest, st, es, k, h => by
    have hlen : k + 1 + rest.length = k + (line :: rest).length := by simp; omega
    have hopen : ∀ after, blockStart? line = some after →
        (do
          let entries ← collectEntries after k []
          scan n (.inBlock k) entries (k + 1) rest) = .error (.notFound n) →
        (do
          let entries ← collectEntries after k []
          scan n (.inBlock k) entries (k + 1) (rest ++ S)) =
          scan n .searching [] (k + (line :: rest).length) S := by
      intro after _ h
      obtain ⟨es', hc, h⟩ := collectEntries_bind_eq_notFound h
      simp only [hc, bind, Except.bind]
      rw [scan_append_of_notFound n S rest _ es' (k + 1) h, hlen]
    cases st with
    | searching =>
      simp only [List.cons_append, scan] at h ⊢
      cases hstart : blockStart? line with
      | some after =>
        simp only [hstart] at h ⊢
        exact hopen after hstart h
      | none =>
        simp only [hstart] at h ⊢
        rw [scan_append_of_notFound n S rest .searching es (k + 1) h, hlen]
    | inBlock start =>
      simp only [List.cons_append, scan] at h ⊢
      cases hstart : blockStart? line with
      | some after =>
        simp only [hstart] at h ⊢
        exact hopen after hstart h
      | none =>
        simp only [hstart] at h ⊢
        cases hend : blockEnd? line with
        | some p =>
          obtain ⟨body, closed⟩ := p
          simp only [hend] at h ⊢
          by_cases hn : closed = n
          · -- closing the enum ends the scan with the enum or its emptiness, never `notFound`
            simp only [hn, if_true] at h
            obtain ⟨es', -, h⟩ := collectEntries_bind_eq_notFound h
            cases hempty : es'.isEmpty <;> simp [hempty] at h
          · simp only [hn, if_false] at h ⊢
            rw [scan_append_of_notFound n S rest .searching [] (k + 1) h, hlen]
        | none =>
          simp only [hend] at h ⊢
          obtain ⟨es', hc, h⟩ := collectEntries_bind_eq_notFound h
          simp only [hc, bind, Except.bind]
          rw [scan_append_of_notFound n S rest _ es' (k + 1) h, hlen]

/-! ## Lines and comments of a text -/

/-- Whether a block comment is still open after the given lines. -/
def commentOpenAfter (inComment : Bool) (ls : List String) : Bool :=
  ls.foldl (fun c line => (stripLine c line).2) inComment

/-- The lines after others are stripped from the comment state those leave behind. -/
theorem stripLines_append (A B : List String) :
    ∀ inComment : Bool,
      stripLines inComment (A ++ B) =
        stripLines inComment A ++ stripLines (commentOpenAfter inComment A) B := by
  induction A with
  | nil => intro c; rfl
  | cons line rest ih =>
    intro c
    simp only [List.cons_append, stripLines, commentOpenAfter, List.foldl_cons] at ih ⊢
    rw [ih]

@[simp] theorem length_stripLines : ∀ (c : Bool) (ls : List String),
    (stripLines c ls).length = ls.length
  | _, [] => rfl
  | c, line :: rest => by simp [stripLines, length_stripLines _ rest]

/-- The lines of a text from its parts between line feeds: a carriage return ends every part
but the last, and an empty last part is no line. -/
def finishLines (parts : List String) : List String :=
  let ended := parts.dropLast.map dropReturn
  match parts.getLast? with
  | none => ended
  | some last => if last.isEmpty then ended else ended ++ [last]

theorem lines_eq_finishLines (s : String) :
    lines s = finishLines ((s.toList.splitOn '\n').map String.ofList) := rfl

/-- Parts before others are all ended by a line feed. -/
theorem finishLines_append (P Q : List String) (hQ : Q ≠ []) :
    finishLines (P ++ Q) = P.map dropReturn ++ finishLines Q := by
  unfold finishLines
  rw [List.dropLast_append_of_ne_nil hQ, List.getLast?_append_of_ne_nil _ hQ, List.map_append]
  split
  · rfl
  · split <;> simp

/-- The lines of a text that ends with a line feed, followed by more text, are its own lines
followed by those of the rest. -/
theorem lines_append (body src : String) :
    lines (body ++ "\n" ++ src) = lines (body ++ "\n") ++ lines src := by
  have htext : (body ++ "\n" ++ src).toList = body.toList ++ '\n' :: src.toList := by simp
  have hpre : (body ++ "\n").toList = body.toList ++ '\n' :: [] := by simp
  have hsrc : (src.toList.splitOn '\n').map String.ofList ≠ [] := by simp
  simp only [lines_eq_finishLines, htext, hpre, List.splitOn_append_cons_self, List.map_append]
  rw [finishLines_append _ _ hsrc, finishLines_append _ _ (by simp)]
  simp [finishLines]

/-! ## Text before a header -/

/-- Text of whole lines placed before a header, ending outside a block comment, changes nothing
but the line numbers of the parse, provided that text alone holds no enum of the name and no
malformed or out-of-range enumerator: parsing it alone finds nothing. -/
theorem parseEnum_append_of_notFound (pre src n : String)
    (hlines : pre = "" ∨ ∃ body, pre = body ++ "\n")
    (hcomment : commentOpenAfter false (lines pre) = false)
    (hpre : parseEnum pre n = .error (.notFound n)) :
    parseEnum (pre ++ src) n =
      ((parseEnum src n).map (Definition.shift (lines pre).length)).mapError
        (Error.shift (lines pre).length) := by
  rcases hlines with rfl | ⟨body, rfl⟩
  · have hnil : lines "" = [] := rfl
    simp only [String.empty_append, hnil, List.length_nil]
    cases parseEnum src n <;> simp [Except.map, Except.mapError]
  · unfold parseEnum at hpre ⊢
    rw [lines_append, stripLines_append, hcomment,
      scan_append_of_notFound n _ _ .searching [] 1 hpre, length_stripLines]
    exact scan_shift n _ _ .searching [] 1

/-- A block closed under another name, before a header, moves the enum three lines down. -/
theorem unrelated_block_moves_lines :
    parseEnum ("typedef enum \x7b\n X = 9\n\x7d other_t;\n" ++ "typedef enum \x7b\n A\n\x7d e_t;\n") "e_t" =
      ((parseEnum "typedef enum \x7b\n A\n\x7d e_t;\n" "e_t").map (Definition.shift 3)).mapError
        (Error.shift 3) :=
  parseEnum_append_of_notFound _ _ _ (.inr ⟨"typedef enum \x7b\n X = 9\n\x7d other_t;", by decide +kernel⟩)
    (by decide +kernel) (by decide +kernel)

/-- A block closed under another name is still checked: its out-of-range enumerator ends the
parse, although the header after it declares the enum well. -/
theorem unrelated_block_out_of_range_aborts :
    parseEnum "typedef enum \x7b\n A\n\x7d e_t;\n" "e_t" = .ok ⟨"e_t", [⟨"A", 0, 2⟩]⟩ ∧
      parseEnum ("typedef enum \x7b\n X = 300\n\x7d other_t;\n" ++ "typedef enum \x7b\n A\n\x7d e_t;\n")
        "e_t" = .error (.valueOutOfRange "X" 300 2) := by
  constructor <;> decide +kernel

end VoiceBench.Codegen
