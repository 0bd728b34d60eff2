import Mathlib
import VoiceBench.Proofs.Codegen.Scan

/-!
# Comments removed line by line are comments removed from the whole text

`stripLines` removes the comments of a header one line at a time and carries from each line to
the next only whether a block comment is open. Here the same text is read once from left to
right as a whole (`uncomment`): a line comment runs to the end of its line, a block comment runs
from its opening marker past the next closing one, possibly lines later, and is replaced by one
blank, the line feeds inside it kept.

Main statement (`stripLines_agree_with_uncommented_text`): for lines without line feeds, the
`i`-th line the line-wise scan leaves is the `i`-th line of the uncommented text
`l₁\n…\nlₖ`, and a block comment is open after the last line exactly when that text ends inside
one.

No comment marker contains a line feed, so the whole-text scan can be cut at each line feed
(`uncomment_append_feed`); a line feed ends a line comment and nothing else (`uncomment_feed`);
and on a single line the two scans agree once the end of a line comment is forgotten
(`uncomment_line`). Induction over the lines assembles these (`uncomment_intercalate`).
-/

namespace VoiceBench.Codegen

/-! ## The whole-text scan -/

/-- Where a left-to-right scan of C text stands: in code, in a line comment or in a block
comment. -/
inductive Lexical where
  | code
  | lineComment
  | blockComment
  deriving DecidableEq, Repr

/-- The text read once from left to right without its comments, and where the scan stands at
its end. A block comment leaves one blank and the line feeds it spans; a line comment leaves
the line feed that ends it. -/
def uncomment : Lexical → List Char → List Char × Lexical
  | .code, '/' :: '/' :: rest => uncomment .lineComment rest
  | .code, '/' :: '*' :: rest => (uncomment .blockComment rest).map (' ' :: ·) id
  | .code, c :: rest => (uncomment .code rest).map (c :: ·) id
  | .lineComment, '\n' :: rest => (uncomment .code rest).map ('\n' :: ·) id
  | .lineComment, _ :: rest => uncomment .lineComment rest
  | .blockComment, '*' :: '/' :: rest => uncomment .code rest
  | .blockComment, '\n' :: rest => (uncomment .blockComment rest).map ('\n' :: ·) id
  | .blockComment, _ :: rest => uncomment .blockComment rest
  | m, [] => ([], m)

/-- A text without its comments. -/
def uncommentText (text : String) : String :=
  String.ofList (uncomment .code text.toList).1

/-- Whether a text ends inside a block comment that is never closed. -/
def endsInBlockComment (text : String) : Bool :=
  decide ((uncomment .code text.toList).2 = .blockComment)

/-- The lines of a text: its parts between line feeds. -/
def textLines (text : String) : List String :=
  (text.toList.splitOn '\n').map String.ofList

namespace Lexical

/-- Where the scan stands at the start of a line, from whether a block comment is open. -/
def ofOpen : Bool → Lexical
  | true => .blockComment
  | false => .code

/-- Where the scan stands after a line feed: the feed ends a line comment. -/
def afterFeed : Lexical → Lexical
  | .lineComment => .code
  | m => m

@[simp] theorem ofOpen_true : ofOpen true = .blockComment := rfl

@[simp] theorem ofOpen_false : ofOpen false = .code := rfl

@[simp] theorem afterFeed_ofOpen (b : Bool) : (ofOpen b).afterFeed = ofOpen b := by
  cases b <;> rfl

@[simp] theorem ofOpen_eq_blockComment (b : Bool) : ofOpen b = .blockComment ↔ b = true := by
  cases b <;> simp

@[simp] theorem afterFeed_eq_blockComment (m : Lexical) :
    m.afterFeed = .blockComment ↔ m = .blockComment := by
  cases m <;> simp [afterFeed]

end Lexical

/-! ## Cutting the scan at line feeds -/

/-- A line feed is kept, and ends a line comment. -/
theorem uncomment_feed (m : Lexical) (rest : List Char) :
    uncomment m ('\n' :: rest) = (uncomment m.afterFeed rest).map ('\n' :: ·) id := by
  cases m with
  | code => rw [uncomment.eq_3 _ _ (by simp) (by simp)]; rfl
  | lineComment => rw [uncomment]; rfl
  | blockComment => rw [uncomment]; rfl

/-- A line comment without a line feed swallows everything. -/
theorem uncomment_lineComment {r : List Char} (hr : '\n' ∉ r) :
    uncomment .lineComment r = ([], .lineComment) := by
  induction r with
  | nil => rfl
  | cons x r ih =>
    simp only [List.mem_cons, not_or] at hr
    rw [uncomment.eq_5 _ _ (fun h => hr.1 h.symm), ih hr.2]

/-- What follows a part of a text up to a line feed begins with that part's first character,
or is the line feed. -/
theorem eq_cons_of_append_feed {rest ys r : List Char} {x : Char}
    (h : rest ++ '\n' :: ys = x :: r) : x = '\n' ∨ ∃ r', rest = x :: r' := by
  cases rest with
  | nil => simp at h; exact .inl h.1.symm
  | cons y rest => simp at h; exact .inr ⟨rest, by rw [h.1]⟩

/-- No marker spans a line feed: a two-character marker cut by the feed is not one, so the
scan of a text is the scan of what comes before a line feed, then of the rest from where
that left off. -/
theorem uncomment_append_feed (m : Lexical) (xs ys : List Char) :
    uncomment m (xs ++ '\n' :: ys) =
      (uncomment (uncomment m xs).2 ('\n' :: ys)).map ((uncomment m xs).1 ++ ·) id := by
  have hsecond : ∀ {y : Char} {rest r : List Char}, y ≠ '\n' →
      (∀ r', rest = y :: r' → False) → rest ++ '\n' :: ys = y :: r → False := by
    intro y rest r hy hrest hr
    rcases eq_cons_of_append_feed hr with h | ⟨r', hr'⟩
    · exact hy h
    · exact hrest r' hr'
  fun_induction uncomment m xs with
  | case1 rest ih => simpa [uncomment] using ih
  | case2 rest ih => simp [uncomment, ih, Prod.map_map, Function.comp_def]
  | case3 c rest h1 h2 ih =>
    have h1' : ∀ r, c = '/' → rest ++ '\n' :: ys = '/' :: r → False := fun r hc =>
      hsecond (by decide) (fun r' => h1 r' hc)
    have h2' : ∀ r, c = '/' → rest ++ '\n' :: ys = '*' :: r → False := fun r hc =>
      hsecond (by decide) (fun r' => h2 r' hc)
    rw [List.cons_append, uncomment.eq_3 _ _ h1' h2', ih]
    simp [Prod.map_map, Function.comp_def]
  | case4 rest ih => simp [uncomment, ih, Prod.map_map, Function.comp_def]
  | case5 x rest hx ih => rw [List.cons_append, uncomment.eq_5 _ _ hx, ih]
  | case6 rest ih => simp [uncomment, ih]
  | case7 rest ih => simp [uncomment, ih, Prod.map_map, Function.comp_def]
  | case8 x rest h1 hx ih =>
    have h1' : ∀ r, x = '*' → rest ++ '\n' :: ys = '/' :: r → False := fun r hc =>
      hsecond (by decide) (fun r' => h1 r' hc)
    rw [List.cons_append, uncomment.eq_8 _ _ h1' hx, ih]
  | case9 m => rfl

/-! ## One line -/

/-- On a line without line feeds the whole-text scan removes what the line scan removes, and
it ends in a block comment exactly when the line scan leaves one open; an unfinished line
comment is forgotten at the line feed. -/
theorem uncomment_line (c : Bool) (l : List Char) (hl : '\n' ∉ l) :
    (uncomment (.ofOpen c) l).map id Lexical.afterFeed =
      (stripChars c l).map id Lexical.ofOpen := by
  fun_induction stripChars c l with
  | case1 rest ih => simpa [uncomment] using ih (by simpa using hl)
  | case2 x rest h ih =>
    simp only [List.mem_cons, not_or] at hl
    rw [← ih hl.2, Lexical.ofOpen_true, uncomment.eq_8 _ _ h (fun hx => hl.1 hx.symm)]
  | case3 => rfl
  | case4 tail =>
    simp only [List.mem_cons, not_or] at hl
    rw [Lexical.ofOpen_false, uncomment, uncomment_lineComment hl.2.2]
    rfl
  | case5 rest out open_ h ih =>
    simp only [List.mem_cons, not_or] at hl
    have ih := ih hl.2.2
    rw [h] at ih
    simp only [Prod.ext_iff, Prod.map_fst, Prod.map_snd, id, Lexical.ofOpen_true] at ih
    simp [uncomment, Prod.ext_iff, ← ih.1, ← ih.2]
  | case6 x rest h1 h2 out open_ h ih =>
    simp only [List.mem_cons, not_or] at hl
    have ih := ih hl.2
    rw [h] at ih
    simp only [Prod.ext_iff, Prod.map_fst, Prod.map_snd, id, Lexical.ofOpen_false] at ih
    rw [Lexical.ofOpen_false, uncomment.eq_3 _ _ h1 h2]
    simp [Prod.ext_iff, ← ih.1, ← ih.2]
  | case7 => rfl


/-! ## A text of lines -/

theorem stripLines_cons (c : Bool) (l : String) (rest : List String) :
    stripLines c (l :: rest) = (stripLine c l).1 :: stripLines (stripLine c l).2 rest := rfl

theorem commentOpenAfter_cons (c : Bool) (l : String) (rest : List String) :
    commentOpenAfter c (l :: rest) = commentOpenAfter (stripLine c l).2 rest := rfl

@[simp] theorem toList_stripLine_fst (c : Bool) (l : String) :
    (stripLine c l).1.toList = (stripChars c l.toList).1 := by
  simp [stripLine]

@[simp] theorem stripLine_snd (c : Bool) (l : String) :
    (stripLine c l).2 = (stripChars c l.toList).2 := rfl

/-- The line scan brings in no line feed: it only drops characters and writes blanks. -/
theorem feed_not_mem_stripChars (c : Bool) (l : List Char) (hl : '\n' ∉ l) :
    '\n' ∉ (stripChars c l).1 := by
  fun_induction stripChars c l with
  | case1 rest ih => exact ih (by simpa using hl)
  | case2 x rest h ih => exact ih (by simp_all)
  | case3 => simp
  | case4 tail => simp
  | case5 rest out open_ h ih =>
    have ih := ih (by simp_all)
    rw [h] at ih
    simpa using ih
  | case6 x rest h1 h2 out open_ h ih =>
    simp only [List.mem_cons, not_or] at hl
    have ih := ih hl.2
    rw [h] at ih
    simp only [List.mem_cons, not_or]
    exact ⟨hl.1, ih⟩
  | case7 => simp

/-- Lines joined by line feeds: the first line, a line feed, then the others joined. -/
theorem toList_intercalate_feed (l : String) {rest : List String} (h : rest ≠ []) :
    ("\n".intercalate (l :: rest)).toList = l.toList ++ '\n' :: ("\n".intercalate rest).toList := by
  rw [String.intercalate_cons_of_ne_nil h]
  simp

/-- The whole-text scan of lines joined by line feeds leaves the line scan of each, joined by
line feeds, and ends in a block comment exactly when the line scan leaves one open after the
last line. -/
theorem uncomment_intercalate (ls : List String) (hls : ∀ l ∈ ls, '\n' ∉ l.toList) (c : Bool) :
    (uncomment (.ofOpen c) ("\n".intercalate ls).toList).map id Lexical.afterFeed =
      (("\n".intercalate (stripLines c ls)).toList, .ofOpen (commentOpenAfter c ls)) := by
  induction ls generalizing c with
  | nil => simp [uncomment, stripLines, commentOpenAfter]
  | cons l rest ih =>
    have hline := uncomment_line c l.toList (hls l List.mem_cons_self)
    simp only [Prod.ext_iff, Prod.map_fst, Prod.map_snd, id] at hline
    rcases rest with _ | ⟨l2, rest⟩
    · simpa [stripLines, commentOpenAfter, Prod.ext_iff] using hline
    · -- the first line, then its line feed, then the other lines from the state it leaves
      have ih := ih (fun l' hl' => hls l' (List.mem_cons_of_mem _ hl')) (stripChars c l.toList).2
      simp only [Prod.ext_iff, Prod.map_fst, Prod.map_snd, id_eq] at ih
      have hne : stripLines (stripLine c l).2 (l2 :: rest) ≠ [] := by simp [stripLines_cons]
      rw [toList_intercalate_feed l (List.cons_ne_nil l2 rest), stripLines_cons,
        toList_intercalate_feed (stripLine c l).1 hne, commentOpenAfter_cons,
        uncomment_append_feed, uncomment_feed]
      simp only [Prod.ext_iff, Prod.map_fst, Prod.map_snd, id_eq, hline.2, toList_stripLine_fst,
        stripLine_snd]
      exact ⟨by rw [hline.1, ih.1], ih.2⟩

/-- No line the line scan leaves holds a line feed, when none of the lines it reads does. -/
theorem feed_not_mem_stripLines (c : Bool) (ls : List String) (hls : ∀ l ∈ ls, '\n' ∉ l.toList) :
    ∀ l ∈ stripLines c ls, '\n' ∉ l.toList := by
  induction ls generalizing c with
  | nil => simp [stripLines]
  | cons l rest ih =>
    intro l' hl'
    rw [stripLines_cons, List.mem_cons] at hl'
    rcases hl' with rfl | hl'
    · rw [toList_stripLine_fst]
      exact feed_not_mem_stripChars c l.toList (hls l List.mem_cons_self)
    · exact ih _ (fun l'' h => hls l'' (List.mem_cons_of_mem _ h)) l' hl'

/-- For one line or more, none with a line feed, the lines of the uncommented text are the
lines the line scan leaves. -/
theorem textLines_uncommentText (ls : List String) (hls : ∀ l ∈ ls, '\n' ∉ l.toList)
    (hne : ls ≠ []) : textLines (uncommentText ("\n".intercalate ls)) = stripLines false ls := by
  have hout := congrArg Prod.fst (uncomment_intercalate ls hls false)
  simp only [Prod.map_fst, id_eq, Lexical.ofOpen_false] at hout
  have hfeed : ∀ l ∈ (stripLines false ls).map String.toList, '\n' ∉ l := by
    simpa using feed_not_mem_stripLines false ls hls
  have hne' : (stripLines false ls).map String.toList ≠ [] := by
    simpa [← List.length_pos_iff] using List.length_pos_iff.mpr hne
  rw [textLines, uncommentText, hout, String.toList_ofList, String.toList_intercalate]
  simp [List.splitOn_intercalate _ hfeed hne']

/-- The text ends inside a block comment exactly when the line scan leaves one open. -/
theorem endsInBlockComment_intercalate (ls : List String) (hls : ∀ l ∈ ls, '\n' ∉ l.toList) :
    endsInBlockComment ("\n".intercalate ls) = commentOpenAfter false ls := by
  have hend := congrArg Prod.snd (uncomment_intercalate ls hls false)
  simp only [Prod.map_snd, Lexical.ofOpen_false] at hend
  have hiff := (Lexical.afterFeed_eq_blockComment _).symm.trans
    (hend ▸ Lexical.ofOpen_eq_blockComment (commentOpenAfter false ls))
  rw [endsInBlockComment, Bool.eq_iff_iff, decide_eq_true_iff]
  exact hiff

/-- Comments removed line by line, a block comment carried from line to line, are the comments
of the whole text removed in one pass: each line left is the line of the uncommented text, and
a block comment is open after the last line exactly when the text ends inside one. -/
theorem stripLines_agree_with_uncommented_text (ls : List String)
    (hls : ∀ l ∈ ls, '\n' ∉ l.toList) :
    (∀ i < ls.length,
      (stripLines false ls)[i]? = (textLines (uncommentText ("\n".intercalate ls)))[i]?) ∧
    commentOpenAfter false ls = endsInBlockComment ("\n".intercalate ls) := by
  refine ⟨fun i hi => ?_, (endsInBlockComment_intercalate ls hls).symm⟩
  rw [textLines_uncommentText ls hls (List.ne_nil_of_length_pos (by omega))]

/-- A block comment over three lines of an enum: it leaves a blank on its first line, an empty
second line and what follows it on the third. -/
theorem multiLineComment_agrees :
    (∀ l ∈ ["typedef enum \x7b", " A, /* start", " B = 7,", " end */ C", "\x7d e_t;"],
        '\n' ∉ l.toList) ∧
      (∀ i < 5, (stripLines false ["typedef enum \x7b", " A, /* start", " B = 7,", " end */ C",
          "\x7d e_t;"])[i]? =
        (textLines (uncommentText ("\n".intercalate ["typedef enum \x7b", " A, /* start",
          " B = 7,", " end */ C", "\x7d e_t;"])))[i]?) ∧
      commentOpenAfter false ["typedef enum \x7b", " A, /* start", " B = 7,", " end */ C",
          "\x7d e_t;"] =
        endsInBlockComment ("\n".intercalate ["typedef enum \x7b", " A, /* start", " B = 7,",
          " end */ C", "\x7d e_t;"]) :=
  have hls : ∀ l ∈ ["typedef enum \x7b", " A, /* start", " B = 7,", " end */ C", "\x7d e_t;"],
      '\n' ∉ l.toList := by decide
  ⟨hls, stripLines_agree_with_uncommented_text _ hls⟩

end VoiceBench.Codegen
