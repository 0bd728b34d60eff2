import Mathlib
import VoiceBench.Text.Search

/-!
# Replacing and splitting around known parts

Facts about `Text.replace` and `Text.splitLast?` on texts built from parts whose occurrences are
known. Replacement scans from the left, so a part without the pattern's first character is
copied, an occurrence at the front is replaced whole, and two parts are replaced one after the
other when the second does not begin with a character that could finish an occurrence begun in
the first (`replace_append`). Splitting at the last separator finds the separator that only a
tail without a later start of it follows (`splitLast?_append_sep`).
-/

namespace VoiceBench.Text

/-- A non-empty text starts with a first character. -/
theorem toList_eq_cons_of_ne_empty {s : String} (h : s ≠ "") : ∃ c cs, s.toList = c :: cs :=
  List.exists_cons_of_ne_nil (mt String.toList_eq_nil_iff.1 h)

section Replace
variable {p : Char} {ps rep : List Char}

@[simp] theorem replaceFrom_nil : replaceFrom p ps rep [] = [] := by
  rw [replaceFrom]

theorem replaceFrom_cons (c : Char) (cs : List Char) :
    replaceFrom p ps rep (c :: cs) =
      if c = p ∧ ps <+: cs then rep ++ replaceFrom p ps rep (cs.drop ps.length)
      else c :: replaceFrom p ps rep cs := by
  rw [replaceFrom]
  simp only [List.isPrefixOf_iff_prefix]

/-- A part with no occurrence of the pattern is left as it is. -/
theorem replaceFrom_of_not_infix {cs : List Char} (h : ¬ (p :: ps) <:+: cs) :
    replaceFrom p ps rep cs = cs := by
  induction cs with
  | nil => simp
  | cons c cs ih =>
    have hmatch : ¬ (c = p ∧ ps <+: cs) := by
      rintro ⟨rfl, hpre⟩
      exact h (List.cons_prefix_cons.2 ⟨rfl, hpre⟩).isInfix
    rw [replaceFrom_cons, if_neg hmatch, ih (fun hi => h (List.infix_cons hi))]

/-- An occurrence at the front is replaced, and the replacement goes on after it. -/
theorem replaceFrom_pattern_append (ys : List Char) :
    replaceFrom p ps rep (p :: (ps ++ ys)) = rep ++ replaceFrom p ps rep ys := by
  rw [replaceFrom_cons, if_pos ⟨rfl, List.prefix_append ps ys⟩, List.drop_left]

/-- A part without the pattern's first character is left as it is, and the replacement goes on
after it. -/
theorem replaceFrom_append_of_not_mem {xs : List Char} (ys : List Char) (hx : p ∉ xs) :
    replaceFrom p ps rep (xs ++ ys) = xs ++ replaceFrom p ps rep ys := by
  induction xs with
  | nil => rfl
  | cons x xs ih =>
    have hxp : ¬ (x = p ∧ ps <+: xs ++ ys) := fun h => hx (h.1 ▸ List.mem_cons_self)
    rw [List.cons_append, replaceFrom_cons, if_neg hxp,
      ih (fun h => hx (List.mem_cons_of_mem x h)), List.cons_append]

/-- A prefix of `xs ++ ys` is a prefix of `xs` when the first character of `ys` is not in it:
it cannot reach into `ys`. -/
theorem prefix_of_prefix_append {xs ys : List Char} (hy : ∀ y ∈ ys.head?, y ∉ ps)
    (h : ps <+: xs ++ ys) : ps <+: xs := by
  rcases List.prefix_or_prefix_of_prefix h (List.prefix_append xs ys) with hx | ⟨t, rfl⟩
  · exact hx
  · rcases t with _ | ⟨t₀, t⟩
    · simp
    · obtain ⟨u, hu⟩ := (List.prefix_append_right_inj xs).1 h
      have hhead : t₀ ∈ ys.head? := by simp [← hu]
      exact absurd (List.mem_append_right xs List.mem_cons_self) (hy t₀ hhead)

/-- Replacement works part by part across a boundary that no occurrence can straddle: the
second part does not begin with a character of the pattern's rest. -/
theorem replaceFrom_append {xs ys : List Char} (hy : ∀ y ∈ ys.head?, y ∉ ps) :
    replaceFrom p ps rep (xs ++ ys) = replaceFrom p ps rep xs ++ replaceFrom p ps rep ys := by
  fun_induction replaceFrom p ps rep xs with
  | case1 => simp
  | case2 c cs hmatch ih =>
    obtain ⟨rfl, hpre⟩ := hmatch
    have hpre : ps <+: cs := List.isPrefixOf_iff_prefix.1 hpre
    rw [List.cons_append, replaceFrom_cons, if_pos ⟨rfl, hpre.trans (List.prefix_append cs ys)⟩,
      List.drop_append_of_le_length hpre.length_le, ih, List.append_assoc]
  | case3 c cs hmatch ih =>
    -- an occurrence that starts at `c` in `cs ++ ys` but not in `cs` would reach into `ys`
    have hmatch' : ¬ (c = p ∧ ps <+: cs ++ ys) := by
      rintro ⟨rfl, hpre⟩
      exact hmatch ⟨rfl, List.isPrefixOf_iff_prefix.2 (prefix_of_prefix_append hy hpre)⟩
    rw [List.cons_append, replaceFrom_cons, if_neg hmatch', ih, List.cons_append]

/-- A text with no occurrence of the pattern is left as it is. -/
theorem replace_of_not_infix (s pat : String) {rep : String} (hpat : pat ≠ "")
    (h : ¬ pat.toList <:+: s.toList) : replace s pat rep = s := by
  obtain ⟨p, ps, hp⟩ := toList_eq_cons_of_ne_empty hpat
  rw [hp] at h
  simp only [replace, replaceChars, hp, replaceFrom_of_not_infix h, String.ofList_toList]

/-- The pattern at the front of a text is replaced. -/
theorem replace_pattern_append (pat t : String) {rep : String} (hpat : pat ≠ "") :
    replace (pat ++ t) pat rep = rep ++ replace t pat rep := by
  obtain ⟨p, ps, hp⟩ := toList_eq_cons_of_ne_empty hpat
  simp only [replace, replaceChars, String.toList_append, hp, List.cons_append,
    replaceFrom_pattern_append, String.ofList_append, String.ofList_toList]

/-- The pattern itself is replaced whole. -/
theorem replace_self (pat : String) {rep : String} (hpat : pat ≠ "") :
    replace pat pat rep = rep := by
  have h : replace (pat ++ "") pat rep = rep ++ replace "" pat rep :=
    replace_pattern_append pat "" hpat
  have hnil : ¬ pat.toList <:+: "".toList := by simpa [List.infix_nil] using hpat
  rwa [String.append_empty, replace_of_not_infix "" pat hpat hnil, String.append_empty] at h

/-- A text without the pattern's first character is left as it is, and the replacement goes on
after it. -/
theorem replace_append_of_not_mem (s pat : String) {t rep : String} (hpat : pat ≠ "")
    (hs : ∀ p ∈ pat.toList.head?, p ∉ s.toList) :
    replace (s ++ t) pat rep = s ++ replace t pat rep := by
  obtain ⟨p, ps, hp⟩ := toList_eq_cons_of_ne_empty hpat
  rw [hp] at hs
  simp only [replace, replaceChars, hp, String.toList_append,
    replaceFrom_append_of_not_mem _ (hs p rfl), String.ofList_append, String.ofList_toList]

/-- Replacement works part by part when the second part does not begin with a character of the
pattern after its first. -/
theorem replace_append (t pat : String) {s rep : String} (hpat : pat ≠ "")
    (ht : ∀ y ∈ t.toList.head?, y ∉ pat.toList.tail) :
    replace (s ++ t) pat rep = replace s pat rep ++ replace t pat rep := by
  obtain ⟨p, ps, hp⟩ := toList_eq_cons_of_ne_empty hpat
  rw [hp, List.tail_cons] at ht
  simp only [replace, replaceChars, String.toList_append, hp, replaceFrom_append ht,
    String.ofList_append]

end Replace

section SplitLast
variable {s : Char} {ss : List Char}

/-- Without the separator's first character there is nothing to split at. -/
theorem splitLastChars?_of_not_mem {cs : List Char} (h : s ∉ cs) :
    splitLastChars? (s :: ss) cs = none := by
  induction cs with
  | nil => simp [splitLastChars?]
  | cons c cs ih =>
    have hc : c ≠ s := fun hcs => h (hcs ▸ List.mem_cons_self)
    rw [splitLastChars?, ih (fun hs => h (List.mem_cons_of_mem c hs))]
    simp [Ne.symm hc]

/-- A separator followed by a tail that holds no later start of it is the last one. -/
theorem splitLastChars?_sep_append {ys : List Char} (h : s ∉ ss ++ ys) :
    splitLastChars? (s :: ss) (s :: ss ++ ys) = some ([], ys) := by
  rw [List.cons_append, splitLastChars?, splitLastChars?_of_not_mem h]
  simp

/-- Characters before a split part stay before the separator. -/
theorem splitLastChars?_append {sep xs ys before after : List Char}
    (h : splitLastChars? sep ys = some (before, after)) :
    splitLastChars? sep (xs ++ ys) = some (xs ++ before, after) := by
  induction xs with
  | nil => simpa using h
  | cons x xs ih => rw [List.cons_append, splitLastChars?, ih]; rfl

/-- A text ending in the separator and a tail that holds no later start of it is split there. -/
theorem splitLast?_append_sep (sep t : String) {text : String} (hsep : sep ≠ "")
    (ht : ∀ s ∈ sep.toList.head?, s ∉ sep.toList.tail ++ t.toList) :
    splitLast? (text ++ (sep ++ t)) sep = some (text, t) := by
  obtain ⟨s, ss, hs⟩ := toList_eq_cons_of_ne_empty hsep
  rw [hs] at ht
  have hlast : splitLastChars? (s :: ss) (text.toList ++ (s :: ss ++ t.toList)) =
      some (text.toList ++ [], t.toList) :=
    splitLastChars?_append (splitLastChars?_sep_append (ht s rfl))
  rw [splitLast?, String.toList_append, String.toList_append, hs, hlast]
  simp

end SplitLast

end VoiceBench.Text
