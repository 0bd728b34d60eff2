import Mathlib
import VoiceBench.Config.Load
import VoiceBench.Media.NlModel
import VoiceBench.Proofs.Text.Search

/-!
# Naming explicit-layout matrix dumps

A dump of a `rows` by `cols` matrix is named by substituting the base name and the two counts into
the configured pattern, and the matrix command takes the layout back from the file name: the
count after its last `.c` and, before that, the count after the last `.r`, both in decimal. When
the pattern ends in `.r{rows}.c{cols}`, as the default does, the tail is filled in on its own,
whatever the base name holds and whatever stands before the tail (`nlmodelPath_eq_of_suffix`), and
every name is read back (`dimsFromName_nlmodelPath`). The configuration check asks only that each
placeholder occur somewhere in the pattern, and a pattern that puts them elsewhere passes it with
names the command cannot read.
-/

namespace VoiceBench.PathName

/-- Splitting at a character that the tail lacks leaves the tail at the end of the last part. -/
theorem splitOn_append_of_not_mem {a : Char} (xs : List Char) {ys : List Char} (h : a ∉ ys) :
    ∃ init last, (xs ++ ys).splitOn a = init ++ [last ++ ys] := by
  induction xs with
  | nil => exact ⟨[], [], by simp [List.splitOn_eq_singleton h]⟩
  | cons x xs ih =>
    obtain ⟨init, last, hsplit⟩ := ih
    rw [List.cons_append, List.splitOn_cons_eq_if_modifyHead, hsplit]
    by_cases hx : x = a
    · exact ⟨[] :: init, last, by simp [hx]⟩
    · -- `x` joins the first part, which is the last one when there is a single part
      rcases init with _ | ⟨first, init⟩
      · exact ⟨[], x :: last, by simp [hx]⟩
      · exact ⟨(x :: first) :: init, last, by simp [hx]⟩

/-- A path whose tail holds no slash and is longer than `..` has a file name that ends in that
tail. -/
theorem fileName?_append (path tail : String) (hslash : '/' ∉ tail.toList)
    (hlen : 3 ≤ tail.length) : ∃ name, fileName? (path ++ tail) = some (name ++ tail) := by
  obtain ⟨init, last, hsplit⟩ := splitOn_append_of_not_mem path.toList hslash
  have hlong : 3 ≤ (String.ofList last ++ tail).length := by simp; omega
  have hkeep : String.ofList last ++ tail ≠ "" ∧ String.ofList last ++ tail ≠ "." :=
    ⟨fun h => by simp [h] at hlong, fun h => absurd (h ▸ hlong) (by decide)⟩
  have hdots : String.ofList last ++ tail ≠ ".." := fun h => absurd (h ▸ hlong) (by decide)
  have hparts : parts (path ++ tail) =
      ((init.map String.ofList).filter fun c => c ≠ "" ∧ c ≠ ".") ++
        [String.ofList last ++ tail] := by
    simp [parts, hsplit, List.filter_append, hkeep, String.ofList_append]
  refine ⟨String.ofList last, ?_⟩
  simp [fileName?, hparts, hdots]

end VoiceBench.PathName

namespace VoiceBench.Media

/-- A decimal count holds no character other than digits. -/
theorem not_mem_toDigits {ch : Char} (h : ch.isDigit = false) (n : Nat) :
    ch ∉ Nat.toDigits 10 n := fun hmem => by
  have hdigit : ch.isDigit := Nat.isDigit_of_mem_toDigits (by decide) (by decide) hmem
  simp [h] at hdigit

/-- A count written in decimal is read back, up to the largest machine word. -/
theorem readCount?_toString {n : Nat} (hn : n ≤ wordMax) : readCount? (toString n) = some n := by
  obtain ⟨d, ds, hd⟩ := List.exists_cons_of_ne_nil (Nat.toDigits_ne_nil : Nat.toDigits 10 n ≠ [])
  have hdigit : ∀ ch ∈ Nat.toDigits 10 n, ch.isDigit :=
    fun ch hch => Nat.isDigit_of_mem_toDigits (by omega) (by omega) hch
  have hplus : d ≠ '+' := fun h => by simpa [h] using hdigit d (by simp [hd])
  have hvalue : (Nat.toDigits 10 n).foldl (fun acc c => 10 * acc + (c.toNat - 48)) 0 = n :=
    Nat.ofDigitChars_toDigits (by omega) (by omega)
  rw [hd] at hdigit hvalue
  simpa [readCount?, hd, hplus, hvalue, hn] using hdigit

/-- A path ending in `.r` and `.c`, each followed by a count, names a matrix of those counts. -/
theorem dimsFromName_append_counts (stem : String) {r c : Nat} (hr : r ≤ wordMax)
    (hc : c ≤ wordMax) :
    dimsFromName (stem ++ (".r" ++ (toString r ++ (".c" ++ toString c)))) = some (r, c) := by
  have hslash : '/' ∉ (".r" ++ (toString r ++ (".c" ++ toString c))).toList := by
    simp [not_mem_toDigits (by decide : '/'.isDigit = false)]
  have hlen : 3 ≤ (".r" ++ (toString r ++ (".c" ++ toString c))).length := by
    have hsep : (".r" : String).length = 2 ∧ (".c" : String).length = 2 := by decide
    simp only [String.length_append, hsep]
    omega
  obtain ⟨name, hname⟩ := PathName.fileName?_append stem _ hslash hlen
  have hdot := not_mem_toDigits (by decide : '.'.isDigit = false)
  have hcols : Text.splitLast? (name ++ (".r" ++ (toString r ++ (".c" ++ toString c)))) ".c" =
      some (name ++ (".r" ++ toString r), toString c) := by
    rw [show name ++ (".r" ++ (toString r ++ (".c" ++ toString c))) =
      name ++ (".r" ++ toString r) ++ (".c" ++ toString c) by simp [String.append_assoc]]
    exact Text.splitLast?_append_sep ".c" (toString c) (by simp) (by simp [hdot])
  have hrows : Text.splitLast? (name ++ (".r" ++ toString r)) ".r" = some (name, toString r) :=
    Text.splitLast?_append_sep ".r" (toString r) (by simp) (by simp [hdot])
  simp only [dimsFromName, hname, Option.bind_eq_bind, Option.bind_some, hcols, hrows,
    readCount?_toString hr, readCount?_toString hc, Option.pure_def]

end VoiceBench.Media

namespace VoiceBench.Config.FileConfig

/-- When the pattern ends in `.r{rows}.c{cols}`, the tail of the name is filled in on its own: no
placeholder occurrence can reach into it, since it starts with a dot, and the counts that are put
into it hold no brace. -/
theorem nlmodelPath_eq_of_suffix {f : FileConfig} {pre : String}
    (hf : f.nlmodelPattern = pre ++ ".r{rows}.c{cols}") (base : String) (r c : Nat) :
    f.nlmodelPath base r c =
      Text.substitute pre [("{base}", base), ("{rows}", toString r), ("{cols}", toString c)] ++
        (".r" ++ (toString r ++ (".c" ++ toString c))) := by
  have hbase : ∀ s : String, Text.replace (s ++ ".r{rows}.c{cols}") "{base}" base =
      Text.replace s "{base}" base ++ ".r{rows}.c{cols}" := by
    intro s
    rw [Text.replace_append ".r{rows}.c{cols}" "{base}" (by simp) (by simp),
      Text.replace_of_not_infix ".r{rows}.c{cols}" "{base}" (by simp) (by decide)]
  have hrows : ∀ s : String, Text.replace (s ++ ".r{rows}.c{cols}") "{rows}" (toString r) =
      Text.replace s "{rows}" (toString r) ++ (".r" ++ (toString r ++ ".c{cols}")) := by
    intro s
    rw [show ".r{rows}.c{cols}" = ".r" ++ ("{rows}" ++ ".c{cols}") by simp,
      Text.replace_append _ "{rows}" (by simp) (by simp),
      Text.replace_append_of_not_mem ".r" "{rows}" (by simp) (by simp),
      Text.replace_pattern_append "{rows}" ".c{cols}" (by simp),
      Text.replace_of_not_infix ".c{cols}" "{rows}" (by simp) (by decide)]
  have hcols : ∀ s : String,
      Text.replace (s ++ (".r" ++ (toString r ++ ".c{cols}"))) "{cols}" (toString c) =
        Text.replace s "{cols}" (toString c) ++ (".r" ++ (toString r ++ (".c" ++ toString c))) := by
    intro s
    have hbrace := Media.not_mem_toDigits (by decide : '{'.isDigit = false) r
    rw [Text.replace_append _ "{cols}" (by simp) (by simp),
      Text.replace_append_of_not_mem ".r" "{cols}" (by simp) (by simp),
      Text.replace_append_of_not_mem (toString r) "{cols}" (by simp) (by simp [hbrace]),
      show ".c{cols}" = ".c" ++ "{cols}" by simp,
      Text.replace_append_of_not_mem ".c" "{cols}" (by simp) (by simp),
      Text.replace_self "{cols}" (by simp)]
  simp only [FileConfig.nlmodelPath, Text.substitute, List.foldl_cons, List.foldl_nil, hf, hbase,
    hrows, hcols]

end VoiceBench.Config.FileConfig

namespace VoiceBench.Media

/-- A matrix dump named by a pattern that ends in `.r{rows}.c{cols}` is read back with the
dimensions it was named with, for every base name and all counts that fit in a machine word. -/
theorem dimsFromName_nlmodelPath {f : Config.FileConfig} {pre : String}
    (hf : f.nlmodelPattern = pre ++ ".r{rows}.c{cols}") (base : String) {r c : Nat}
    (hr : r ≤ wordMax) (hc : c ≤ wordMax) :
    dimsFromName (f.nlmodelPath base r c) = some (r, c) := by
  rw [Config.FileConfig.nlmodelPath_eq_of_suffix hf]
  exact dimsFromName_append_counts _ hr hc

/-- The default pattern names a two by three matrix dump `nlm.r2.c3`, which is read back. -/
theorem default_nlmodel_name_read_back :
    ({} : Config.FileConfig).nlmodelPattern = "{base}" ++ ".r{rows}.c{cols}" ∧
      dimsFromName (({} : Config.FileConfig).nlmodelPath "nlm" 2 3) = some (2, 3) := by
  have hf : ({} : Config.FileConfig).nlmodelPattern = "{base}" ++ ".r{rows}.c{cols}" := rfl
  exact ⟨hf, dimsFromName_nlmodelPath hf "nlm" (by decide) (by decide)⟩

/-- A pattern with every placeholder passes the configuration's placeholder check, yet the name
`nlm_2x3` it gives a two by three matrix has no `.c` and is not read. -/
theorem underscore_pattern_name_unread :
    Config.missingPlaceholder "{base}_{rows}x{cols}" ["{base}", "{rows}", "{cols}"] = none ∧
      ({ nlmodelPattern := "{base}_{rows}x{cols}" } : Config.FileConfig).nlmodelPath "nlm" 2 3 =
        "nlm_2x3" ∧
      dimsFromName "nlm_2x3" = none := by
  decide +kernel

end VoiceBench.Media
