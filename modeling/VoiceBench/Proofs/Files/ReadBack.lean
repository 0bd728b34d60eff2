import Mathlib
import VoiceBench.WorkDir

/-!
# Reading back what was written

The working directory as a store of files. Putting a file changes the entry at one normalized
path and nothing else: the names of the files grow by that path at most (`mem_keys_put`), so a
directory stays a directory (`isDirAt_put`) and every path resolves as before
(`resolve_put`). A write resolves its path and puts the file at the entry it leads to
(`write_eq_ok_iff`), hence reading the same path afterwards gives the bytes written
(`read_of_write`) and the path names a file (`isFile_of_write`).

A plain name, one component that is neither `.` nor `..`, has no directory on its way
(`resolve_name`): a write there fails only when a directory has that name (`write_name`). A
path that exists neither as a file nor as a directory, with every directory on its way in
place, can always be written (`write_of_slot`).
-/

namespace VoiceBench.WorkDir

/-- A plain file name: one component, neither empty nor `.` nor `..`. -/
def IsName (p : String) : Prop := '/' ∉ p.toList ∧ p ≠ "" ∧ p ≠ "." ∧ p ≠ ".."

instance (p : String) : Decidable (IsName p) := inferInstanceAs (Decidable (_ ∧ _))

/-- A place where a new file can be made: the directories on the way exist, and the path does
not demand a directory by ending in a slash, `.` or `..`. -/
def FileSlot (w : WorkDir) (p : String) : Prop := ∃ e, w.resolve p = .ok ⟨e, false⟩

/-! ## Putting an entry -/

/-- Replacing the entries of one key leaves the first entry of that key where it was. -/
theorem find?_replace (files : List (String × List UInt8)) (q : String) (b : List UInt8) :
    (files.map fun e => if e.1 == q then (q, b) else e).find? (·.1 == q) =
      (files.find? (·.1 == q)).map fun _ => (q, b) := by
  induction files with
  | nil => rfl
  | cons e rest ih =>
    cases he : e.1 == q
    · simp only [List.map_cons, List.find?_cons, he, Bool.false_eq_true, if_false, ih]
    · simp only [List.map_cons, List.find?_cons, he, if_true, beq_self_eq_true, Option.map_some]

/-- A file put at `q` is what a lookup of `q` finds. -/
@[simp] theorem lookup_put_self (w : WorkDir) (q : String) (b : List UInt8) :
    (w.put q b).lookup q = some b := by
  unfold put lookup
  split
  · rename_i h
    cases hf : w.files.find? (·.1 == q) with
    | none => simp [hf] at h
    | some e => simp only [find?_replace, hf, Option.map_some]
  · rename_i h
    have hf : w.files.find? (·.1 == q) = none := by
      cases hf : w.files.find? (·.1 == q) with
      | none => rfl
      | some e => simp [hf] at h
    simp [List.find?_append, hf]

/-- Putting a file leaves the lookup of every other path as it was. -/
theorem lookup_put_of_ne (w : WorkDir) {q p : String} (hne : q ≠ p) (b : List UInt8) :
    (w.put q b).lookup p = w.lookup p := by
  have hmap : ∀ files : List (String × List UInt8),
      (files.map fun e => if e.1 == q then (q, b) else e).find? (·.1 == p) =
        files.find? (·.1 == p) := by
    intro files
    induction files with
    | nil => rfl
    | cons e rest ih =>
      cases hq : e.1 == q
      · simp only [List.map_cons, List.find?_cons, hq, Bool.false_eq_true, if_false, ih]
      · have hp : (e.1 == p) = false := by simp_all
        have hqp : (q == p) = false := by simpa using hne
        simp only [List.map_cons, List.find?_cons, hq, if_true, hp, hqp, ih]
  unfold put lookup
  split
  · rw [hmap]
  · simp [List.find?_append, hne]

/-- The names of the files after a put are those before and the one put. -/
theorem mem_keys_put {w : WorkDir} {q k : String} {b : List UInt8} :
    (∃ c, (k, c) ∈ (w.put q b).files) ↔ (∃ c, (k, c) ∈ w.files) ∨ k = q := by
  unfold put
  split
  · rename_i h
    obtain ⟨c₀, hc₀⟩ : ∃ c, (q, c) ∈ w.files := by simpa [lookup] using h
    simp only [List.mem_map]
    constructor
    · rintro ⟨c, e, he, hfe⟩
      by_cases hk : e.1 = q
      · simp [hk] at hfe
        exact .inr hfe.1.symm
      · simp [hk] at hfe
        exact .inl ⟨c, hfe ▸ he⟩
    · rintro (⟨c, hc⟩ | rfl)
      · by_cases hk : k = q
        · exact ⟨b, (k, c), hc, by simp [hk]⟩
        · exact ⟨c, (k, c), hc, by simp [hk]⟩
      · exact ⟨b, (k, c₀), hc₀, by simp⟩
  · simp only [List.mem_append, List.mem_cons, List.not_mem_nil, or_false, Prod.mk.injEq]
    constructor
    · rintro ⟨c, hc | ⟨rfl, -⟩⟩
      · exact .inl ⟨c, hc⟩
      · exact .inr rfl
    · rintro (⟨c, hc⟩ | rfl)
      · exact ⟨c, .inl hc⟩
      · exact ⟨b, .inr ⟨rfl, rfl⟩⟩

/-- Putting a file makes a directory of every path it lies under, and of nothing else. -/
theorem isDirAt_put (w : WorkDir) (q x : String) (b : List UInt8) :
    (w.put q b).isDirAt x = (w.isDirAt x || q.startsWith (x ++ "/")) := by
  have hfiles : (w.put q b).files.any (·.1.startsWith (x ++ "/")) =
      (w.files.any (·.1.startsWith (x ++ "/")) || q.startsWith (x ++ "/")) := by
    apply Bool.eq_iff_iff.2
    simp only [List.any_eq_true, Bool.or_eq_true, Prod.exists]
    constructor
    · rintro ⟨k, c, hc, hk⟩
      rcases mem_keys_put.1 ⟨c, hc⟩ with ⟨c', hc'⟩ | rfl
      · exact .inl ⟨k, c', hc', hk⟩
      · exact .inr hk
    · rintro (⟨k, c, hc, hk⟩ | hq)
      · obtain ⟨c', hc'⟩ := mem_keys_put.2 (.inl ⟨c, hc⟩)
        exact ⟨k, c', hc', hk⟩
      · obtain ⟨c', hc'⟩ := mem_keys_put (b := b) (w := w).2 (.inr rfl)
        exact ⟨q, c', hc', hq⟩
  have hdirs : (w.put q b).dirs = w.dirs := by unfold put; split <;> rfl
  simp only [isDirAt, hfiles, hdirs]
  ac_rfl

/-- No path lies under itself. -/
theorem startsWith_self_slash (q : String) : q.startsWith (q ++ "/") = false := by
  rw [String.startsWith_string_eq_false_iff]
  intro h
  have := h.length_le
  simp only [String.toList_append, List.length_append, show "/".toList = ['/'] from rfl,
    List.length_singleton] at this
  omega

/-! ## Resolving a path after a put -/

/-- A walk that succeeded takes the same steps after a put: every directory it passed through
is still one. -/
theorem walk_put {w : WorkDir} {q : String} {b : List UInt8} {slash : Bool}
    {cur cs : List String} {t : Target} (h : w.walk slash cur cs = .ok t) :
    (w.put q b).walk slash cur cs = .ok t := by
  fun_induction walk w slash cur cs with
  | case1 | case2 | case4 | case5 => simp [walk, *]
  | case3 | case7 | case10 | case11 => cases h
  | case6 cur c rest _ hc ih => simp [walk, hc, ih h]
  | case8 cur rest _ hcur _ ih => simp [walk, hcur, ih h]
  | case9 cur c rest _ hc hdd next hdir ih =>
    have hdir' : (w.put q b).isDirAt ("/".intercalate (cur ++ [c])) = true := by
      rw [isDirAt_put, show w.isDirAt ("/".intercalate (cur ++ [c])) = true from hdir]
      rfl
    simp [walk, hc, hdd, hdir', ih h]

/-- A path that resolved resolves to the same entry after a put. -/
theorem resolve_put {w : WorkDir} {q p : String} {b : List UInt8} {t : Target}
    (h : w.resolve p = .ok t) : (w.put q b).resolve p = .ok t := by
  unfold resolve at h ⊢
  split at h
  · cases h
  · rename_i hp
    rw [if_neg hp]
    exact walk_put h

/-- A write succeeds exactly when the path resolves to an entry that is no directory and the
path does not demand one; it puts the file there. -/
theorem write_eq_ok_iff {w w' : WorkDir} {p : String} {b : List UInt8} :
    w.write p b = .ok w' ↔ ∃ t, w.resolve p = .ok t ∧ t.dirOnly = false ∧
      w.isDirAt t.entry = false ∧ w' = w.put t.entry b := by
  constructor
  · intro h
    unfold write at h
    cases hr : w.resolve p with
    | error e => simp [bind, Except.bind, hr] at h
    | ok t =>
      simp only [bind, Except.bind, hr] at h
      refine ⟨t, rfl, ?_⟩
      split at h
      · cases h
      · -- an existing file and a new one are put alike, unless the path demands a directory
        split at h <;> split at h <;> cases h <;> simp_all
  · rintro ⟨t, ht, hslash, hdir, rfl⟩
    unfold write
    cases hl : w.lookup t.entry <;>
      simp [bind, Except.bind, pure, Except.pure, ht, hslash, hdir, hl]

/-- Reading a path just written gives the bytes written. -/
theorem read_of_write {w w' : WorkDir} {p : String} {b : List UInt8}
    (h : w.write p b = .ok w') : w'.read p = .ok b := by
  obtain ⟨t, ht, hslash, hdir, rfl⟩ := write_eq_ok_iff.1 h
  have hdir' : (w.put t.entry b).isDirAt t.entry = false := by
    rw [isDirAt_put, hdir, startsWith_self_slash]
    rfl
  simp [read, bind, Except.bind, pure, Except.pure, resolve_put ht, hdir', hslash]

/-- A path just written names a file. -/
theorem isFile_of_write {w w' : WorkDir} {p : String} {b : List UInt8}
    (h : w.write p b = .ok w') : w'.isFile p = true := by
  obtain ⟨t, ht, hslash, -, rfl⟩ := write_eq_ok_iff.1 h
  simp [isFile, resolve_put ht, hslash]

/-! ## Plain names and free places -/

/-- A plain name leads to the entry of that name, whatever the directory holds. -/
theorem resolve_name (w : WorkDir) {p : String} (hp : IsName p) :
    w.resolve p = .ok ⟨p, false⟩ := by
  obtain ⟨hslash, hempty, hdot, hdots⟩ := hp
  have hsplit : split p = [p] := by
    simp [split, List.splitOn_eq_singleton hslash]
  have hstart : p.startsWith "/" = false := by
    rw [String.startsWith_string_eq_false_iff]
    intro h
    exact hslash (h.subset (by simp))
  have hne : p.isEmpty = false := by simpa using hempty
  simp [resolve, hsplit, hstart, hne, walk, hempty, hdot, hdots]

/-- A file of a plain name can be written unless a directory has that name. -/
theorem write_name (w : WorkDir) {p : String} (hp : IsName p) (b : List UInt8) :
    w.write p b = if w.isDirAt p then .error .isDirectory else .ok (w.put p b) := by
  unfold write
  cases hd : w.isDirAt p
  · cases hl : w.lookup p <;>
      simp [bind, Except.bind, pure, Except.pure, resolve_name w hp, hl, hd]
  · simp [bind, Except.bind, resolve_name w hp, hd]
    rfl

/-- Writing a file of a plain name leaves every other plain name reading as it did, unless
the name written lies under the one read. -/
theorem read_of_write_other {w w' : WorkDir} {p q : String} (hp : IsName p) (hq : IsName q)
    (hne : q ≠ p) {b : List UInt8} (h : w.write q b = .ok w') : w'.read p = w.read p := by
  have hw : w' = w.put q b := by
    rw [write_name w hq] at h
    split at h
    · cases h
    · cases h
      rfl
  have hunder : q.startsWith (p ++ "/") = false := by
    rw [String.startsWith_string_eq_false_iff]
    intro hpre
    exact hq.1 (hpre.subset (by simp))
  have hdir : (w.put q b).isDirAt p = w.isDirAt p := by rw [isDirAt_put, hunder, Bool.or_false]
  subst hw
  simp only [read, resolve_name _ hp, bind, Except.bind, hdir, lookup_put_of_ne w hne]

/-- A free place for a file can be written. -/
theorem write_of_slot {w : WorkDir} {p : String} (hs : w.FileSlot p)
    (hfree : w.pathExists p = false) (b : List UInt8) : ∃ w', w.write p b = .ok w' := by
  obtain ⟨e, he⟩ := hs
  have hdir : w.isDirAt e = false := by
    simp only [pathExists, isDir, he, Bool.or_eq_false_iff] at hfree
    exact hfree.2
  exact ⟨_, write_eq_ok_iff.2 ⟨⟨e, false⟩, he, rfl, hdir, rfl⟩⟩

end VoiceBench.WorkDir
