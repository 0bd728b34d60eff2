import Mathlib
import VoiceBench.Control.CommandMap
import VoiceBench.Proofs.Text.Alignment

/-!
# Suggestions for unknown command names

A lookup that finds no command fails with the nearest listed command as a suggestion. Nearness
is the optimal string alignment distance from the name uppercased, and the scan over the listed
commands replaces its best candidate only by a strictly nearer one, so of equally near commands
the first declared wins (`foldl_nearer_first_min`).

Main statement: `suggestion_nearest_first`. The distance obeys its laws (`osaDistance_laws`); a
map suggests nothing exactly when it lists no command, and otherwise the first listed command
at the least distance; and a lookup fails exactly when nothing is found, carrying that
suggestion.
-/

namespace VoiceBench.Control

open Text

namespace CommandMap

/-- One step of the scan for a suggestion: the first command seen, or a command strictly nearer
than the best so far. -/
def nearer (f : Command → Nat) (best : Option (Nat × String)) (c : Command) :
    Option (Nat × String) :=
  match best with
  | some (bd, _) => if f c < bd then some (f c, c.name) else best
  | none => some (f c, c.name)

/-- A suggestion scans the listed commands with `nearer`, measuring each by its distance from
the name uppercased. -/
theorem suggest?_eq (m : CommandMap) (name : String) :
    m.suggest? name =
      (m.listed.foldl (nearer fun c => osaDistance (name.map Char.toUpper) c.name) none).map
        (·.2) :=
  rfl

/-- The scan over a non-empty list ends with the first command of least measure: every command
before it measures more, and none measures less. -/
theorem foldl_nearer_first_min (f : Command → Nat) (l : List Command) (h : l ≠ []) :
    ∃ pre c post, l = pre ++ c :: post ∧ l.foldl (nearer f) none = some (f c, c.name) ∧
      (∀ x ∈ l, f c ≤ f x) ∧ ∀ x ∈ pre, f c < f x := by
  -- by induction from the end of the list: the scan meets the last command last
  induction l using List.reverseRecOn with
  | nil => exact absurd rfl h
  | append_singleton l c ih =>
    rw [List.foldl_append, List.foldl_cons, List.foldl_nil]
    by_cases hl : l = []
    · subst hl
      exact ⟨[], c, [], rfl, rfl, by simp, by simp⟩
    obtain ⟨pre, c₀, post, rfl, hfold, hmin, hfirst⟩ := ih hl
    rw [hfold]
    by_cases hlt : f c < f c₀
    · -- the last command is strictly nearer than every command before it
      refine ⟨pre ++ c₀ :: post, c, [], by simp, by simp [nearer, hlt], fun x hx => ?_,
        fun x hx => lt_of_lt_of_le hlt (hmin x hx)⟩
      rcases List.mem_append.1 hx with hx | hx
      · exact (le_of_lt hlt).trans (hmin x hx)
      · rw [List.mem_singleton.1 hx]
    · refine ⟨pre, c₀, post ++ [c], by simp, by simp [nearer, hlt], fun x hx => ?_, hfirst⟩
      rcases List.mem_append.1 hx with hx | hx
      · exact hmin x hx
      · rw [List.mem_singleton.1 hx]
        exact Nat.le_of_not_lt hlt

/-- A map suggests nothing exactly when it lists no command. -/
theorem suggest?_eq_none_iff (m : CommandMap) (name : String) :
    m.suggest? name = none ↔ m.listed = [] := by
  constructor
  · intro h
    by_contra hl
    obtain ⟨_, _, _, _, hfold, _, _⟩ := foldl_nearer_first_min
      (fun c => osaDistance (name.map Char.toUpper) c.name) m.listed hl
    rw [suggest?_eq, hfold] at h
    cases h
  · intro hl
    rw [suggest?_eq, hl]
    rfl

/-- A map that lists a command suggests the first listed command at the least distance from the
name uppercased. -/
theorem suggest?_first_nearest (m : CommandMap) (name : String) (h : m.listed ≠ []) :
    ∃ pre c post, m.listed = pre ++ c :: post ∧ m.suggest? name = some c.name ∧
      (∀ x ∈ m.listed, osaDistance (name.map Char.toUpper) c.name ≤
        osaDistance (name.map Char.toUpper) x.name) ∧
      ∀ x ∈ pre, osaDistance (name.map Char.toUpper) c.name <
        osaDistance (name.map Char.toUpper) x.name := by
  obtain ⟨pre, c, post, hl, hfold, hmin, hfirst⟩ := foldl_nearer_first_min
    (fun c => osaDistance (name.map Char.toUpper) c.name) m.listed h
  exact ⟨pre, c, post, hl, by rw [suggest?_eq, hfold]; rfl, hmin, hfirst⟩

/-- A lookup fails exactly when no command has the name, naming it uppercased and carrying the
suggestion. -/
theorem lookup_eq_error_iff (m : CommandMap) (name : String) (e : Error) :
    m.lookup name = .error e ↔
      m.find? name = none ∧ e = .unknownCommand (name.map Char.toUpper) (m.suggest? name) := by
  unfold lookup
  cases m.find? name with
  | some c => simp
  | none => simp [eq_comm]

end CommandMap

/-- Suggestions by optimal string alignment. For all texts the distance is symmetric, zero
exactly between equal texts, between the difference of the lengths and the larger length, and
the last cell of the table of its recurrence. For every map and name, the suggestion is absent
exactly when no command is listed, and otherwise it is the first listed command at the least
distance from the name uppercased; a lookup fails exactly when no command has the name, and its
failure carries that suggestion. -/
theorem suggestion_nearest_first :
    (∀ a b : String, osaDistance a b = osaDistance b a ∧ (osaDistance a b = 0 ↔ a = b) ∧
      ((a.length : Int) - b.length).natAbs ≤ osaDistance a b ∧
      osaDistance a b ≤ max a.length b.length ∧
      osaDistance a b = osaTable a.toList b.toList a.length b.length) ∧
    ∀ (m : CommandMap) (name : String),
      (m.suggest? name = none ↔ m.listed = []) ∧
      (m.listed ≠ [] → ∃ pre c post, m.listed = pre ++ c :: post ∧ m.suggest? name = some c.name ∧
        (∀ x ∈ m.listed, osaDistance (name.map Char.toUpper) c.name ≤
          osaDistance (name.map Char.toUpper) x.name) ∧
        ∀ x ∈ pre, osaDistance (name.map Char.toUpper) c.name <
          osaDistance (name.map Char.toUpper) x.name) ∧
      ∀ e, m.lookup name = .error e ↔
        m.find? name = none ∧ e = .unknownCommand (name.map Char.toUpper) (m.suggest? name) :=
  ⟨osaDistance_laws, fun m name => ⟨m.suggest?_eq_none_iff name, m.suggest?_first_nearest name,
    m.lookup_eq_error_iff name⟩⟩

/-- A misspelt name in lower case is matched to the command it transposes two letters of. -/
example : CommandMap.testMap.suggest? "cmd_flaot" = some "CMD_FLOAT" := by decide +kernel

end VoiceBench.Control
