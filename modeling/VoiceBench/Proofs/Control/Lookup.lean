import Mathlib
import VoiceBench.Control.MapFile
import VoiceBench.Proofs.Control.Registers

/-!
# Finding a command whatever the case of its name

`CommandMap.find?` uppercases the name it is given, ASCII letters only, and looks for a command
whose name is exactly that. Names are compared as the map holds them, so the lookup ignores
case only for commands named in upper case.

* Uppercasing a character twice is uppercasing it once (`toUpper_toUpper`), so a name that was
  uppercased is in upper case (`map_toUpper_idem`).
* A map read from its text has every name uppercased and is consistent (`ofText_upper_names`);
  the built-in test map is named in upper case (`testMap_upper_names`).

Main statement: `find_ignores_ascii_case`. In a consistent map whose names are in upper case, a
name equal to a command's up to ASCII case finds that command, by `find?` and by `lookup`, and no
two commands have names equal up to case. A map built from commands as they are written keeps a
name in lower case, and nothing finds that command (`lower_case_name_unfound`).
-/

namespace VoiceBench.Control

/-! ## Upper case -/

/-- Uppercasing moves the code of a lower-case ASCII letter down by 32 and keeps every other. -/
theorem toNat_toUpper (c : Char) :
    c.toUpper.toNat = if 97 ≤ c.toNat ∧ c.toNat ≤ 122 then c.toNat - 32 else c.toNat := by
  have ha : ('a'.val).toNat = 97 := rfl
  have hz : ('z'.val).toNat = 122 := rfl
  -- the offset `'A' - 'a'` is a 32-bit word, so the sum wraps around
  have hd : ('A'.val - 'a'.val).toNat = 4294967264 := rfl
  unfold Char.toUpper
  split
  next h =>
    simp only [UInt32.le_iff_toNat_le, ha, hz] at h
    simp only [Char.toNat, UInt32.toNat_add, hd]
    rw [if_pos h]
    omega
  next h =>
    simp only [UInt32.le_iff_toNat_le, ha, hz] at h
    simp only [Char.toNat]
    rw [if_neg h]

@[simp] theorem toUpper_toUpper (c : Char) : c.toUpper.toUpper = c.toUpper := by
  apply Char.ext
  apply UInt32.toNat_inj.1
  have h1 := toNat_toUpper c
  have h2 := toNat_toUpper c.toUpper
  simp only [Char.toNat] at h1 h2
  split at h1 <;> split at h2 <;> omega

/-- An uppercased name is in upper case. -/
@[simp] theorem map_toUpper_idem (s : String) :
    (s.map Char.toUpper).map Char.toUpper = s.map Char.toUpper := by
  rw [String.map_map]
  congr 1
  funext c
  exact toUpper_toUpper c

namespace CommandMap

/-- A map read from its text is consistent and names its commands in upper case. -/
theorem ofText_upper_names {toml : Toml.Codec} {text path : String} {m : CommandMap}
    (h : ofText toml text path = .ok m) :
    m.validate = .ok () ∧ ∀ c ∈ m.commands, c.name.map Char.toUpper = c.name := by
  unfold ofText at h
  cases hp : (toml.parse text).mapError fun e => Error.mapParse path e with
  | error e => simp [hp, bind, Except.bind] at h
  | ok doc =>
    cases hd : (ofToml doc).mapError fun e => Error.mapParse path e with
    | error e => simp [hp, hd, bind, Except.bind] at h
    | ok m₀ =>
      simp only [hp, hd, bind, Except.bind] at h
      cases hv : validate { m₀ with commands := m₀.commands.map fun c =>
          { c with name := c.name.map Char.toUpper } } with
      | error e => simp [hv] at h
      | ok u =>
        simp only [hv] at h
        cases h
        refine ⟨hv, fun c hc => ?_⟩
        obtain ⟨c₀, -, rfl⟩ := List.mem_map.1 hc
        exact map_toUpper_idem c₀.name

/-- The test map names its commands in upper case. -/
theorem testMap_upper_names : ∀ c ∈ testMap.commands, c.name.map Char.toUpper = c.name := by
  simp [testMap, Command.make, Function.comp_def]

/-! ## Finding a command -/

/-- A name finds, by `find?` and by `lookup`, the first command named as the name uppercased. -/
theorem find?_eq_some_of_upper {m : CommandMap} (hm : m.validate = .ok ()) {c : Command}
    (hc : c ∈ m.commands) (hup : c.name.map Char.toUpper = c.name) {s : String}
    (hs : s.map Char.toUpper = c.name.map Char.toUpper) :
    m.find? s = some c ∧ m.lookup s = .ok c := by
  have hfind : m.find? s = some c := by
    unfold find?
    simp only [hs, hup]
    exact find?_name_of_nodup (validate_sound hm).1 hc
  exact ⟨hfind, by simp [lookup, hfind]⟩

/-- Names in upper case that are distinct stay distinct once uppercased. -/
theorem nodup_upper_names {cs : List Command} (hn : (cs.map (·.name)).Nodup)
    (hup : ∀ c ∈ cs, c.name.map Char.toUpper = c.name) :
    (cs.map fun c => c.name.map Char.toUpper).Nodup := by
  have heq : (cs.map fun c => c.name.map Char.toUpper) = cs.map (·.name) :=
    List.map_congr_left hup
  rw [heq]
  exact hn

/-- In a consistent map whose commands are named in upper case, as a map read from its text and
the test map are, a name equal to a command's name up to ASCII case finds that command, by
`find?` and by `lookup`, and no two commands have names equal up to ASCII case. -/
theorem find_ignores_ascii_case {m : CommandMap} (hm : m.validate = .ok ())
    (hup : ∀ c ∈ m.commands, c.name.map Char.toUpper = c.name) :
    (∀ c ∈ m.commands, ∀ s : String, s.map Char.toUpper = c.name.map Char.toUpper →
      m.find? s = some c ∧ m.lookup s = .ok c) ∧
    (m.commands.map fun c => c.name.map Char.toUpper).Nodup :=
  ⟨fun c hc _ hs => find?_eq_some_of_upper hm hc (hup c hc) hs,
    nodup_upper_names (validate_sound hm).1 hup⟩

/-- A map of a float command `gain` and a text command `build_id`. -/
def gainMap : CommandMap :=
  ⟨"test", [Command.make "gain" 0 10 .float .readWrite 1 "",
    Command.make "build_id" 0 11 .char .readOnly 8 ""]⟩

/-- `gainMap` is consistent and named in upper case, and `GaIn` finds its float command. -/
theorem gain_found_in_any_case :
    gainMap.validate = .ok () ∧ (∀ c ∈ gainMap.commands, c.name.map Char.toUpper = c.name) ∧
      gainMap.find? "GaIn" = some (Command.make "gain" 0 10 .float .readWrite 1 "") ∧
      gainMap.lookup "GaIn" = .ok (Command.make "gain" 0 10 .float .readWrite 1 "") := by
  have hm : gainMap.validate = .ok () := by decide +kernel
  have hup : ∀ c ∈ gainMap.commands, c.name.map Char.toUpper = c.name := by
    simp [gainMap, Command.make, Function.comp_def]
  have hcase : "GaIn".map Char.toUpper =
      (Command.make "gain" 0 10 .float .readWrite 1 "").name.map Char.toUpper := by
    simp [Command.make, String.map_eq_internal]
  exact ⟨hm, hup, (find_ignores_ascii_case hm hup).1 _ (by simp [gainMap]) "GaIn" hcase⟩

/-- A map given a command named `a` as written is consistent, yet the name `a` is looked up as
`A` and finds nothing. -/
theorem lower_case_name_unfound :
    let m : CommandMap := ⟨"t", [{ name := "a", resource := 0, id := 1, type := .uint8,
                                   mode := .readWrite, count := 1 }]⟩
    m.validate = .ok () ∧ m.find? "a" = none := by
  decide +kernel

end CommandMap

end VoiceBench.Control
