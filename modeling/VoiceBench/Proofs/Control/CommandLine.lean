import Mathlib
import VoiceBench.Control.Args

/-!
# Reading a host command line

`HostReads` states, without reference to the parser, how a host command line is read from left
to right: each token is an option of the host table, named in its long or short form ignoring
ASCII case, a command name, or the cause of a failure. `--use` and `--command-map` take the next
token whatever it looks like; `--execute-command-list` takes it only when it does not start with
a dash, and `commands.txt` otherwise. The first token that starts with no dash and is not an
option's value names the command, and every later token is one of its arguments. The options
read set the items of the line (`HostItem`).

What the items set is stated on the whole list (`HostArgs.ofItems`): the action is the first
one given, the command counting as the last; the protocol and the command map are the last
ones given; the range check is bypassed when any option asks for it.

Main statement: `parse_reads_left_to_right`. Every token list has a reading, and the parser
returns what any reading of it gives. The parser sets the fields option by option
(`parseFrom_of_hostReads`), and setting them in order gives the values `ofItems` states, the
first action winning because no option's action is the hint (`HostReads.actions_ne_hint`).
A token names at most one option, since no two options share a form (`eq_of_names`).
-/

namespace VoiceBench.Control

/-! ## Options named by a token -/

namespace OptionSpec

/-- The long and the short form of an option. -/
def forms (o : OptionSpec) : List String := [o.long, o.short]

theorem names_iff (o : OptionSpec) (t : String) :
    o.names t = true ↔ t.map Char.toLower ∈ o.forms := by
  simp [names, forms]

end OptionSpec

/-- No two forms of the host options are equal. -/
theorem hostOptions_forms_nodup : (hostOptions.flatMap OptionSpec.forms).Nodup := by
  decide

/-- A token names at most one host option. -/
theorem eq_of_names {o₁ o₂ : OptionSpec} (h₁ : o₁ ∈ hostOptions) (h₂ : o₂ ∈ hostOptions)
    {t : String} (n₁ : o₁.names t = true) (n₂ : o₂.names t = true) : o₁ = o₂ := by
  by_contra hne
  have hsymm : Std.Symm (Function.onFun List.Disjoint OptionSpec.forms) :=
    ⟨fun _ _ h => List.Disjoint.symm h⟩
  have hdisj := (List.nodup_flatMap.1 hostOptions_forms_nodup).2.forall h₁ h₂ hne
  exact hdisj ((o₁.names_iff t).1 n₁) ((o₂.names_iff t).1 n₂)

/-- The option found for a token is the host option it names. -/
theorem findOption_eq_some_iff {t : String} {o : OptionSpec} :
    findOption hostOptions t = some o ↔ o ∈ hostOptions ∧ o.names t = true := by
  unfold findOption
  constructor
  · intro h
    have hn : o.names t = true := List.find?_some (p := fun x : OptionSpec => x.names t) h
    exact ⟨List.mem_of_find?_eq_some h, hn⟩
  · rintro ⟨ho, hn⟩
    obtain ⟨o', ho'⟩ : ∃ o', hostOptions.find? (·.names t) = some o' :=
      Option.isSome_iff_exists.1 (List.find?_isSome.2 ⟨o, ho, hn⟩)
    have hn' : o'.names t = true := List.find?_some (p := fun x : OptionSpec => x.names t) ho'
    rw [ho', eq_of_names (List.mem_of_find?_eq_some ho') ho hn' hn]

/-- No option is found for a token that names none. -/
theorem findOption_eq_none_iff {t : String} :
    findOption hostOptions t = none ↔ ∀ o ∈ hostOptions, o.names t = false := by
  simp [findOption, List.find?_eq_none]

/-- The long form of a host option is one of the eight. -/
theorem long_of_mem_hostOptions {o : OptionSpec} (h : o ∈ hostOptions) :
    o.long = "--help" ∨ o.long = "--version" ∨ o.long = "--list-commands" ∨ o.long = "--use" ∨
      o.long = "--command-map" ∨ o.long = "--bypass-range-check" ∨ o.long = "--dump-params" ∨
      o.long = "--execute-command-list" := by
  simp only [hostOptions, List.mem_cons, List.not_mem_nil, or_false] at h
  rcases h with rfl | rfl | rfl | rfl | rfl | rfl | rfl | rfl <;> simp

/-- A protocol name that names no protocol fails as an unknown protocol. -/
theorem Protocol.parse_eq_error {s : String} {e : Error} (h : Protocol.parse s = .error e) :
    e = .unknownProtocol s := by
  unfold Protocol.parse at h
  split at h <;> cases h
  rfl

/-! ## What the options set -/

/-- What one option of a host command line sets. -/
inductive HostItem where
  | action (a : HostAction)
  | protocol (p : Protocol)
  | commandMap (path : String)
  | bypass

namespace HostItem

def action? : HostItem → Option HostAction
  | action a => some a
  | _ => none

def protocol? : HostItem → Option Protocol
  | protocol p => some p
  | _ => none

def commandMap? : HostItem → Option String
  | commandMap path => some path
  | _ => none

def isBypass : HostItem → Bool
  | bypass => true
  | _ => false

/-- What an option that takes no value sets, by its long form. -/
def ofFlag? : String → Option HostItem
  | "--help" => some (action .help)
  | "--version" => some (action .version)
  | "--list-commands" => some (action .listCommands)
  | "--dump-params" => some (action .dumpParams)
  | "--bypass-range-check" => some bypass
  | _ => none

/-- The options without a value are the four actions and the bypass. -/
theorem ofFlag?_eq_some {l : String} {item : HostItem} (h : ofFlag? l = some item) :
    (l = "--help" ∧ item = action .help) ∨ (l = "--version" ∧ item = action .version) ∨
      (l = "--list-commands" ∧ item = action .listCommands) ∨
      (l = "--dump-params" ∧ item = action .dumpParams) ∨
      (l = "--bypass-range-check" ∧ item = bypass) := by
  unfold ofFlag? at h
  split at h <;> (try cases h) <;> simp

/-- The host options that set no item of their own are the three that take a value. -/
theorem long_of_ofFlag?_eq_none {o : OptionSpec} (ho : o ∈ hostOptions)
    (h : ofFlag? o.long = none) :
    o.long = "--use" ∨ o.long = "--command-map" ∨ o.long = "--execute-command-list" := by
  rcases long_of_mem_hostOptions ho with hl | hl | hl | hl | hl | hl | hl | hl <;>
    rw [hl] at h ⊢ <;> cases h <;> simp

/-- Setting what an item sets, the first action given staying. -/
def apply (a : HostArgs) : HostItem → HostArgs
  | action x => a.setAction x
  | protocol p => { a with protocol := p }
  | commandMap path => { a with commandMap := some path }
  | bypass => { a with bypass := true }

end HostItem

/-- How a host command line ends: after its last option, with a command and its arguments, or
with a failure. -/
inductive HostEnd where
  | options
  | command (name : String) (args : List String)
  | failure (e : Error)

/-- The arguments the items of a line set, given the command that ends it, if any: the first
action given, the command last; the last protocol and command map given; the bypass when any
option asks for it. -/
def HostArgs.ofItems (items : List HostItem) (cmd : Option (String × List String)) : HostArgs where
  protocol := ((items.filterMap HostItem.protocol?).getLast?).getD .i2c
  commandMap := (items.filterMap HostItem.commandMap?).getLast?
  bypass := items.any HostItem.isBypass
  action := ((items.filterMap HostItem.action? ++
    (cmd.map fun c => HostAction.command c.1 c.2).toList).head?).getD .hint

/-- The result of a line read into its items, by how it ends. -/
def HostEnd.result (items : List HostItem) : HostEnd → Except Error HostArgs
  | options => .ok (HostArgs.ofItems items none)
  | command name args => .ok (HostArgs.ofItems items (some (name, args)))
  | failure e => .error e

/-! ## The reading of a line -/

/-- A host command line read from left to right into the items its options set and how it
ends. -/
inductive HostReads : List String → List HostItem → HostEnd → Prop
  /-- The line is over after its options. -/
  | done : HostReads [] [] .options
  /-- The first token without a dash names the command; every later token is an argument. -/
  | command {t : String} (args : List String) :
      t.startsWith "-" = false → HostReads (t :: args) [] (.command t args)
  /-- A token with a dash that names no option fails the line. -/
  | unknown {t : String} (rest : List String) :
      t.startsWith "-" = true → (∀ o ∈ hostOptions, o.names t = false) →
      HostReads (t :: rest) [] (.failure (.usage s!"Option {t} does not exist.\n{noArgsHint}"))
  /-- An option without a value sets its item. -/
  | flag {t : String} {o : OptionSpec} {item : HostItem} {rest : List String}
      {items : List HostItem} {e : HostEnd} :
      t.startsWith "-" = true → o ∈ hostOptions → o.names t = true →
      HostItem.ofFlag? o.long = some item → HostReads rest items e →
      HostReads (t :: rest) (item :: items) e
  /-- `--use` takes the next token, whatever it is, as a protocol. -/
  | protocol {t v : String} {o : OptionSpec} {p : Protocol} {rest : List String}
      {items : List HostItem} {e : HostEnd} :
      t.startsWith "-" = true → o ∈ hostOptions → o.names t = true → o.long = "--use" →
      Protocol.parse v = .ok p → HostReads rest items e →
      HostReads (t :: v :: rest) (.protocol p :: items) e
  /-- `--use` fails the line on a token that names no protocol. -/
  | unknownProtocol {t v : String} {o : OptionSpec} (rest : List String) :
      t.startsWith "-" = true → o ∈ hostOptions → o.names t = true → o.long = "--use" →
      (∀ p, Protocol.parse v ≠ .ok p) →
      HostReads (t :: v :: rest) [] (.failure (.unknownProtocol v))
  /-- `--command-map` takes the next token, whatever it is, as the map's path. -/
  | commandMap {t v : String} {o : OptionSpec} {rest : List String} {items : List HostItem}
      {e : HostEnd} :
      t.startsWith "-" = true → o ∈ hostOptions → o.names t = true → o.long = "--command-map" →
      HostReads rest items e → HostReads (t :: v :: rest) (.commandMap v :: items) e
  /-- `--use` or `--command-map` as the last token fails the line. -/
  | missingValue {t : String} {o : OptionSpec} :
      t.startsWith "-" = true → o ∈ hostOptions → o.names t = true →
      (o.long = "--use" ∨ o.long = "--command-map") →
      HostReads [t] [] (.failure (HostArgs.needsValue o.long))
  /-- `--execute-command-list` takes the next token as the list when it has no dash. -/
  | listNamed {t v : String} {o : OptionSpec} {rest : List String} {items : List HostItem}
      {e : HostEnd} :
      t.startsWith "-" = true → o ∈ hostOptions → o.names t = true →
      o.long = "--execute-command-list" → v.startsWith "-" = false → HostReads rest items e →
      HostReads (t :: v :: rest) (.action (.executeList v) :: items) e
  /-- `--execute-command-list` before a token with a dash, or last, runs `commands.txt`. -/
  | listDefault {t : String} {o : OptionSpec} {rest : List String} {items : List HostItem}
      {e : HostEnd} :
      t.startsWith "-" = true → o ∈ hostOptions → o.names t = true →
      o.long = "--execute-command-list" → (∀ v ∈ rest.head?, v.startsWith "-" = true) →
      HostReads rest items e →
      HostReads (t :: rest) (.action (.executeList defaultCommandList) :: items) e

/-! ## Every line has a reading -/

/-- Every token list is read, token by token as the parser takes them. -/
theorem hostReads_exists : ∀ ts : List String, ∃ items e, HostReads ts items e
  | [] => ⟨[], _, .done⟩
  | t :: rest => by
    cases hdash : t.startsWith "-"
    · exact ⟨[], _, .command rest hdash⟩
    cases hfind : findOption hostOptions t with
    | none => exact ⟨[], _, .unknown rest hdash (findOption_eq_none_iff.1 hfind)⟩
    | some o =>
      obtain ⟨ho, hn⟩ := findOption_eq_some_iff.1 hfind
      cases hflag : HostItem.ofFlag? o.long with
      | some item =>
        obtain ⟨items, e, hr⟩ := hostReads_exists rest
        exact ⟨_, _, .flag hdash ho hn hflag hr⟩
      | none =>
        -- one case per option that takes a value
        rcases HostItem.long_of_ofFlag?_eq_none ho hflag with h | h | h
        · rcases rest with _ | ⟨v, more⟩
          · exact ⟨[], _, .missingValue hdash ho hn (.inl h)⟩
          · cases hp : Protocol.parse v with
            | error err => exact ⟨[], _, .unknownProtocol more hdash ho hn h (by simp [hp])⟩
            | ok p =>
              obtain ⟨items, e, hr⟩ := hostReads_exists more
              exact ⟨_, _, .protocol hdash ho hn h hp hr⟩
        · rcases rest with _ | ⟨v, more⟩
          · exact ⟨[], _, .missingValue hdash ho hn (.inr h)⟩
          · obtain ⟨items, e, hr⟩ := hostReads_exists more
            exact ⟨_, _, .commandMap hdash ho hn h hr⟩
        · rcases rest with _ | ⟨v, more⟩
          · exact ⟨_, _, .listDefault hdash ho hn h (by simp) .done⟩
          · cases hv : v.startsWith "-"
            · obtain ⟨items, e, hr⟩ := hostReads_exists more
              exact ⟨_, _, .listNamed hdash ho hn h hv hr⟩
            · obtain ⟨items, e, hr⟩ := hostReads_exists (v :: more)
              exact ⟨_, _, .listDefault hdash ho hn h (by simpa using hv) hr⟩
termination_by ts => ts.length

/-! ## The parser follows the reading -/

/-- The result of a line whose items were set on the arguments, by how it ends. -/
def HostEnd.finish (a : HostArgs) : HostEnd → Except Error HostArgs
  | options => .ok a
  | command name args => .ok (a.setAction (.command name args))
  | failure e => .error e

/-- The parser sets the items of a reading one after another, then ends as the reading does. -/
theorem parseFrom_of_hostReads {ts : List String} {items : List HostItem} {e : HostEnd}
    (h : HostReads ts items e) (a : HostArgs) :
    a.parseFrom ts = e.finish (items.foldl HostItem.apply a) := by
  induction h generalizing a with
  | done => rw [HostArgs.parseFrom.eq_1]; rfl
  | command args hdash =>
    rw [HostArgs.parseFrom.eq_def]
    simp [hdash, HostEnd.finish]
  | unknown rest hdash hnone =>
    rw [HostArgs.parseFrom.eq_def]
    simp [hdash, findOption_eq_none_iff.2 hnone, HostEnd.finish]
  | flag hdash ho hn hitem _ ih =>
    rw [HostArgs.parseFrom.eq_def]
    simp only [hdash, findOption_eq_some_iff.2 ⟨ho, hn⟩, Bool.not_true, Bool.false_eq_true,
      if_false, List.foldl_cons]
    rcases HostItem.ofFlag?_eq_some hitem with ⟨hl, rfl⟩ | ⟨hl, rfl⟩ | ⟨hl, rfl⟩ | ⟨hl, rfl⟩ |
      ⟨hl, rfl⟩ <;> simp only [hl] <;> exact ih _
  | protocol hdash ho hn hl hp _ ih =>
    rw [HostArgs.parseFrom.eq_def]
    simp only [hdash, findOption_eq_some_iff.2 ⟨ho, hn⟩, Bool.not_true, Bool.false_eq_true,
      if_false, hl, hp, List.foldl_cons]
    exact ih _
  | unknownProtocol rest hdash ho hn hl hnot =>
    cases hp : Protocol.parse _ with
    | ok p => exact absurd hp (hnot p)
    | error err =>
      rw [HostArgs.parseFrom.eq_def]
      simp only [hdash, findOption_eq_some_iff.2 ⟨ho, hn⟩, Bool.not_true, Bool.false_eq_true,
        if_false, hl, hp]
      rw [Protocol.parse_eq_error hp]
      rfl
  | commandMap hdash ho hn hl _ ih =>
    rw [HostArgs.parseFrom.eq_def]
    simp only [hdash, findOption_eq_some_iff.2 ⟨ho, hn⟩, Bool.not_true, Bool.false_eq_true,
      if_false, hl, List.foldl_cons]
    exact ih _
  | missingValue hdash ho hn hl =>
    rw [HostArgs.parseFrom.eq_def]
    simp only [hdash, findOption_eq_some_iff.2 ⟨ho, hn⟩, Bool.not_true, Bool.false_eq_true,
      if_false]
    rcases hl with hl | hl <;> simp only [hl] <;> rfl
  | listNamed hdash ho hn hl hv _ ih =>
    rw [HostArgs.parseFrom.eq_def]
    simp only [hdash, findOption_eq_some_iff.2 ⟨ho, hn⟩, Bool.not_true, Bool.false_eq_true,
      if_false, hl, hv, Bool.not_false, if_true, List.foldl_cons]
    exact ih _
  | @listDefault t o rest items e hdash ho hn hl hnext _ ih =>
    rw [HostArgs.parseFrom.eq_def]
    simp only [hdash, findOption_eq_some_iff.2 ⟨ho, hn⟩, Bool.not_true, Bool.false_eq_true,
      if_false, hl, List.foldl_cons]
    rcases rest with _ | ⟨v, more⟩
    · exact ih _
    · have hv : v.startsWith "-" = true := hnext v (by simp)
      simp only [hv, Bool.not_true, Bool.false_eq_true, if_false]
      exact ih _

/-! ## What the items set, on the whole line -/

section
variable (items : List HostItem)

/-- The protocol is the last one given. -/
theorem protocol_foldl_apply (a : HostArgs) :
    (items.foldl HostItem.apply a).protocol =
      ((items.filterMap HostItem.protocol?).getLast?).getD a.protocol := by
  induction items generalizing a with
  | nil => rfl
  | cons item items ih =>
    rw [List.foldl_cons, ih]
    cases item <;> simp [HostItem.apply, HostItem.protocol?, HostArgs.setAction, List.getLast?_cons]
    · split <;> rfl

/-- The command map is the last one given. -/
theorem commandMap_foldl_apply (a : HostArgs) :
    (items.foldl HostItem.apply a).commandMap =
      ((items.filterMap HostItem.commandMap?).getLast?).or a.commandMap := by
  induction items generalizing a with
  | nil => simp
  | cons item items ih =>
    rw [List.foldl_cons, ih]
    cases item <;> simp [HostItem.apply, HostItem.commandMap?, HostArgs.setAction,
      List.getLast?_cons]
    · split <;> rfl

/-- The range check is bypassed when any option asks for it. -/
theorem bypass_foldl_apply (a : HostArgs) :
    (items.foldl HostItem.apply a).bypass = (a.bypass || items.any HostItem.isBypass) := by
  induction items generalizing a with
  | nil => simp
  | cons item items ih =>
    rw [List.foldl_cons, ih]
    cases item <;> simp [HostItem.apply, HostItem.isBypass, HostArgs.setAction]
    · split <;> rfl

/-- The action is the first one given, when no option gives the hint. -/
theorem action_foldl_apply (hnh : ∀ x ∈ items.filterMap HostItem.action?, x ≠ .hint)
    (a : HostArgs) :
    (items.foldl HostItem.apply a).action =
      if a.action = .hint then ((items.filterMap HostItem.action?).head?).getD .hint
      else a.action := by
  induction items generalizing a with
  | nil => simp
  | cons item items ih =>
    have hsub := (List.sublist_cons_self item items).filterMap HostItem.action?
    rw [List.foldl_cons, ih (fun x hx => hnh x (hsub.subset hx))]
    cases item with
    | action x =>
      have hx : x ≠ .hint := hnh x (by simp [HostItem.action?])
      by_cases ha : a.action = .hint <;> simp [HostItem.apply, HostItem.action?,
        HostArgs.setAction, ha, hx]
    | protocol p => rfl
    | commandMap path => rfl
    | bypass => rfl

end

/-- No option of a reading gives the hint as its action. -/
theorem HostReads.actions_ne_hint {ts : List String} {items : List HostItem} {e : HostEnd}
    (h : HostReads ts items e) : ∀ x ∈ items.filterMap HostItem.action?, x ≠ .hint := by
  induction h with
  | done | command | unknown | unknownProtocol | missingValue => simp
  | flag _ _ _ hitem _ ih =>
    rcases HostItem.ofFlag?_eq_some hitem with ⟨-, rfl⟩ | ⟨-, rfl⟩ | ⟨-, rfl⟩ | ⟨-, rfl⟩ |
      ⟨-, rfl⟩ <;> simpa [HostItem.action?] using ih
  | protocol _ _ _ _ _ _ ih | commandMap _ _ _ _ _ ih => simpa [HostItem.action?] using ih
  | listNamed _ _ _ _ _ _ ih | listDefault _ _ _ _ _ _ ih => simpa [HostItem.action?] using ih

/-- Setting items in which no action is the hint on the default arguments gives what `ofItems`
states for them. -/
theorem foldl_apply_default {items : List HostItem}
    (hnh : ∀ x ∈ items.filterMap HostItem.action?, x ≠ .hint) :
    items.foldl HostItem.apply {} = HostArgs.ofItems items none := by
  have hp := protocol_foldl_apply items {}
  have hc := commandMap_foldl_apply items {}
  have hb := bypass_foldl_apply items {}
  have ha := action_foldl_apply items hnh {}
  generalize items.foldl HostItem.apply {} = r at hp hc hb ha
  rcases r with ⟨p, c, b, act⟩
  simp only [if_true, Option.or_none, Bool.false_or] at hp hc hb ha
  subst hp hc hb ha
  simp [HostArgs.ofItems]

/-- A command ends the items as their last action: it is the action only when no option gave
one. -/
theorem setAction_command_ofItems {items : List HostItem}
    (hnh : ∀ x ∈ items.filterMap HostItem.action?, x ≠ .hint) (name : String)
    (args : List String) :
    (HostArgs.ofItems items none).setAction (.command name args) =
      HostArgs.ofItems items (some (name, args)) := by
  cases hfirst : items.filterMap HostItem.action? with
  | nil => simp [HostArgs.ofItems, HostArgs.setAction, hfirst]
  | cons x xs =>
    have hx : x ≠ .hint := hnh x (by simp [hfirst])
    simp [HostArgs.ofItems, HostArgs.setAction, hfirst, hx]

/-- Setting the items of a reading on the default arguments and ending as the reading ends gives
its result. -/
theorem finish_foldl_apply {items : List HostItem}
    (hnh : ∀ x ∈ items.filterMap HostItem.action?, x ≠ .hint) (e : HostEnd) :
    e.finish (items.foldl HostItem.apply {}) = e.result items := by
  rw [foldl_apply_default hnh]
  cases e with
  | options => rfl
  | command name args => exact congrArg Except.ok (setAction_command_ofItems hnh name args)
  | failure err => rfl

/-- Option parsing follows its left-to-right reading. Every token list has a reading, and the
parser returns what any reading gives: the action first given, the command counting last, the
last protocol and command map given, the bypass when asked for, or the failure the reading ends
with. -/
theorem parse_reads_left_to_right (ts : List String) :
    (∃ items e, HostReads ts items e) ∧
    ∀ items e, HostReads ts items e → HostArgs.parse ts = e.result items :=
  ⟨hostReads_exists ts, fun _ e h => by
    rw [HostArgs.parse, parseFrom_of_hostReads h, finish_foldl_apply h.actions_ne_hint e]⟩

end VoiceBench.Control
