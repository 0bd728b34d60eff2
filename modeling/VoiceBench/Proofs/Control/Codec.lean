import Mathlib
import VoiceBench.Control.Command
import VoiceBench.Proofs.Checks

/-!
# The wire form of parameter values

Every value travels as the little-endian bytes of its word, as many as its type's size
(`Value.toBytes_length`), and reading those bytes back as the same type gives the value itself,
bit for bit (`Value.ofBytes?_toBytes`): floats are held as their single-precision encoding, so
a negative zero, an infinity or a NaN payload comes back unchanged. Conversely every run of as
many bytes as the size reads as a value whose wire form is that run (`Value.ofBytes?_eq_some`).

Reading an argument yields a value of the type asked for (`ValueType.parse_type`), so the
values a write parses all have the command's type, one per argument (`mapM_parse_type`).

The decoder cuts a payload into chunks of the type's size; cutting whole chunks glued together
gives them back (`Bytes.chunks_flatten`), and a list whose length is a multiple of the size is
such a gluing (`Bytes.exists_chunked`). So decoding succeeds on exactly the payloads of the
command's length and returns the values whose wire forms make up the payload
(`Command.decode_eq_ok_iff`). The command's length is a machine word: below `2 ^ 64` it is
`count * size`, and decoding is then the inverse of encoding `count` values of the type
(`Command.decode_encode_round_trip`); past it the length wraps, and a command of `2 ^ 62`
four-byte values decodes the empty payload (`Command.wrapped_count_decodes_empty_payload`).
-/

namespace VoiceBench.Bytes

@[simp] theorem ofLE_cons (b : UInt8) (bs : List UInt8) :
    ofLE (b :: bs) = b.toNat + 256 * ofLE bs := rfl

/-- The little-endian bytes of a number read back as the number modulo the width. -/
theorem ofLE_toLE (width n : Nat) : ofLE (toLE width n) = n % Nat.pow 256 width := by
  induction width generalizing n with
  | zero => simp [toLE, ofLE, Nat.mod_one]
  | succ w ih =>
    have hbyte : (UInt8.ofNat (n % 256)).toNat = n % 256 := by simp
    rw [toLE, ofLE_cons, ih, hbyte]
    show _ = n % (Nat.pow 256 w * 256)
    rw [Nat.mul_comm _ 256, Nat.mod_mul]

/-- Little-endian bytes read as a number stay below the weight of the byte after them. -/
theorem ofLE_lt (bs : List UInt8) : ofLE bs < Nat.pow 256 bs.length := by
  induction bs with
  | nil => exact Nat.one_pos
  | cons b bs ih =>
    have hb := b.toNat_lt
    rw [ofLE_cons, List.length_cons]
    show _ < Nat.pow 256 bs.length * 256
    omega

/-- A number read from little-endian bytes is written back as those bytes. -/
theorem toLE_ofLE (bs : List UInt8) : toLE bs.length (ofLE bs) = bs := by
  induction bs with
  | nil => rfl
  | cons b bs ih =>
    have hb := b.toNat_lt
    have hlow : (b.toNat + 256 * ofLE bs) % 256 = b.toNat := by omega
    have hhigh : (b.toNat + 256 * ofLE bs) / 256 = ofLE bs := by omega
    rw [List.length_cons, toLE, ofLE_cons, hlow, hhigh, ih, UInt8.ofNat_toNat]

/-- A list whose length is `k` times a positive size is `k` runs of that size glued together. -/
theorem exists_chunked {α : Type} {size : Nat} (hsize : 0 < size) :
    ∀ (k : Nat) (xs : List α), xs.length = k * size →
      ∃ bs : List (List α), bs.flatten = xs ∧ bs.length = k ∧ ∀ b ∈ bs, b.length = size
  | 0, xs, h => ⟨[], by simpa using (List.length_eq_zero_iff.1 (by simpa using h)).symm,
      rfl, by simp⟩
  | k + 1, xs, h => by
    have hrest : (xs.drop size).length = k * size := by
      rw [List.length_drop, h, Nat.succ_mul, Nat.add_sub_cancel]
    obtain ⟨bs, hflat, hlen, hall⟩ := exists_chunked hsize k (xs.drop size) hrest
    refine ⟨xs.take size :: bs, by simp [hflat], by simp [hlen], fun b hb => ?_⟩
    rcases List.mem_cons.1 hb with rfl | hb
    · rw [List.length_take, h, Nat.succ_mul]
      omega
    · exact hall b hb

/-- Chunks of exactly the size, glued together, are cut back apart, given fuel for each. -/
theorem chunks_go_flatten {α : Type} {size : Nat} (hsize : 0 < size) :
    ∀ (bs : List (List α)) (fuel : Nat), (∀ b ∈ bs, b.length = size) → bs.length ≤ fuel →
      chunks.go size bs.flatten fuel = bs
  | [], fuel, _, _ => by cases fuel <;> simp [chunks.go]
  | b :: bs, fuel, hlen, hfuel => by
    obtain ⟨f, rfl⟩ : ∃ f, fuel = f + 1 := ⟨fuel - 1, by simp at hfuel; omega⟩
    have hb : b.length = size := hlen b (by simp)
    have hne : (b ++ bs.flatten).isEmpty = false := by
      cases b with
      | nil => simp at hb; omega
      | cons _ _ => rfl
    simp only [List.flatten_cons, chunks.go, hne, Bool.false_eq_true, if_false]
    rw [List.take_left' hb, List.drop_left' hb,
      chunks_go_flatten hsize bs f (fun b' hb' => hlen b' (by simp [hb'])) (by simp at hfuel; omega)]

/-- Chunks of exactly the size, glued together, are cut back apart. -/
theorem chunks_flatten {α : Type} {size : Nat} (hsize : 0 < size) (bs : List (List α))
    (hlen : ∀ b ∈ bs, b.length = size) : chunks size bs.flatten = bs := by
  have hle : bs.length ≤ bs.flatten.length := by
    induction bs with
    | nil => simp
    | cons b rest ih =>
      have hb := hlen b (by simp)
      have := ih (fun b' hb' => hlen b' (by simp [hb']))
      simp only [List.flatten_cons, List.length_append, List.length_cons]
      omega
  simp only [chunks, Nat.pos_iff_ne_zero.1 hsize, if_false]
  exact chunks_go_flatten hsize bs _ hlen hle

/-- With fuel for every element, the chunks glue back to the list, and each is non-empty and
at most the size. -/
theorem chunks_go_spec {α : Type} {size : Nat} (hsize : 0 < size) :
    ∀ (fuel : Nat) (rest : List α), rest.length ≤ fuel →
      (chunks.go size rest fuel).flatten = rest ∧
        ∀ ch ∈ chunks.go size rest fuel, ch ≠ [] ∧ ch.length ≤ size
  | 0, rest, h => by
    rw [List.eq_nil_of_length_eq_zero (by omega : rest.length = 0)]
    simp [chunks.go]
  | fuel + 1, rest, h => by
    cases rest with
    | nil => simp [chunks.go]
    | cons x xs =>
      have hdrop : ((x :: xs).drop size).length ≤ fuel := by
        simp only [List.length_drop, List.length_cons] at h ⊢
        omega
      obtain ⟨hflat, hch⟩ := chunks_go_spec hsize fuel _ hdrop
      refine ⟨by simp [chunks.go, hflat], ?_⟩
      intro ch hmem
      simp only [chunks.go, List.isEmpty_cons, Bool.false_eq_true, if_false,
        List.mem_cons] at hmem
      rcases hmem with rfl | hmem
      · exact ⟨by simp [List.take_eq_nil_iff]; omega, List.length_take_le _ _⟩
      · exact hch ch hmem

/-- The chunks of a list glue back to it, and each is non-empty and at most the size. -/
theorem chunks_spec {α : Type} {size : Nat} (hsize : 0 < size) (xs : List α) :
    (chunks size xs).flatten = xs ∧ ∀ ch ∈ chunks size xs, ch ≠ [] ∧ ch.length ≤ size := by
  simp only [chunks, Nat.pos_iff_ne_zero.1 hsize, if_false]
  exact chunks_go_spec hsize _ xs le_rfl

end VoiceBench.Bytes

namespace VoiceBench.Control

/-! ## One value -/

/-- A value's wire form has its type's size. -/
theorem Value.toBytes_length (v : Value) : v.toBytes.length = v.type.size := by
  cases v <;> simp [Value.toBytes, Value.type, ValueType.size]

/-- The four little-endian bytes of a word read back as the word. -/
theorem ofLE_word (x : UInt32) : UInt32.ofNat (Bytes.ofLE (Bytes.toLE 4 x.toNat)) = x := by
  rw [Bytes.ofLE_toLE, Nat.mod_eq_of_lt (by simpa using x.toNat_lt), UInt32.ofNat_toNat]

/-- A value's wire form reads back as the value, bit for bit. -/
theorem Value.ofBytes?_toBytes (v : Value) : Value.ofBytes? v.type v.toBytes = some v := by
  cases v with
  | char b | uint8 b => rfl
  | int32 x => simp [Value.ofBytes?, Value.toBytes, Value.type, ValueType.size, ofLE_word]
  | uint32 x | float x | radians x =>
    simp [Value.ofBytes?, Value.toBytes, Value.type, ValueType.size, ofLE_word]

/-- Four little-endian bytes read as a word are written back as the same bytes. -/
theorem toLE_word {bs : List UInt8} (hlen : bs.length = 4) :
    Bytes.toLE 4 (UInt32.ofNat (Bytes.ofLE bs)).toNat = bs := by
  have hlt : Bytes.ofLE bs < Nat.pow 256 4 := hlen ▸ Bytes.ofLE_lt bs
  rw [UInt32.toNat_ofNat_of_lt' hlt, ← hlen]
  exact Bytes.toLE_ofLE bs

/-- A run of bytes read as a type is a value of that type whose wire form is the run. -/
theorem Value.ofBytes?_eq_some {t : ValueType} {bs : List UInt8} {v : Value}
    (h : Value.ofBytes? t bs = some v) : v.type = t ∧ v.toBytes = bs := by
  unfold Value.ofBytes? at h
  split_ifs at h with hlen
  rw [not_not] at hlen
  cases t with
  | char | uint8 =>
    obtain ⟨b, rfl⟩ : ∃ b, bs = [b] := List.length_eq_one_iff.1 hlen
    cases h
    exact ⟨rfl, rfl⟩
  | int32 =>
    cases h
    refine ⟨rfl, ?_⟩
    show Bytes.toLE 4 (UInt32.ofNat (Bytes.ofLE bs)).toInt32.toUInt32.toNat = bs
    rw [UInt32.toUInt32_toInt32]
    exact toLE_word hlen
  | uint32 | float | radians =>
    cases h
    exact ⟨rfl, toLE_word hlen⟩

/-- Every run of as many bytes as a type's size reads as a value of the type. -/
theorem Value.ofBytes?_isSome {t : ValueType} {bs : List UInt8} (hlen : bs.length = t.size) :
    (Value.ofBytes? t bs).isSome := by
  unfold Value.ofBytes?
  rw [if_neg (not_not.2 hlen)]
  cases t with
  | char | uint8 =>
    obtain ⟨b, rfl⟩ : ∃ b, bs = [b] := List.length_eq_one_iff.1 hlen
    rfl
  | int32 | uint32 | float | radians => rfl

/-! ## Reading arguments -/

/-- A range check that passes leaves the value it checked. -/
theorem eq_of_ite_ok {c : Prop} [Decidable c] {e : Error} {x v : Value}
    (h : (if c then .error e else .ok x : Except Error Value) = .ok v) : x = v := by
  split at h
  · cases h
  · cases h
    rfl

/-- An argument read as a type is a value of that type. -/
theorem ValueType.parse_type {t : ValueType} {s : String} {v : Value} (h : t.parse s = .ok v) :
    v.type = t := by
  unfold ValueType.parse at h
  cases t <;> simp only at h
  case char => cases h
  case uint8 | int32 | uint32 =>
    split at h
    · cases h
    · cases h
    · split at h
      · cases h
        rfl
      · cases h
  case float | radians =>
    split at h
    · cases h
    · rw [← eq_of_ite_ok h]
      rfl

/-- Arguments read as a type give one value of that type each. -/
theorem mapM_parse_type {t : ValueType} {args : List String} {vs : List Value}
    (h : args.mapM t.parse = .ok vs) : vs.length = args.length ∧ ∀ v ∈ vs, v.type = t := by
  obtain ⟨hlen, hall⟩ := mapM_eq_ok_iff_getElem.1 h
  refine ⟨hlen.symm, fun v hv => ?_⟩
  obtain ⟨k, hk, rfl⟩ := List.getElem_of_mem hv
  exact ValueType.parse_type (hall k (hlen ▸ hk) hk)

/-! ## Payloads -/

/-- The payload of values of one type has that type's size for each. -/
theorem Command.encode_length {t : ValueType} {vs : List Value} (h : ∀ v ∈ vs, v.type = t) :
    (Command.encode vs).length = vs.length * t.size := by
  induction vs with
  | nil => simp [Command.encode]
  | cons v rest ih =>
    have hv := h v (by simp)
    simp only [Command.encode, List.flatMap_cons, List.length_append, Value.toBytes_length, hv,
      List.length_cons] at ih ⊢
    rw [ih (fun v' hv' => h v' (by simp [hv']))]
    ring

/-- Runs of a type's size read one by one give values of the type whose wire forms are the
runs. -/
theorem encode_filterMap_ofBytes? {t : ValueType} :
    ∀ {bs : List (List UInt8)}, (∀ b ∈ bs, b.length = t.size) →
      (∀ v ∈ bs.filterMap (Value.ofBytes? t), v.type = t) ∧
        Command.encode (bs.filterMap (Value.ofBytes? t)) = bs.flatten
  | [], _ => by simp [Command.encode]
  | b :: bs, hlen => by
    obtain ⟨v, hv⟩ := Option.isSome_iff_exists.1 (Value.ofBytes?_isSome (hlen b (by simp)))
    obtain ⟨htype, hbytes⟩ := Value.ofBytes?_eq_some hv
    obtain ⟨ihtype, ihenc⟩ := encode_filterMap_ofBytes?
      fun b' (hb' : b' ∈ bs) => hlen b' (List.mem_cons_of_mem b hb')
    rw [List.filterMap_cons_some hv]
    refine ⟨fun v' hv' => ?_, ?_⟩
    · rcases List.mem_cons.1 hv' with rfl | hv'
      · exact htype
      · exact ihtype v' hv'
    · rw [Command.encode, List.flatMap_cons, ← Command.encode, ihenc, hbytes, List.flatten_cons]

/-- The wire forms of values of a command's type, cut into chunks, read back as the values. -/
theorem filterMap_chunks_encode (c : Command) {vs : List Value}
    (htype : ∀ v ∈ vs, v.type = c.type) :
    (Bytes.chunks c.type.size (Command.encode vs)).filterMap (Value.ofBytes? c.type) = vs := by
  have hsize : 0 < c.type.size := by cases c.type <;> decide
  have hchunks : Bytes.chunks c.type.size (Command.encode vs) = vs.map Value.toBytes := by
    rw [Command.encode, List.flatMap_def]
    exact Bytes.chunks_flatten hsize _
      (by simpa [Value.toBytes_length] using fun v hv => by rw [htype v hv])
  rw [hchunks, List.filterMap_map]
  calc vs.filterMap (Value.ofBytes? c.type ∘ Value.toBytes)
      = vs.filterMap some := List.filterMap_congr fun v hv => by
        simp [← htype v hv, Value.ofBytes?_toBytes]
    _ = vs := List.filterMap_some

/-- The payload length of a command is a whole number of values: the word size is a multiple
of every type's size. -/
theorem Command.size_dvd_payloadLength (c : Command) : c.type.size ∣ c.payloadLength := by
  have hword : c.type.size ∣ Nat.pow 2 64 := by cases c.type <;> decide
  exact (Nat.dvd_mod_iff hword).2 (Nat.dvd_mul_left _ _)

/-- A command decodes exactly the payloads of its length, into the values of its type whose
wire forms make up the payload. -/
theorem Command.decode_eq_ok_iff (c : Command) (p : List UInt8) (vs : List Value) :
    c.decode p = .ok vs ↔
      p.length = c.payloadLength ∧ (∀ v ∈ vs, v.type = c.type) ∧ Command.encode vs = p := by
  have hsize : 0 < c.type.size := by cases c.type <;> decide
  constructor
  · intro h
    unfold Command.decode at h
    split_ifs at h with hlen
    rw [not_not] at hlen
    cases h
    obtain ⟨k, hk⟩ := Command.size_dvd_payloadLength c
    obtain ⟨bs, rfl, -, hall⟩ :=
      Bytes.exists_chunked hsize k p (by rw [hlen, hk, Nat.mul_comm])
    rw [Bytes.chunks_flatten hsize bs hall]
    exact ⟨hlen, encode_filterMap_ofBytes? hall⟩
  · rintro ⟨hlen, htype, rfl⟩
    unfold Command.decode
    rw [if_neg (not_not.2 hlen), filterMap_chunks_encode c htype]

/-- A command decodes the payload of as many values of its type as it carries back to those
values, while that many values fit a machine word. -/
theorem Command.decode_encode (c : Command) {vs : List Value}
    (htype : ∀ v ∈ vs, v.type = c.type) (hlen : vs.length = c.count)
    (hfit : c.count * c.type.size < Nat.pow 2 64) :
    c.decode (Command.encode vs) = .ok vs :=
  (Command.decode_eq_ok_iff c _ vs).2
    ⟨by rw [Command.encode_length htype, hlen, Command.payloadLength_of_lt hfit], htype, rfl⟩

/-- The payload codec of a command. Decoding succeeds exactly on the payloads of the command's
length, and returns values of its type, one per size's worth of bytes, that encode back to the
payload. While `count * size` fits a machine word, that length is `count * size`, a decoded
payload holds exactly `count` values, and `count` values of the type encode to a payload of the
command's length that decodes back to them, bit for bit. -/
theorem Command.decode_encode_round_trip (c : Command) :
    (∀ p, (∃ vs, c.decode p = .ok vs) ↔ p.length = c.payloadLength) ∧
    (∀ p vs, c.decode p = .ok vs →
      (∀ v ∈ vs, v.type = c.type) ∧ vs.length * c.type.size = p.length ∧
        Command.encode vs = p) ∧
    (c.count * c.type.size < Nat.pow 2 64 →
      c.payloadLength = c.count * c.type.size ∧
      (∀ p vs, c.decode p = .ok vs → vs.length = c.count) ∧
      ∀ vs : List Value, vs.length = c.count → (∀ v ∈ vs, v.type = c.type) →
        (Command.encode vs).length = c.payloadLength ∧
          c.decode (Command.encode vs) = .ok vs) := by
  have hsize : 0 < c.type.size := by cases c.type <;> decide
  have hdecoded : ∀ p vs, c.decode p = .ok vs →
      (∀ v ∈ vs, v.type = c.type) ∧ vs.length * c.type.size = p.length ∧
        Command.encode vs = p := by
    intro p vs h
    obtain ⟨-, htype, henc⟩ := (Command.decode_eq_ok_iff c p vs).1 h
    exact ⟨htype, by rw [← henc, Command.encode_length htype], henc⟩
  refine ⟨fun p => ⟨fun ⟨vs, h⟩ => ((Command.decode_eq_ok_iff c p vs).1 h).1, fun hlen => ?_⟩,
    hdecoded, fun hfit => ?_⟩
  · exact ⟨_, if_neg (not_not.2 hlen)⟩
  · have hpay := Command.payloadLength_of_lt hfit
    refine ⟨hpay, fun p vs h => ?_, fun vs hlen htype => ⟨?_, c.decode_encode htype hlen hfit⟩⟩
    · obtain ⟨-, hmul, -⟩ := hdecoded p vs h
      have hp := ((Command.decode_eq_ok_iff c p vs).1 h).1
      exact Nat.eq_of_mul_eq_mul_right hsize (by rw [hmul, hp, hpay])
    · rw [Command.encode_length htype, hlen, hpay]

/-- Three floats: twelve bytes, decoded and encoded back and forth. -/
theorem float_triple_round_trip :
    let c : Command := { name := "GAIN", resource := 0, id := 1, type := .float,
                         mode := .readWrite, count := 3 }
    c.count * c.type.size < Nat.pow 2 64 ∧
      (c.payloadLength = c.count * c.type.size ∧
        (∀ p vs, c.decode p = .ok vs → vs.length = c.count) ∧
        ∀ vs : List Value, vs.length = c.count → (∀ v ∈ vs, v.type = c.type) →
          (Command.encode vs).length = c.payloadLength ∧
            c.decode (Command.encode vs) = .ok vs) :=
  ⟨by decide, (Command.decode_encode_round_trip _).2.2 (by decide)⟩

/-- A command of `2 ^ 62` four-byte values has a payload of `2 ^ 64` bytes, which wraps to a
length of zero: the empty payload decodes, to no value at all. -/
theorem Command.wrapped_count_decodes_empty_payload :
    let c : Command := { name := "X", resource := 0, id := 1, type := .int32,
                         mode := .readOnly, count := Nat.pow 2 62 }
    c.count * c.type.size = Nat.pow 2 64 ∧ c.payloadLength = 0 ∧ c.decode [] = .ok [] := by
  refine ⟨rfl, rfl, ?_⟩
  rfl

end VoiceBench.Control
