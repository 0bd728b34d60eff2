import Mathlib
import VoiceBench.Dfu.Session
import VoiceBench.Proofs.Dfu.Answers
import VoiceBench.Proofs.Control.Requests
import VoiceBench.Proofs.Control.Codec

/-!
# Firmware transfers

What the upgrade client achieves against the simulated servicer. Each request of the client is
a command of the upgrade map that the servicer answers at once (`send_servicer`,
`request_servicer`); a wait for a state ends at the first poll when the settled servicer is in
it (`waitFor_settled`), and clears the status and fails when it reports an error
(`waitFor_error`). A firmware run prepares a fresh servicer by registering, selecting an image
and waiting for idle (`prepare_servicer`).

* A download sends the image in blocks of at most 64 bytes, each taken by the poll that waits
  for it (`dnloadBlock_servicer`, `foldlM_dnload`), then the empty block, whose manifestation
  writes the image to the upgrade image file (`download_servicer`). The empty image is refused
  (`download_empty_servicer`).
* An upload is a loop of reads that ends at a block shorter than 64 bytes. `Serves` says which
  blocks a device answers those reads with: the client receives exactly their bytes, one read
  per block (`receive_of_serves`), and the servicer serves the selected image cut into
  `uploadBlocks` (`serves_upload`, `serves_image`). A recording device logs the reads
  (`Serves.recording`), so their number is that of the blocks, `n / 64 + 1` for `n` bytes
  (`length_uploadBlocks`).

`transfer_round_trip` puts these together for the runs of a firmware tool.
-/

namespace VoiceBench.Dfu

open Control

/-! ## The requests of the client -/

/-- A command of the upgrade map, known by its resource, id and payload length. -/
theorem exists_lookup {name : String} {res id : UInt8} {n : Nat}
    (h : ((commandMap.lookup name).toOption.map fun c => (c.resource, c.id, c.payloadLength)) =
      some (res, id, n)) :
    ∃ c, commandMap.lookup name = .ok c ∧ c.resource = res ∧ c.id = id ∧
      c.payloadLength = n := by
  cases hl : commandMap.lookup name with
  | error e => simp [hl, Except.toOption] at h
  | ok c =>
    simp only [hl, Except.toOption, Option.map_some, Option.some.injEq, Prod.mk.injEq] at h
    exact ⟨c, rfl, h.1, h.2.1, h.2.2⟩

/-- The id a read of a command of the upgrade map is sent with names the request. -/
theorem readId_toNat {c : Command} {id : UInt8} (hid : c.id = id) (hbit : id &&& readBit = 0) :
    (c.readId &&& ~~~readBit).toNat = id.toNat := by
  rw [Command.readId_clear (hid ▸ hbit), hid]

@[simp] theorem servicerDevice_get (res cmd : UInt8) (p : List UInt8) (sw : Servicer × WorkDir) :
    servicerDevice.get res cmd p sw = Servicer.get res cmd p sw.1 sw.2 := rfl

@[simp] theorem servicerDevice_set (res cmd : UInt8) (p : List UInt8) (sw : Servicer × WorkDir) :
    servicerDevice.set res cmd p sw = Servicer.set res cmd p sw.1 sw.2 := rfl

namespace Client

variable {σ : Type} (cl : Client σ)

/-- A write request sends the payload padded with zeros or cut to the command's size. -/
theorem send_run {name : String} {c : Command} (hl : commandMap.lookup name = .ok c)
    (p : List UInt8) (r : Run σ) :
    (cl.send name p).run.run r = (writeRaw cl.device c
      (p.take c.payloadLength ++ List.replicate (c.payloadLength - p.length) 0)).run.run r := by
  rw [send, run_liftResult_bind, hl]

/-- A read request is a raw read of the command. -/
theorem request_run {name : String} {c : Command} (hl : commandMap.lookup name = .ok c)
    (r : Run σ) : (cl.request name).run.run r = (readRaw cl.device c).run.run r := by
  rw [request, run_liftResult_bind, hl]

/-- What a firmware run does before a transfer: register, select an image, wait for idle. -/
def prepare (alt : UInt8) : HostM σ Unit := do
  cl.init
  cl.setAlternate alt
  cl.waitIdle

end Client

/-! ## Requests to the servicer -/

/-- Every status code fits a byte. -/
theorem Status.code_mod (st : Status) : st.code % 256 = st.code := by
  cases st <;> rfl

/-- Every status the servicer reports reads back as itself. -/
theorem Status.ofCode_code (st : Status) : Status.ofCode st.code = st := by
  cases st <;> rfl

/-- Every state code fits a byte. -/
theorem State.code_mod (st : State) : st.code % 256 = st.code := by
  cases st <;> rfl

/-- Every state the servicer reports reads back as itself. -/
theorem State.ofCode?_code (st : State) : State.ofCode? st.code = some st := by
  cases st <;> rfl

section Servicer

variable {s s' : Servicer} {w w' : WorkDir} {o : String}

/-- A write that the servicer accepts changes what the servicer changes and nothing else. -/
theorem send_servicer {name : String} {c : Command} (hl : commandMap.lookup name = .ok c)
    {p : List UInt8}
    (hset : Servicer.set c.resource c.id
      (p.take c.payloadLength ++ List.replicate (c.payloadLength - p.length) 0) s w =
        (.ok (), s', w')) :
    (servicerClient.send name p).run.run ⟨(s, w), o⟩ = (.ok (), ⟨(s', w'), o⟩) := by
  rw [Client.send_run _ hl, writeRaw_run_of_not_busy _ _ _ _ (Servicer.set_not_busy _ _ _ _ _)]
  simp [servicerClient, hset]

/-- A read that the servicer answers at once gives the answer without its status byte. -/
theorem request_servicer {name : String} {c : Command} (hl : commandMap.lookup name = .ok c)
    {out : List UInt8}
    (hget : Servicer.get c.resource c.readId (List.replicate c.readLength 0) s w =
      (.ok (0 :: out), s', w')) :
    (servicerClient.request name).run.run ⟨(s, w), o⟩ = (.ok out, ⟨(s', w'), o⟩) := by
  rw [Client.request_run _ hl]
  exact readRaw_of_ready servicerDevice c o hget

/-- The client reads the status and state of the settled servicer. -/
theorem getStatus_servicer (s : Servicer) (w : WorkDir) (o : String) :
    (servicerClient.getStatus).run.run ⟨(s, w), o⟩ =
      (.ok ((s.settle w).1.status, (s.settle w).1.state), ⟨s.settle w, o⟩) := by
  obtain ⟨c, hl, hres, hid, hlen⟩ : ∃ c, commandMap.lookup "DFU_GETSTATUS" = .ok c ∧
      c.resource = resource ∧ c.id = UInt8.ofNat getStatusId ∧ c.payloadLength = 5 :=
    exists_lookup (by decide +kernel)
  have hget := Servicer.get_getStatus s w (readId_toNat hid (by decide))
  rw [Client.getStatus, run_bind_of_ok (request_servicer hl (by rw [Command.readLength, hlen, hres]; exact hget))]
  simp [Servicer.statusReport, Status.code_mod, Status.ofCode_code, State.code_mod,
    State.ofCode?_code]
  rfl

/-- Waiting for a state that the first poll reports ends there. -/
theorem waitFor_settled (target : State) (h : (s.settle w).1.state = target) :
    (servicerClient.waitFor target).run.run ⟨(s, w), o⟩ = (.ok (), ⟨s.settle w, o⟩) := by
  rw [Client.waitFor, show pollLimit = 999 + 1 from rfl, Client.waitLoop,
    run_bind_of_ok (getStatus_servicer s w o)]
  simp [h]
  rfl

/-- Waiting for another state when the first poll reports an error clears the status and
fails with the status reported. -/
theorem waitFor_error {target : State} (htarget : target ≠ .error)
    (h : (s.settle w).1.state = .error) :
    (servicerClient.waitFor target).run.run ⟨(s, w), o⟩ =
      (.error (.dfu (s.settle w).1.status .error),
        ⟨({ (s.settle w).1 with status := .ok, state := .dfuIdle }, (s.settle w).2), o⟩) := by
  obtain ⟨c, hl, hres, hid, hlen⟩ : ∃ c, commandMap.lookup "DFU_CLRSTATUS" = .ok c ∧
      c.resource = resource ∧ c.id = UInt8.ofNat clrStatusId ∧ c.payloadLength = 1 :=
    exists_lookup (by decide +kernel)
  have hclear := send_servicer (o := o) hl (p := [])
    (by rw [hres, hid]; exact Servicer.set_clrStatus (s.settle w).1 (s.settle w).2 _)
  rw [Client.waitFor, show pollLimit = 999 + 1 from rfl, Client.waitLoop,
    run_bind_of_ok (getStatus_servicer s w o)]
  simp only [h, Ne.symm htarget, if_false, if_true]
  rw [Client.clearStatus, run_bind_of_ok hclear]
  rfl

/-- Registering with the servicer under the upgrade map's tag succeeds and changes nothing. -/
theorem init_servicer (r : Run (Servicer × WorkDir)) :
    (servicerClient.init).run.run r = (.ok (), r) := by
  rw [Client.init, run_bind_of_ok (run_transact _ _)]
  simp [servicerClient, servicerDevice, commandMap]
  rfl

/-- A fresh servicer, prepared for the factory or the upgrade image, is ready with it. -/
theorem prepare_servicer {alt : UInt8} (halt : alt.toNat = altFactory ∨ alt.toNat = altUpgrade)
    (w : WorkDir) (o : String) :
    (servicerClient.prepare alt).run.run ⟨({}, w), o⟩ =
      (.ok (), ⟨(Servicer.ready alt, w), o⟩) := by
  obtain ⟨c, hl, hres, hid, hlen⟩ : ∃ c, commandMap.lookup "DFU_SETALTERNATE" = .ok c ∧
      c.resource = resource ∧ c.id = UInt8.ofNat setAlternateId ∧ c.payloadLength = 1 :=
    exists_lookup (by decide +kernel)
  have hselect : (servicerClient.setAlternate alt).run.run ⟨({}, w), o⟩ =
      (.ok (), ⟨(Servicer.ready alt, w), o⟩) :=
    send_servicer hl
      (by rw [hres, hid, hlen]; exact Servicer.set_setAlternate {} w halt (.inl rfl) [])
  rw [Client.prepare, run_bind_of_ok (init_servicer _), run_bind_of_ok hselect]
  exact waitFor_settled .dfuIdle rfl

/-! ## Downloads -/

/-- The download command: a write of a length byte and one block. -/
theorem lookup_dnload : ∃ c, commandMap.lookup "DFU_DNLOAD" = .ok c ∧
    c.resource = resource ∧ c.id = UInt8.ofNat dnloadId ∧ c.payloadLength = blockSize + 1 :=
  exists_lookup (by decide +kernel)

/-- One download block, sent from either idle state with the upgrade image selected and taken
by the poll that waits for it; what follows runs from there. -/
theorem dnloadBlock_servicer {α : Type} {ch : List UInt8} (hpos : 0 < ch.length)
    (hlen : ch.length ≤ blockSize) (hidle : s.state = .dfuIdle ∨ s.state = .dnloadIdle)
    (halt : s.alternate.toNat ≠ altFactory) (k : SessionM α) :
    (do servicerClient.send "DFU_DNLOAD" (UInt8.ofNat ch.length :: ch)
        servicerClient.waitFor .dnloadIdle
        k).run.run ⟨(s, w), o⟩ =
      k.run.run
        ⟨({ s with download := s.download ++ ch, block := s.block + 1, state := .dnloadIdle }, w),
          o⟩ := by
  obtain ⟨c, hl, hres, hid, hplen⟩ := lookup_dnload
  have hpad : (UInt8.ofNat ch.length :: ch).take c.payloadLength ++
      List.replicate (c.payloadLength - (UInt8.ofNat ch.length :: ch).length) 0 =
      UInt8.ofNat ch.length :: (ch ++ List.replicate (blockSize - ch.length) 0) := by
    rw [hplen, List.take_of_length_le (by simp; omega)]
    simp only [List.length_cons, List.cons_append, Nat.add_sub_add_right]
  have hsend := send_servicer (o := o) hl (p := UInt8.ofNat ch.length :: ch)
    (by rw [hres, hid, hpad]; exact Servicer.set_dnload_block s w hpos hlen hidle halt _)
  rw [run_bind_of_ok hsend, run_bind_of_ok (waitFor_settled .dnloadIdle rfl)]
  rfl

/-- Download blocks, the first sent from either idle state and each taken before the next,
append their bytes to what the servicer received; the step taken for each block is given. -/
theorem foldlM_dnload {f : Nat → List UInt8 → SessionM Nat}
    (hf : ∀ (sent : Nat) (ch : List UInt8) (s : Servicer) (o : String), 0 < ch.length →
      ch.length ≤ blockSize → (s.state = .dfuIdle ∨ s.state = .dnloadIdle) →
      s.alternate.toNat ≠ altFactory → ∃ o', (f sent ch).run.run ⟨(s, w), o⟩ =
        (.ok (sent + ch.length),
          ⟨({ s with download := s.download ++ ch, block := s.block + 1, state := .dnloadIdle }, w),
            o'⟩)) :
    ∀ (cs : List (List UInt8)) (sent : Nat) (s : Servicer) (o : String), cs ≠ [] →
      (∀ ch ∈ cs, 0 < ch.length ∧ ch.length ≤ blockSize) →
      (s.state = .dfuIdle ∨ s.state = .dnloadIdle) → s.alternate.toNat ≠ altFactory →
      ∃ o' b, (cs.foldlM f sent).run.run ⟨(s, w), o⟩ = (.ok (sent + cs.flatten.length),
        ⟨({ s with download := s.download ++ cs.flatten, block := b, state := .dnloadIdle }, w),
          o'⟩)
  | [], _, _, _, hne, _, _, _ => absurd rfl hne
  | ch :: rest, sent, s, o, _, hcs, hidle, halt => by
    obtain ⟨hpos, hlen⟩ := hcs ch (List.mem_cons_self ..)
    obtain ⟨o₁, hstep⟩ := hf sent ch s o hpos hlen hidle halt
    rw [List.foldlM_cons, run_bind_of_ok hstep]
    cases rest with
    | nil =>
      refine ⟨o₁, s.block + 1, ?_⟩
      rw [List.foldlM_nil, run_pure]
      simp
    | cons ch' rest' =>
      obtain ⟨o', b, hrest⟩ := foldlM_dnload hf (ch' :: rest') (sent + ch.length)
        { s with download := s.download ++ ch, block := s.block + 1, state := .dnloadIdle } o₁
        (List.cons_ne_nil _ _) (fun c hc => hcs c (List.mem_cons_of_mem _ hc)) (.inr rfl) halt
      refine ⟨o', b, ?_⟩
      rw [hrest]
      simp [Nat.add_assoc]

/-- A download step sends its block, waits for it to be taken and counts its bytes. -/
theorem downloadBlock_servicer (total sent : Nat) {ch : List UInt8} (hpos : 0 < ch.length)
    (hlen : ch.length ≤ blockSize) (hidle : s.state = .dfuIdle ∨ s.state = .dnloadIdle)
    (halt : s.alternate.toNat ≠ altFactory) :
    ∃ o', (servicerClient.downloadBlock total sent ch).run.run ⟨(s, w), o⟩ =
      (.ok (sent + ch.length),
        ⟨({ s with download := s.download ++ ch, block := s.block + 1, state := .dnloadIdle }, w),
          o'⟩) := by
  rw [Client.downloadBlock, dnloadBlock_servicer hpos hlen hidle halt]
  exact ⟨_, rfl⟩

/-- A non-empty image downloaded to the servicer ready with the upgrade image is written to
the upgrade image, unless a directory stands in its place, and leaves the servicer ready again;
the client counts every byte. -/
theorem download_servicer (path : String) {data : List UInt8} (hne : data ≠ [])
    (hdir : w.isDirAt upgradeImage = false) (o : String) :
    ∃ o', (servicerClient.download path data).run.run
        ⟨(Servicer.ready (UInt8.ofNat altUpgrade), w), o⟩ =
      (.ok data.length,
        ⟨(Servicer.ready (UInt8.ofNat altUpgrade), w.put upgradeImage data), o'⟩) := by
  obtain ⟨hflat, hcs⟩ := Bytes.chunks_spec (by decide : 0 < blockSize) data
  have hcne : Bytes.chunks blockSize data ≠ [] := by
    intro h
    rw [h] at hflat
    exact hne hflat.symm
  have halt : (UInt8.ofNat altUpgrade).toNat ≠ altFactory := by decide
  obtain ⟨o₁, b, hfold⟩ :=
    foldlM_dnload (w := w) (f := servicerClient.downloadBlock data.length)
    (fun sent ch s o hpos hlen hidle halt => downloadBlock_servicer _ sent hpos hlen hidle halt)
    (Bytes.chunks blockSize data) 0 (Servicer.ready (UInt8.ofNat altUpgrade))
    (o ++ (s!"Download upgrade image {path}" ++ "\n")) hcne
    (fun ch hch => ⟨List.length_pos_of_ne_nil (hcs ch hch).1, (hcs ch hch).2⟩) (.inl rfl) halt
  rw [hflat, Nat.zero_add] at hfold
  obtain ⟨c, hl, hres, hid, hplen⟩ := lookup_dnload
  set s₁ : Servicer := { Servicer.ready (UInt8.ofNat altUpgrade) with
    download := (Servicer.ready (UInt8.ofNat altUpgrade)).download ++ data, block := b,
    state := .dnloadIdle }
  let o₂ := o₁ ++ ("" ++ "\n") ++
    ("Download completed. Send DFU_DNLOAD message with size zero" ++ "\n")
  have hend := send_servicer (s := s₁) (w := w) (o := o₂) hl (p := [0])
    (by rw [hres, hid, hplen]; exact Servicer.set_dnload_end s₁ w rfl halt _)
  have hsettle : Servicer.settle { s₁ with state := .manifestSync } w =
      (Servicer.ready (UInt8.ofNat altUpgrade), w.put upgradeImage data) := by
    show Servicer.manifest { s₁ with state := .manifestSync } w = _
    rw [Servicer.manifest_of_not_dir _ hdir]
    rfl
  have hwait := waitFor_settled (s := { s₁ with state := .manifestSync }) (w := w) (o := o₂)
    .dfuIdle
    (by rw [hsettle]; rfl)
  rw [hsettle] at hwait
  rw [Client.download, run_bind_of_ok (run_emit _ _)]
  dsimp only
  rw [run_bind_of_ok hfold, run_bind_of_ok (run_emit _ _), run_bind_of_ok (run_emit _ _)]
  dsimp only
  rw [run_bind_of_ok hend, Client.waitIdle, run_bind_of_ok hwait, run_pure]
  exact ⟨_, rfl⟩

/-- Downloading the empty image to the servicer ready with the upgrade image sends only the
block asking for manifestation, which the servicer refuses as nothing was downloaded; the
client clears the error, so the servicer is ready again and no file is touched. -/
theorem download_empty_servicer (path : String) (o : String) :
    ∃ o', (servicerClient.download path []).run.run
        ⟨(Servicer.ready (UInt8.ofNat altUpgrade), w), o⟩ =
      (.error (.dfu .notDone .error), ⟨(Servicer.ready (UInt8.ofNat altUpgrade), w), o'⟩) := by
  obtain ⟨c, hl, hres, hid, hplen⟩ := lookup_dnload
  set s₀ := Servicer.ready (UInt8.ofNat altUpgrade)
  let o₁ := o ++ (s!"Download upgrade image {path}" ++ "\n") ++ ("" ++ "\n") ++
    ("Download completed. Send DFU_DNLOAD message with size zero" ++ "\n")
  have hend := send_servicer (s := s₀) (w := w) (o := o₁) hl (p := [0])
    (by rw [hres, hid, hplen]; exact Servicer.set_dnload_empty s₀ w rfl (by decide) _)
  have hwait := waitFor_error (s := s₀.fail .notDone) (w := w) (o := o₁)
    (by decide : State.dfuIdle ≠ .error) rfl
  rw [Client.download, run_bind_of_ok (run_emit _ _)]
  dsimp only
  rw [show Bytes.chunks blockSize ([] : List UInt8) = [] from rfl, List.foldlM_nil, run_pure_bind,
    run_bind_of_ok (run_emit _ _), run_bind_of_ok (run_emit _ _)]
  dsimp only
  rw [run_bind_of_ok hend, Client.waitIdle, run_bind_of_error hwait]
  exact ⟨_, rfl⟩

/-! ## Uploads -/

/-- The blocks an image is uploaded in: 64 bytes each, then one shorter block, which is empty
when the length is a multiple of 64. -/
def uploadBlocks (F : List UInt8) : List (List UInt8) :=
  if F.length < blockSize then [F] else F.take blockSize :: uploadBlocks (F.drop blockSize)
termination_by F.length
decreasing_by
  simp only [List.length_drop, blockSize] at *
  omega

/-- The blocks glue back to the image. -/
theorem flatten_uploadBlocks (F : List UInt8) : (uploadBlocks F).flatten = F := by
  fun_induction uploadBlocks F with
  | case1 F _ => simp
  | case2 F _ ih => simp [ih]

/-- An image of `n` bytes is uploaded in `n / 64 + 1` blocks. -/
theorem length_uploadBlocks (F : List UInt8) :
    (uploadBlocks F).length = F.length / blockSize + 1 := by
  fun_induction uploadBlocks F with
  | case1 F h => simp [Nat.div_eq_of_lt h]
  | case2 F h ih =>
    simp only [List.length_cons, ih, List.length_drop]
    simp only [blockSize] at h ⊢
    omega

/-- The last block is what the full blocks leave of the image. -/
theorem getLast?_uploadBlocks (F : List UInt8) :
    (uploadBlocks F).getLast? = some (F.drop (F.length / blockSize * blockSize)) := by
  fun_induction uploadBlocks F with
  | case1 F h => simp [Nat.div_eq_of_lt h]
  | case2 F h ih =>
    have hne : uploadBlocks (F.drop blockSize) ≠ [] := by
      rw [← List.length_pos_iff, length_uploadBlocks]
      exact Nat.succ_pos _
    have hoff : blockSize + (F.length - blockSize) / blockSize * blockSize =
        F.length / blockSize * blockSize := by
      simp only [blockSize] at h ⊢
      omega
    rw [List.getLast?_cons, ih, List.length_drop, List.drop_drop, hoff]
    rfl

end Servicer

section Serving

variable {σ : Type} (d : Device σ)

/-- The read of one upload block as the client makes it: the upload command, with room for
the status byte, the length byte and one block. -/
def uploadRead (s : σ) : Except Control.Status (List UInt8) × σ :=
  d.get resource (UInt8.ofNat uploadId ||| readBit) (List.replicate (blockSize + 2) 0) s

/-- From state `s` the device answers successive upload reads with the blocks `bs`, each
framed with its length, all but the last full and the last short, and is left in state `t`. -/
inductive Serves : σ → List (List UInt8) → σ → Prop
  | last {s t : σ} {b : List UInt8} (hlen : b.length < blockSize)
      (hread : uploadRead d s = (.ok (0 :: Servicer.uploadFrame b), t)) : Serves s [b] t
  | next {s s' t : σ} {b : List UInt8} {bs : List (List UInt8)} (hlen : b.length = blockSize)
      (hread : uploadRead d s = (.ok (0 :: Servicer.uploadFrame b), s'))
      (hrest : Serves s' bs t) : Serves s (b :: bs) t

/-- Serving depends on the start state only through its answer to the first read. -/
theorem Serves.of_uploadRead_eq {s s₀ t : σ} {bs : List (List UInt8)}
    (heq : uploadRead d s = uploadRead d s₀) (h : Serves d s₀ bs t) : Serves d s bs t := by
  cases h with
  | last hlen hread => exact .last hlen (heq ▸ hread)
  | next hlen hread hrest => exact .next hlen (heq ▸ hread) hrest

/-- The client reads a framed block's length byte back as the block's length. -/
theorem uploadFrame_len {b : List UInt8} (hlen : b.length ≤ blockSize) :
    min ((Servicer.uploadFrame b).getD 0 0).toNat ((Servicer.uploadFrame b).length - 1) =
      b.length := by
  simp only [Servicer.uploadFrame, blockSize] at hlen ⊢
  simp
  omega

/-- The block stands after the length byte of its frame. -/
theorem uploadFrame_block (b : List UInt8) :
    ((Servicer.uploadFrame b).drop 1).take b.length = b := by
  simp [Servicer.uploadFrame]

/-- One upload read answered with a framed block: the block is appended to the image; a
short block ends the upload, a full one has the next block requested. -/
theorem receive_succ {s s' : σ} {b : List UInt8} (hlen : b.length ≤ blockSize)
    (hread : uploadRead d s = (.ok (0 :: Servicer.uploadFrame b), s'))
    (limit blocks : Nat) (image : List UInt8) (o : String) :
    ∃ o', ((⟨d⟩ : Client σ).receive (limit + 1) blocks image).run.run ⟨s, o⟩ =
      if b.length < blockSize then (.ok (image ++ b), ⟨s', o'⟩)
      else ((⟨d⟩ : Client σ).receive limit (blocks + 1) (image ++ b)).run.run ⟨s', o'⟩ := by
  obtain ⟨c, hl, hres, hid, hplen⟩ : ∃ c, commandMap.lookup "DFU_UPLOAD" = .ok c ∧
      c.resource = resource ∧ c.id = UInt8.ofNat uploadId ∧ c.payloadLength = blockSize + 1 :=
    exists_lookup (by decide +kernel)
  have hreq : ((⟨d⟩ : Client σ).request "DFU_UPLOAD").run.run ⟨s, o⟩ =
      (.ok (Servicer.uploadFrame b), ⟨s', o⟩) := by
    rw [Client.request_run _ hl]
    exact readRaw_of_ready d c o (by rw [hres, Command.readLength, hplen, Command.readId, hid]; exact hread)
  rw [Client.receive, run_bind_of_ok hreq]
  simp only [uploadFrame_len hlen, uploadFrame_block]
  split_ifs with hpos hshort hshort'
  · exact ⟨_, rfl⟩
  · exact ⟨_, rfl⟩
  · exact ⟨_, rfl⟩
  · simp only [blockSize] at hshort' hpos
    omega

/-- A device serving blocks, no more of them than the requests allowed, has the client receive
exactly their bytes, one request per block, and is left where the serving ends. -/
theorem receive_of_serves {s t : σ} {bs : List (List UInt8)} (h : Serves d s bs t) :
    ∀ (limit blocks : Nat) (image : List UInt8) (o : String), bs.length ≤ limit →
      ∃ o', ((⟨d⟩ : Client σ).receive limit blocks image).run.run ⟨s, o⟩ =
        (.ok (image ++ bs.flatten), ⟨t, o'⟩) := by
  induction h with
  | last hlen hread =>
    intro limit blocks image o hlimit
    obtain ⟨limit, rfl⟩ : ∃ l, limit = l + 1 := ⟨limit - 1, by simp at hlimit; omega⟩
    obtain ⟨o', hstep⟩ := receive_succ d hlen.le hread limit blocks image o
    rw [if_pos hlen] at hstep
    exact ⟨o', by simpa using hstep⟩
  | @next s s' t b bs hlen hread _ ih =>
    intro limit blocks image o hlimit
    obtain ⟨limit, rfl⟩ : ∃ l, limit = l + 1 := ⟨limit - 1, by simp at hlimit; omega⟩
    obtain ⟨o₁, hstep⟩ := receive_succ d hlen.le hread limit blocks image o
    rw [if_neg (by omega)] at hstep
    obtain ⟨o', hrest⟩ := ih limit (blocks + 1) (image ++ b) o₁ (by simp at hlimit; omega)
    exact ⟨o', by rw [hstep, hrest, List.flatten_cons, List.append_assoc]⟩

/-- An upload from a device serving blocks receives their bytes. -/
theorem upload_of_serves {s t : σ} {bs : List (List UInt8)} (h : Serves d s bs t)
    (hlimit : bs.length ≤ uploadLimit) (dest o : String) :
    ∃ o', ((⟨d⟩ : Client σ).upload dest).run.run ⟨s, o⟩ =
      (.ok bs.flatten, ⟨t, o'⟩) := by
  rw [Client.upload, run_bind_of_ok (run_emit _ _)]
  simpa using receive_of_serves d h uploadLimit 0 [] _ hlimit

/-- What the log of a recording device holds for one upload block: a read of the upload
command answered with the block's frame. -/
def uploadExchange (b : List UInt8) : Exchange :=
  .get resource (UInt8.ofNat uploadId ||| readBit) (.ok (0 :: Servicer.uploadFrame b))

/-- A recording device serves what the device serves, logging one upload read per block. -/
theorem Serves.recording {s t : σ} {bs : List (List UInt8)} (h : Serves d s bs t)
    (log : List Exchange) :
    Serves d.recording (s, log) bs (t, log ++ bs.map uploadExchange) := by
  induction h generalizing log with
  | last hlen hread =>
    refine .last hlen ?_
    unfold uploadRead at hread ⊢
    rw [Device.recording_get, hread]
    rfl
  | @next s s' t b bs hlen hread _ ih =>
    have hrest := ih (log ++ [uploadExchange b])
    rw [List.append_assoc, List.singleton_append, ← List.map_cons] at hrest
    refine .next hlen ?_ hrest
    unfold uploadRead at hread ⊢
    rw [Device.recording_get, hread]
    rfl

end Serving

/-! ## Uploads from the servicer -/

/-- The servicer answers an upload read with its next upload block. -/
theorem uploadRead_servicer (s : Servicer) (w : WorkDir) :
    uploadRead servicerDevice (s, w) =
      (((s.nextUploadBlock w (List.replicate (blockSize + 1) 0)).1.map fun filled => 0 :: filled),
        (s.nextUploadBlock w (List.replicate (blockSize + 1) 0)).2, w) :=
  Servicer.get_upload s w
    (by decide : ((UInt8.ofNat uploadId ||| readBit) &&& ~~~readBit).toNat = uploadId) _

/-- From either idle state, the servicer in the middle of an upload serves the rest of the
image in blocks, and ends idle with no upload in progress. -/
theorem serves_upload (w : WorkDir) (F : List UInt8) (off : Nat) (s : Servicer)
    (hidle : s.state = .dfuIdle ∨ s.state = .uploadIdle) (hup : s.upload = some (F, off)) :
    Serves servicerDevice (s, w) (uploadBlocks (F.drop off))
      ({ s with upload := none, block := 0, state := .dfuIdle }, w) := by
  have hread := uploadRead_servicer s w
  rw [Servicer.nextUploadBlock_next s w hidle hup] at hread
  by_cases hshort : F.length - off < blockSize
  · -- the rest is shorter than a block: it is the last block
    have hrest : (F.drop off).length < blockSize := by rwa [List.length_drop]
    have htake : (F.drop off).take blockSize = F.drop off := List.take_of_length_le hrest.le
    rw [uploadBlocks, if_pos hrest]
    refine .last hrest ?_
    simpa [htake, hshort, Except.map] using hread
  · -- a full block, then the blocks of the rest from the next offset
    have hrest : ¬ (F.drop off).length < blockSize := by rwa [List.length_drop]
    have hfull : ((F.drop off).take blockSize).length = blockSize := by
      simp only [List.length_take, List.length_drop]
      omega
    rw [uploadBlocks, if_neg hrest, List.drop_drop]
    refine .next hfull ?_ (serves_upload w F (off + blockSize)
      { s with upload := some (F, off + blockSize), block := s.block + 1, state := .uploadIdle }
      (.inr rfl) rfl)
    simpa [hfull, hshort, Except.map] using hread
termination_by F.length - off
decreasing_by
  simp only [blockSize] at hshort ⊢
  omega

/-- The servicer ready with an alternate serves that alternate's image in blocks and is ready
again afterwards. -/
theorem serves_image (w : WorkDir) {alt : UInt8} {F : List UInt8}
    (hread : w.read (Servicer.imageFile alt) = .ok F) :
    Serves servicerDevice (Servicer.ready alt, w) (uploadBlocks F) (Servicer.ready alt, w) := by
  have h := serves_upload w F 0 { Servicer.ready alt with upload := some (F, 0) } (.inl rfl) rfl
  rw [List.drop_zero] at h
  refine Serves.of_uploadRead_eq _ ?_ h
  rw [uploadRead_servicer, uploadRead_servicer,
    Servicer.nextUploadBlock_start (Servicer.ready alt) (.inl rfl) rfl hread]

/-- The working directory, as a session reads it. -/
theorem files_run (r : Run (Servicer × WorkDir)) : files.run.run r = (.ok r.device.2, r) := rfl

/-- Writing a file that can be written changes the working directory and nothing else. -/
theorem putFile_run {sv : Servicer} {w w' : WorkDir} {p : String} {b : List UInt8}
    (h : w.write p b = .ok w') (o : String) :
    (putFile p b).run.run ⟨(sv, w), o⟩ = (.ok (), ⟨(sv, w'), o⟩) := by
  rw [putFile, run_bind_of_ok (files_run _)]
  simp only [h]
  rfl

/-- Uploading the selected image of the ready servicer into a free place writes the image
there and answers with its length; the servicer is ready again. -/
theorem upload_step {alt : UInt8} {F : List UInt8} {dest : String}
    (hread : w.read (Servicer.imageFile alt) = .ok F) (hlimit : F.length / blockSize < uploadLimit)
    (hslot : w.FileSlot dest) (hfree : w.pathExists dest = false) (o : String) :
    ∃ o' w', w.write dest F = .ok w' ∧
      ((DfuStep.upload dest).run).run.run ⟨(Servicer.ready alt, w), o⟩ =
        (.ok (.moved F.length), ⟨(Servicer.ready alt, w'), o'⟩) := by
  obtain ⟨w', hw⟩ := WorkDir.write_of_slot hslot hfree F
  obtain ⟨o', hup⟩ : ∃ o',
      (servicerClient.upload dest).run.run ⟨(Servicer.ready alt, w), o⟩ =
        (.ok (uploadBlocks F).flatten, ⟨(Servicer.ready alt, w), o'⟩) :=
    upload_of_serves servicerDevice (serves_image w hread)
      (by rw [length_uploadBlocks]; omega) dest o
  rw [flatten_uploadBlocks] at hup
  refine ⟨o', w', hw, ?_⟩
  rw [DfuStep.run, run_bind_of_ok (files_run _)]
  simp only [hfree, Bool.false_eq_true, if_false]
  rw [run_bind_of_ok hup, run_bind_of_ok (putFile_run hw o'), run_pure]

/-! ## Round trips -/

/-- A firmware run first prepares the fresh servicer: it registers, selects an image and waits
for idle. From there a non-empty image is downloaded whole into the upgrade image, unless a
directory stands in its place, and the empty image is refused with `errNOTDONE`; either way the
servicer is idle again with status OK. The image of either alternate is uploaded whole into a
free place for a file, in one upload read per block: `n / 64 + 1` reads for an image of `n`
bytes, the last answered with an empty block when `n` is a multiple of 64. -/
theorem transfer_round_trip (w : WorkDir) (o : String) :
    (∀ (path : String) (data : List UInt8), data ≠ [] → w.isDirAt upgradeImage = false →
      (∃ o', (servicerClient.prepare (UInt8.ofNat altUpgrade) >>= fun _ =>
                servicerClient.download path data).run.run ⟨({}, w), o⟩ =
          (.ok data.length,
            ⟨(Servicer.ready (UInt8.ofNat altUpgrade), w.put upgradeImage data), o'⟩)) ∧
        (w.put upgradeImage data).read upgradeImage = .ok data) ∧
    (∀ path : String, ∃ o', (servicerClient.prepare (UInt8.ofNat altUpgrade) >>= fun _ =>
        servicerClient.download path []).run.run ⟨({}, w), o⟩ =
        (.error (.dfu .notDone .error), ⟨(Servicer.ready (UInt8.ofNat altUpgrade), w), o'⟩)) ∧
    (∀ (alt : UInt8) (F : List UInt8) (dest : String),
      (alt.toNat = altFactory ∨ alt.toNat = altUpgrade) →
      w.read (Servicer.imageFile alt) = .ok F → F.length / blockSize < uploadLimit →
      w.FileSlot dest → w.pathExists dest = false →
      (∃ o' w', (servicerClient.prepare alt >>= fun _ =>
                  (DfuStep.upload dest).run).run.run ⟨({}, w), o⟩ =
          (.ok (.moved F.length), ⟨(Servicer.ready alt, w'), o'⟩) ∧
        w.write dest F = .ok w' ∧ w'.read dest = .ok F) ∧
      ∀ log : List Exchange, ∃ o' reads,
        ((⟨servicerDevice.recording⟩ : Client _).upload dest).run.run
            ⟨((Servicer.ready alt, w), log), o⟩ =
          (.ok F, ⟨((Servicer.ready alt, w), log ++ reads), o'⟩) ∧
        reads.length = F.length / blockSize + 1 ∧
        (∀ e ∈ reads, ∃ b, e = uploadExchange b) ∧
        (blockSize ∣ F.length → reads.getLast? = some (uploadExchange []))) := by
  have hprep := prepare_servicer
    (by decide : (UInt8.ofNat altUpgrade).toNat = altFactory ∨
      (UInt8.ofNat altUpgrade).toNat = altUpgrade) w o
  refine ⟨fun path data hne hdir => ⟨?_, ?_⟩, fun path => ?_,
    fun alt F dest halt hread hlimit hslot hfree => ⟨?_, fun log => ?_⟩⟩
  case refine_1 =>
    obtain ⟨o', hdown⟩ := download_servicer path hne hdir o
    exact ⟨o', by rw [run_bind_of_ok hprep, hdown]⟩
  case refine_2 =>
    have hwrite : w.write upgradeImage data = .ok (w.put upgradeImage data) := by
      rw [WorkDir.write_name w (by decide), hdir]
      rfl
    exact WorkDir.read_of_write hwrite
  case refine_3 =>
    obtain ⟨o', hdown⟩ := download_empty_servicer (w := w) path o
    exact ⟨o', by rw [run_bind_of_ok hprep, hdown]⟩
  case refine_4 =>
    obtain ⟨o', w', hw, hstep⟩ := upload_step hread hlimit hslot hfree o
    exact ⟨o', w', by rw [run_bind_of_ok (prepare_servicer halt w o), hstep], hw,
      WorkDir.read_of_write hw⟩
  case refine_5 =>
    obtain ⟨o', hup⟩ := upload_of_serves servicerDevice.recording
      (Serves.recording servicerDevice (serves_image w hread) log)
      (by rw [length_uploadBlocks]; omega) dest o
    rw [flatten_uploadBlocks] at hup
    refine ⟨o', (uploadBlocks F).map uploadExchange, hup, by simp [length_uploadBlocks],
      by simp, fun hdvd => ?_⟩
    rw [List.getLast?_map, getLast?_uploadBlocks, Nat.div_mul_cancel hdvd, List.drop_length]
    rfl

/-- A working directory holding a three-byte factory image and nothing else. -/
def factoryOnly : WorkDir := { files := [(factoryImage, [1, 2, 3])] }

/-- A byte downloaded into the working directory holding only a factory image, and the factory
image uploaded from it into a new file, in one short block. -/
theorem factory_image_round_trip :
    (∃ o', (servicerClient.prepare (UInt8.ofNat altUpgrade) >>= fun _ =>
        servicerClient.download "image.bin" [7]).run.run ⟨({}, factoryOnly), ""⟩ =
      (.ok 1, ⟨(Servicer.ready (UInt8.ofNat altUpgrade), factoryOnly.put upgradeImage [7]), o'⟩)) ∧
    (∃ o' w', (servicerClient.prepare 0 >>= fun _ => (DfuStep.upload "back.bin").run).run.run
        ⟨({}, factoryOnly), ""⟩ = (.ok (.moved 3), ⟨(Servicer.ready 0, w'), o'⟩) ∧
      w'.read "back.bin" = .ok [1, 2, 3]) ∧
    ∃ o' reads, ((⟨servicerDevice.recording⟩ : Client _).upload "back.bin").run.run
        ⟨((Servicer.ready 0, factoryOnly), []), ""⟩ =
      (.ok [1, 2, 3], ⟨((Servicer.ready 0, factoryOnly), reads), o'⟩) ∧ reads.length = 1 := by
  obtain ⟨hdown, -, hup⟩ := transfer_round_trip factoryOnly ""
  obtain ⟨⟨o₁, h₁⟩, -⟩ := hdown "image.bin" [7] (by decide) (by decide +kernel)
  obtain ⟨⟨o₂, w', h₂, -, hr⟩, hrec⟩ :=
    hup 0 [1, 2, 3] "back.bin" (by decide) (by decide +kernel)
    (by decide +kernel) ⟨_, WorkDir.resolve_name _ (by decide)⟩ (by decide +kernel)
  obtain ⟨o₃, reads, h₃, hlen, -⟩ := hrec []
  exact ⟨⟨o₁, h₁⟩, ⟨o₂, w', h₂, hr⟩, ⟨o₃, reads, h₃, hlen⟩⟩

/-- A transfer needs a place for its file: downloading onto an upgrade image that is a
directory ends in `errWRITE`, and uploading into a directory that does not exist fails when
the file is written. -/
theorem transfers_fail_without_file_places :
    ((servicerClient.prepare (UInt8.ofNat altUpgrade) >>= fun _ =>
        servicerClient.download "image.bin" [1, 2]).run.run
      ⟨({}, { files := [("dfu_upgrade.bin/keep.txt", [120])] }), ""⟩).1 =
      .error (.dfu .write .error) ∧
    ((servicerClient.prepare 0 >>= fun _ => (DfuStep.upload "missing/back.bin").run).run.run
      ⟨({}, { files := [(factoryImage, [97, 98, 99])] }), ""⟩).1 = .error (.io .notFound) := by
  constructor
  · decide +kernel
  · decide +kernel

end VoiceBench.Dfu
