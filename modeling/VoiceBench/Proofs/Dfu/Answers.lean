import Mathlib
import VoiceBench.Dfu.Servicer
import VoiceBench.Proofs.Files.ReadBack

/-!
# How the upgrade servicer answers

The answers of the simulated servicer to the requests the upgrade client makes, each as an
equation on `Servicer.get` or `Servicer.set` under the guards that select its branch.

* A status poll first lets a pending download block settle and a pending manifestation run
  (`Servicer.settle`), then reports status and state (`get_getStatus`).
* Selecting a valid image from an idle state resets the transfers (`set_setAlternate`); a
  download block is appended from either idle state (`set_dnload_block`); the empty block asks
  for manifestation after blocks (`set_dnload_end`) and fails before any (`set_dnload_empty`);
  clearing the status returns to idle (`set_clrStatus`); no write is answered busy
  (`set_not_busy`).
* Manifestation writes the blocks received to the selected image, a plain file name, and
  resets the transfers (`manifest_of_not_dir`).
* An upload request hands out the next block of at most 64 bytes of the selected image, framed
  with its length (`uploadFrame`); a block shorter than 64 bytes ends the upload and returns the
  servicer to idle (`get_upload`, `nextUploadBlock_start`, `nextUploadBlock_next`). A buffer
  with no room after the status byte makes the handout fail and halt the servicer
  (`nextUploadBlock_nil`).

What any request does is said once, for the invariants of the servicer to be proved from: an
upload request takes one of the steps of `UploadStep` (`nextUploadBlock_step`); a read keeps
the servicer, settles it, or hands out an upload block (`get_cases`); a write takes one of the
steps of `WriteStep` and leaves the working directory as it is (`set_cases`).
-/

namespace VoiceBench.Dfu

open Control

namespace Servicer

/-- The servicer as the client leaves it before a transfer: the image selected, idle, no
transfer in progress. -/
def ready (alt : UInt8) : Servicer := { alternate := alt, state := .dfuIdle }

/-- What a status poll does before it reports: a download block received is taken, and a
pending manifestation runs. -/
def settle (s : Servicer) (w : WorkDir) : Servicer × WorkDir :=
  match s.state with
  | .dnloadSync => ({ s with state := .dnloadIdle }, w)
  | .manifestSync => s.manifest w
  | _ => (s, w)

/-- The five bytes of a status report: status, a poll timeout of zero, state. -/
def statusReport (s : Servicer) : List UInt8 :=
  [UInt8.ofNat s.status.code, 0, 0, 0, UInt8.ofNat s.state.code]

/-- An upload block as the servicer frames it: its length, its bytes, zeros up to 64. -/
def uploadFrame (b : List UInt8) : List UInt8 :=
  UInt8.ofNat b.length :: (b ++ List.replicate (blockSize - b.length) 0)

/-! ## Status polls -/

/-- A status poll with room for the report settles the servicer and reports its status and
state. -/
theorem get_getStatus (s : Servicer) (w : WorkDir) {cmd : UInt8}
    (hcmd : (cmd &&& ~~~readBit).toNat = getStatusId) :
    get resource cmd (List.replicate 6 0) s w =
      (.ok (0 :: statusReport (s.settle w).1), (s.settle w).1, (s.settle w).2) := by
  rw [show List.replicate 6 (0 : UInt8) = 0 :: List.replicate 5 0 from rfl]
  simp only [get, ne_eq, not_true_eq_false, if_false, hcmd, if_true, List.length_replicate,
    lt_self_iff_false]
  unfold settle
  cases s.state <;> simp [statusReport, overwrite]

/-! ## Writes -/

/-- Selecting the factory or the upgrade image from an idle state resets the transfers. -/
theorem set_setAlternate (s : Servicer) (w : WorkDir) {alt : UInt8}
    (halt : alt.toNat = altFactory ∨ alt.toNat = altUpgrade)
    (hidle : s.state = .appIdle ∨ s.state = .dfuIdle) (rest : List UInt8) :
    set resource (UInt8.ofNat setAlternateId) (alt :: rest) s w =
      (.ok (), { s.resetTransfers with alternate := alt, state := .dfuIdle }, w) := by
  have hvalid : ¬ (alt.toNat ≠ altFactory ∧ alt.toNat ≠ altUpgrade) := by omega
  simp [set, hvalid, hidle, setAlternateId]

/-- A download block from an idle state, with the upgrade image selected, is appended to the
blocks received, and the servicer waits for the status poll that takes it. -/
theorem set_dnload_block (s : Servicer) (w : WorkDir) {ch : List UInt8} (hpos : 0 < ch.length)
    (hlen : ch.length ≤ blockSize) (hidle : s.state = .dfuIdle ∨ s.state = .dnloadIdle)
    (halt : s.alternate.toNat ≠ altFactory) (pad : List UInt8) :
    set resource (UInt8.ofNat dnloadId) (UInt8.ofNat ch.length :: (ch ++ pad)) s w =
      (.ok (),
        { s with download := s.download ++ ch, block := s.block + 1, state := .dnloadSync }, w) := by
  have hl : (UInt8.ofNat ch.length).toNat = ch.length := by
    simp only [blockSize] at hlen
    simp
    omega
  have hch : ch ≠ [] := List.ne_nil_of_length_pos hpos
  simp [set, acceptBlock, hl, show ¬ blockSize < ch.length by omega, halt, hidle, dnloadId,
    setAlternateId, hch]

/-- The empty block after blocks asks for manifestation. -/
theorem set_dnload_end (s : Servicer) (w : WorkDir) (hst : s.state = .dnloadIdle)
    (halt : s.alternate.toNat ≠ altFactory) (pad : List UInt8) :
    set resource (UInt8.ofNat dnloadId) (0 :: pad) s w =
      (.ok (), { s with state := .manifestSync }, w) := by
  simp [set, acceptBlock, hst, halt, dnloadId, setAlternateId, blockSize]

/-- The empty block before any is an error: nothing was downloaded. -/
theorem set_dnload_empty (s : Servicer) (w : WorkDir) (hst : s.state = .dfuIdle)
    (halt : s.alternate.toNat ≠ altFactory) (pad : List UInt8) :
    set resource (UInt8.ofNat dnloadId) (0 :: pad) s w = (.ok (), s.fail .notDone, w) := by
  simp [set, acceptBlock, hst, halt, dnloadId, setAlternateId, blockSize]

/-- Clearing the status returns to idle, whatever the state. -/
theorem set_clrStatus (s : Servicer) (w : WorkDir) (p : List UInt8) :
    set resource (UInt8.ofNat clrStatusId) p s w =
      (.ok (), { s with status := .ok, state := .dfuIdle }, w) := by
  simp [set, clrStatusId, setAlternateId, dnloadId]

/-- A download block is never answered busy. -/
theorem acceptBlock_not_busy (s : Servicer) (p : List UInt8) :
    (s.acceptBlock p).1 ≠ .error .commandRetry := by
  unfold acceptBlock
  split
  · simp
  · dsimp only
    split_ifs <;> simp

/-- The servicer never answers a write that it is busy. -/
theorem set_not_busy (res cmd : UInt8) (p : List UInt8) (s : Servicer) (w : WorkDir) :
    (set res cmd p s w).1 ≠ .error .commandRetry := by
  unfold set
  dsimp only
  repeat' split
  all_goals simp [acceptBlock_not_busy]

/-! ## Manifestation -/

/-- Both images have plain file names. -/
theorem isName_imageFile (alt : UInt8) : WorkDir.IsName (imageFile alt) := by
  unfold imageFile
  split <;> decide +kernel

/-- Manifestation writes the blocks received to the selected image, unless a directory stands
in its place, and returns to idle with no transfer in progress. -/
theorem manifest_of_not_dir (s : Servicer) {w : WorkDir}
    (hdir : w.isDirAt (imageFile s.alternate) = false) :
    s.manifest w = ({ s.resetTransfers with state := .dfuIdle },
      w.put (imageFile s.alternate) s.download) := by
  simp [manifest, WorkDir.write_name w (isName_imageFile s.alternate), hdir]

/-! ## Upload blocks -/

/-- A read of the upload command passes the buffer after its status byte to the block
handout. -/
theorem get_upload (s : Servicer) (w : WorkDir) {cmd : UInt8}
    (hcmd : (cmd &&& ~~~readBit).toNat = uploadId) (out : List UInt8) :
    get resource cmd (0 :: out) s w =
      (((s.nextUploadBlock w out).1.map fun filled => 0 :: filled),
        (s.nextUploadBlock w out).2, w) := by
  simp [get, hcmd, getStatusId, getStateId, uploadId]

/-- The first upload block is handed out as if the selected image had been read into the
upload before. -/
theorem nextUploadBlock_start (s : Servicer) {w : WorkDir} {F : List UInt8}
    (hidle : s.state = .dfuIdle ∨ s.state = .uploadIdle) (hnone : s.upload = none)
    (hread : w.read (imageFile s.alternate) = .ok F) (out : List UInt8) :
    s.nextUploadBlock w out = { s with upload := some (F, 0) }.nextUploadBlock w out := by
  simp [nextUploadBlock, hidle, hnone, hread]

/-- From either idle state, with an image being uploaded, the next block is at most 64 bytes
from the offset reached, framed with its length; a block shorter than 64 bytes ends the
upload. -/
theorem nextUploadBlock_next (s : Servicer) (w : WorkDir) {F : List UInt8} {off : Nat}
    (hidle : s.state = .dfuIdle ∨ s.state = .uploadIdle) (hup : s.upload = some (F, off)) :
    s.nextUploadBlock w (List.replicate (blockSize + 1) 0) =
      let b := (F.drop off).take blockSize
      (.ok (uploadFrame b),
        if b.length < blockSize then { s with upload := none, block := 0, state := .dfuIdle }
        else
          { s with upload := some (F, off + blockSize), block := s.block + 1, state := .uploadIdle }) := by
  simp only [nextUploadBlock, hidle, hup, uploadFrame]
  by_cases h : F.length - off < blockSize
  · have hm : min (F.length - off) blockSize = F.length - off := Nat.min_eq_left h.le
    have hrest : List.take blockSize (List.drop off F) = List.drop off F :=
      List.take_of_length_le (by simp; omega)
    simp [h, hm, hrest]
  · have hm : min (F.length - off) blockSize = blockSize := Nat.min_eq_right (by omega)
    have hm' : min blockSize (F.length - off) = blockSize := Nat.min_eq_left (by omega)
    simp [hm, hm']

/-- An upload request with a buffer of one byte, in a state an upload goes on from and with an
image to hand out, fails and halts the servicer. -/
theorem nextUploadBlock_nil {s : Servicer} {w : WorkDir}
    (hst : s.state = .dfuIdle ∨ s.state = .uploadIdle)
    (himage : s.upload ≠ none ∨ ∃ image, w.read (imageFile s.alternate) = .ok image) :
    (s.nextUploadBlock w []).1 = .error .controlError ∧
      (s.nextUploadBlock w []).2.halted = some emptyBufferMessage := by
  cases hu : s.upload with
  | some p => simp [nextUploadBlock, hst, hu]
  | none =>
    obtain ⟨image, hr⟩ : ∃ image, w.read (imageFile s.alternate) = .ok image := by
      rcases himage with hsome | hread
      · exact absurd hu hsome
      · exact hread
    simp [nextUploadBlock, hst, hu, hr]

/-! ## What any request does -/

/-- Where an upload request goes on from: the upload in progress, or the selected image read
from its start. -/
def UploadFrom (s : Servicer) (w : WorkDir) (image : List UInt8) (off : Nat) : Prop :=
  s.upload = some (image, off) ∨
    (s.upload = none ∧ w.read (imageFile s.alternate) = .ok image ∧ off = 0)

/-- What handing out an upload block can do to the servicer. Outside the states an upload goes
on from it stalls, and with no upload and no image it fails; otherwise it goes on from an image
and an offset, and halts on a buffer with no room after the status byte, ends the upload with a
short block, or hands out a whole block and waits for the next request. -/
inductive UploadStep (s : Servicer) (w : WorkDir) (out : List UInt8) : Servicer → Prop
  | stall : ¬ (s.state = .dfuIdle ∨ s.state = .uploadIdle) →
      UploadStep s w out (s.fail .stalledPacket)
  | missing : (s.state = .dfuIdle ∨ s.state = .uploadIdle) → s.upload = none →
      (∀ image, w.read (imageFile s.alternate) ≠ .ok image) → UploadStep s w out (s.fail .file)
  | halt (image : List UInt8) (off : Nat) : (s.state = .dfuIdle ∨ s.state = .uploadIdle) →
      s.UploadFrom w image off → out = [] →
      UploadStep s w out
        { s with upload := some (image, off), halted := some emptyBufferMessage }
  | last (image : List UInt8) (off : Nat) : (s.state = .dfuIdle ∨ s.state = .uploadIdle) →
      s.UploadFrom w image off → out ≠ [] →
      UploadStep s w out { s with upload := none, block := 0, state := .dfuIdle }
  | next (image : List UInt8) (off : Nat) : (s.state = .dfuIdle ∨ s.state = .uploadIdle) →
      s.UploadFrom w image off → out ≠ [] → off + blockSize ≤ image.length →
      UploadStep s w out
        { s with upload := some (image, off + blockSize), block := s.block + 1, state := .uploadIdle }

/-- Every upload request takes one of the steps of `UploadStep`. -/
theorem nextUploadBlock_step (s : Servicer) (w : WorkDir) (out : List UInt8) :
    UploadStep s w out (s.nextUploadBlock w out).2 := by
  have hb : blockSize = 64 := rfl
  by_cases hst : s.state = .dfuIdle ∨ s.state = .uploadIdle
  swap
  · simpa [nextUploadBlock, hst] using (UploadStep.stall hst : UploadStep s w out _)
  cases hu : s.upload with
  | some p =>
    obtain ⟨image, off⟩ := p
    have hfrom : s.UploadFrom w image off := .inl hu
    simp only [nextUploadBlock, hst, hu, decide_true, Bool.not_true, Bool.false_eq_true, if_false]
    split_ifs with hout hshort
    · exact .halt image off hst hfrom (by simpa using hout)
    · exact .last image off hst hfrom (by simpa using hout)
    · -- a block that is not short is a whole block, and the image holds it past the offset
      have hn : min (min (image.length - off) blockSize) (out.length - 1) = blockSize := by omega
      rw [hn]
      exact .next image off hst hfrom (by simpa using hout) (by omega)
  | none =>
    cases hr : w.read (imageFile s.alternate) with
    | error e =>
      simpa [nextUploadBlock, hst, hu, hr] using
        (UploadStep.missing hst hu (by simp [hr]) : UploadStep s w out _)
    | ok image =>
      have hfrom : s.UploadFrom w image 0 := .inr ⟨hu, hr, rfl⟩
      simp only [nextUploadBlock, hst, hu, hr, decide_true, Bool.not_true, Bool.false_eq_true,
        if_false]
      split_ifs with hout hshort
      · exact .halt image 0 hst hfrom (by simpa using hout)
      · exact .last image 0 hst hfrom (by simpa using hout)
      · have hn : min (min (image.length - 0) blockSize) (out.length - 1) = blockSize := by omega
        rw [hn]
        exact .next image 0 hst hfrom (by simpa using hout) (by omega)

/-- What a read does to the servicer: nothing, the settling of a status poll, or the handout
of an upload block from what follows the status byte. -/
theorem get_cases (res cmd : UInt8) (buf : List UInt8) (s : Servicer) (w : WorkDir) :
    (get res cmd buf s w).2 = (s, w) ∨ (get res cmd buf s w).2 = s.settle w ∨
      ∃ status out, res = resource ∧ (cmd &&& ~~~readBit).toNat = uploadId ∧
        buf = status :: out ∧ (get res cmd buf s w).2 = ((s.nextUploadBlock w out).2, w) := by
  unfold get
  split_ifs with hres
  · exact .inl rfl
  · split
    · exact .inl rfl
    · rename_i status out
      dsimp only
      split_ifs
      · exact .inr (.inl rfl)
      · exact .inr (.inl rfl)
      · exact .inl rfl
      · exact .inl rfl
      · exact .inr (.inr ⟨status, out, not_not.1 hres, by assumption, rfl, rfl⟩)
      · exact .inl rfl
      · exact .inl rfl
      · exact .inl rfl

/-- What a write can do to the servicer, one step for each way through `set`. A request the
servicer refuses keeps it. -/
inductive WriteStep (res cmd : UInt8) (p : List UInt8) (s : Servicer) : Servicer → Prop
  | keep : WriteStep res cmd p s s
  | fail (st : Status) : st ≠ .ok → WriteStep res cmd p s (s.fail st)
  | select (alt : UInt8) : (alt.toNat = altFactory ∨ alt.toNat = altUpgrade) →
      (s.state = .appIdle ∨ s.state = .dfuIdle) →
      WriteStep res cmd p s { s.resetTransfers with alternate := alt, state := .dfuIdle }
  | dnload : WriteStep res cmd p s (s.acceptBlock p).2
  | clear : res = resource → cmd.toNat = clrStatusId →
      WriteStep res cmd p s { s with status := .ok, state := .dfuIdle }
  | abort : res = resource → cmd.toNat = abortId →
      WriteStep res cmd p s { s.resetTransfers with state := .dfuIdle }
  | block (b : UInt16) : WriteStep res cmd p s { s with block := b }
  | detach : WriteStep res cmd p s { s.resetTransfers with status := .ok, state := .appIdle }

/-- Every write takes one of the steps of `WriteStep`, and no write touches the working
directory: only a status poll manifests. -/
theorem set_cases (res cmd : UInt8) (p : List UInt8) (s : Servicer) (w : WorkDir) :
    WriteStep res cmd p s (set res cmd p s w).2.1 ∧ (set res cmd p s w).2.2 = w := by
  unfold set
  by_cases hres : res ≠ resource
  · rw [if_pos hres]
    exact ⟨.keep, rfl⟩
  rw [if_neg hres]
  have hres : res = resource := not_not.1 hres
  dsimp only
  -- one case per command id, in the order the servicer tests them
  by_cases hsel : cmd.toNat = setAlternateId
  · rw [if_pos hsel]
    split
    · exact ⟨.keep, rfl⟩
    · rename_i alt _
      split_ifs with hbad hidle
      · exact ⟨.fail _ (by decide), rfl⟩
      · exact ⟨.select alt (by omega) hidle, rfl⟩
      · exact ⟨.fail _ (by decide), rfl⟩
  rw [if_neg hsel]
  by_cases hdn : cmd.toNat = dnloadId
  · rw [if_pos hdn]
    exact ⟨.dnload, rfl⟩
  rw [if_neg hdn]
  by_cases hclr : cmd.toNat = clrStatusId
  · rw [if_pos hclr]
    exact ⟨.clear hres hclr, rfl⟩
  rw [if_neg hclr]
  by_cases hab : cmd.toNat = abortId
  · rw [if_pos hab]
    exact ⟨.abort hres hab, rfl⟩
  rw [if_neg hab]
  by_cases hblk : cmd.toNat = transferBlockId
  · rw [if_pos hblk]
    split
    · exact ⟨.block _, rfl⟩
    · exact ⟨.keep, rfl⟩
  rw [if_neg hblk]
  split_ifs
  · exact ⟨.detach, rfl⟩
  · exact ⟨.keep, rfl⟩

end Servicer

end VoiceBench.Dfu
