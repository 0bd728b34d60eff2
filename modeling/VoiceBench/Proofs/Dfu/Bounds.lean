import Mathlib
import VoiceBench.Proofs.Dfu.IdleTransfers

/-!
# Where the upgrade servicer indexes its buffers

The servicer slices buffers whose size the caller chooses. Most slices are bounded by the
guard or the `min` in front of them, and the servicer's state keeps the one that is not: an
upload in progress never stands past the end of its image (`Servicer.UploadWithin`). Handing
out a block moves the offset by at most what is left of the image, and every other request
keeps the upload or drops it (`get_cases` and `set_cases` say what a read and a write can
do; `uploadWithin_get`, `uploadWithin_set`), so the offset stays within the image in every state
a run of requests reaches (`Runs.uploadWithin`). The block of the image that the next upload request slices out
is therefore in bounds.

One slice is unguarded: an upload request writes the block's length into the byte after the
status byte, which a buffer of one byte does not have. The servicer then halts
(`Servicer.Overruns`, `get_of_overruns`), and no other request halts it (`halted_set`,
`halted_get_of_not_overruns`). Main statement: `running_servicer_halts_iff`.
-/

namespace VoiceBench.Dfu

open Control

namespace Servicer

/-- The offset of an upload in progress lies within the image being uploaded. -/
def UploadWithin (s : Servicer) : Prop :=
  ∀ image off, s.upload = some (image, off) → off ≤ image.length

/-- A read that makes the servicer index past its buffer: the upload request with a buffer
that holds the status byte only, in a state an upload goes on from, with an upload in progress
or the selected image there to start one. -/
structure Overruns (res cmd : UInt8) (buf : List UInt8) (s : Servicer) (w : WorkDir) : Prop where
  toResource : res = resource
  asksUpload : (cmd &&& ~~~readBit).toNat = uploadId
  statusOnly : buf.length = 1
  uploading : s.state = .dfuIdle ∨ s.state = .uploadIdle
  hasImage : s.upload ≠ none ∨ ∃ image, w.read (imageFile s.alternate) = .ok image

variable {s : Servicer} {w : WorkDir}

/-! ## The upload offset -/

theorem uploadWithin_of_upload_eq {s' : Servicer} (h : s.UploadWithin)
    (hu : s'.upload = s.upload) : s'.UploadWithin :=
  fun image off hs' => h image off (hu ▸ hs')

theorem uploadWithin_of_none (hu : s.upload = none) : s.UploadWithin :=
  fun _ _ hs => by rw [hu] at hs; cases hs

/-- Handing out an upload block keeps the offset within the image. -/
theorem uploadWithin_nextUploadBlock (h : s.UploadWithin) (out : List UInt8) :
    (s.nextUploadBlock w out).2.UploadWithin := by
  have hstep := nextUploadBlock_step s w out
  generalize (s.nextUploadBlock w out).2 = s' at hstep
  cases hstep with
  | stall | missing => exact uploadWithin_of_upload_eq h rfl
  | halt image off _ hfrom =>
    intro image' off' hu
    cases hu
    rcases hfrom with hfrom | ⟨-, -, rfl⟩
    · exact h image off hfrom
    · exact Nat.zero_le _
  | last => exact uploadWithin_of_none rfl
  | next image off _ _ _ hfit =>
    intro image' off' hu
    cases hu
    exact hfit

/-! ## Writes -/

/-- A download block leaves the upload as it is and never halts the servicer. -/
theorem acceptBlock_upload_halted (p : List UInt8) :
    (s.acceptBlock p).2.upload = s.upload ∧ (s.acceptBlock p).2.halted = s.halted := by
  unfold acceptBlock
  split
  · exact ⟨rfl, rfl⟩
  · dsimp only
    split_ifs <;> exact ⟨rfl, rfl⟩

/-- What a write does to an upload and to a running servicer: it keeps the upload or drops
it, and it never halts. -/
theorem set_upload_halted (res cmd : UInt8) (p : List UInt8) :
    ((set res cmd p s w).2.1.upload = s.upload ∨ (set res cmd p s w).2.1.upload = none) ∧
      (set res cmd p s w).2.1.halted = s.halted := by
  obtain ⟨hstep, -⟩ := set_cases res cmd p s w
  generalize (set res cmd p s w).2.1 = s' at hstep
  cases hstep with
  | keep | fail | clear | block => exact ⟨.inl rfl, rfl⟩
  | select | abort | detach => exact ⟨.inr rfl, rfl⟩
  | dnload => exact ⟨.inl (acceptBlock_upload_halted p).1, (acceptBlock_upload_halted p).2⟩

/-- Every write keeps the offset of an upload within its image. -/
theorem uploadWithin_set (h : s.UploadWithin) (res cmd : UInt8) (p : List UInt8) :
    (set res cmd p s w).2.1.UploadWithin := by
  rcases (set_upload_halted res cmd p).1 with hkeep | hnone
  · exact uploadWithin_of_upload_eq h hkeep
  · exact uploadWithin_of_none hnone

/-- No write halts the servicer. -/
theorem halted_set (res cmd : UInt8) (p : List UInt8) : (set res cmd p s w).2.1.halted = s.halted :=
  (set_upload_halted res cmd p).2

/-! ## Reads -/

/-- Manifestation drops the upload or keeps it. -/
theorem uploadWithin_manifest (h : s.UploadWithin) : (s.manifest w).1.UploadWithin := by
  unfold manifest
  split
  · exact uploadWithin_of_none rfl
  · exact uploadWithin_of_upload_eq h rfl

/-- The settling of a status poll keeps the offset within the image. -/
theorem uploadWithin_settle (h : s.UploadWithin) : (s.settle w).1.UploadWithin := by
  unfold settle
  split
  · exact uploadWithin_of_upload_eq h rfl
  · exact uploadWithin_manifest h
  · exact h

/-- Every read keeps the offset of an upload within its image. -/
theorem uploadWithin_get (h : s.UploadWithin) (res cmd : UInt8) (buf : List UInt8) :
    (get res cmd buf s w).2.1.UploadWithin := by
  rcases get_cases res cmd buf s w with hget | hget | ⟨_, out, -, -, -, hget⟩
  · rw [hget]
    exact h
  · rw [hget]
    exact uploadWithin_settle h
  · rw [hget]
    exact uploadWithin_nextUploadBlock h out

/-- A status poll never halts the servicer. -/
theorem halted_settle : (s.settle w).1.halted = s.halted := by
  unfold settle manifest
  split
  · rfl
  · split <;> rfl
  · rfl

/-- Handing out an upload block halts the servicer only for a buffer with no room after the
status byte, in a state an upload goes on from, with an image to hand out. -/
theorem halted_nextUploadBlock (out : List UInt8)
    (hnot : ¬ ((s.state = .dfuIdle ∨ s.state = .uploadIdle) ∧
      (s.upload ≠ none ∨ ∃ image, w.read (imageFile s.alternate) = .ok image) ∧ out = [])) :
    (s.nextUploadBlock w out).2.halted = s.halted := by
  have hstep := nextUploadBlock_step s w out
  generalize (s.nextUploadBlock w out).2 = s' at hstep
  cases hstep with
  | stall | missing | last | next => rfl
  | halt image off hst hfrom hout =>
    refine absurd ⟨hst, ?_, hout⟩ hnot
    rcases hfrom with hu | ⟨-, hr, -⟩
    · exact .inl (by simp [hu])
    · exact .inr ⟨image, hr⟩

/-- A read that overruns its buffer fails and halts the servicer. -/
theorem get_of_overruns {res cmd : UInt8} {buf : List UInt8} (h : Overruns res cmd buf s w) :
    (get res cmd buf s w).1 = .error .controlError ∧
      (get res cmd buf s w).2.1.halted = some emptyBufferMessage := by
  obtain ⟨status, rfl⟩ : ∃ status, buf = [status] := List.length_eq_one_iff.1 h.statusOnly
  obtain ⟨rfl, hcmd, -, hst, himage⟩ := h
  obtain ⟨hfail, hhalt⟩ := nextUploadBlock_nil (w := w) hst himage
  have hget : get resource cmd [status] s w =
      ((s.nextUploadBlock w []).1.map (0 :: ·), (s.nextUploadBlock w []).2, w) := by
    simp [get, hcmd, getStatusId, getStateId, uploadId]
  rw [hget]
  exact ⟨by rw [hfail]; rfl, hhalt⟩

/-- Every read that does not overrun its buffer leaves the servicer running if it was. -/
theorem halted_get_of_not_overruns {res cmd : UInt8} {buf : List UInt8}
    (h : ¬ Overruns res cmd buf s w) : (get res cmd buf s w).2.1.halted = s.halted := by
  rcases get_cases res cmd buf s w with
    hget | hget | ⟨status, out, hres, hcmd, rfl, hget⟩
  · rw [hget]
  · rw [hget]
    exact halted_settle
  · -- the upload request halts only when its buffer overruns
    rw [hget]
    refine halted_nextUploadBlock out fun ⟨hst, himage, hout⟩ => h ?_
    subst hout
    exact ⟨hres, hcmd, rfl, hst, himage⟩

end Servicer

/-! ## Runs of requests -/

/-- The servicers and working directories reached from a fresh servicer, of any version, by
requests each made while the servicer runs: a request that halts it is its last. -/
inductive Runs : Servicer × WorkDir → Prop
  | fresh (version : List UInt8) (w : WorkDir) : Runs ({ version }, w)
  | step {sw : Servicer × WorkDir} (c : Call) : Runs sw → sw.1.halted = none → Runs (c.apply sw)

/-- Every request keeps the offset of an upload within its image. -/
theorem Call.uploadWithin_apply {sw : Servicer × WorkDir} (h : sw.1.UploadWithin) (c : Call) :
    (c.apply sw).1.UploadWithin := by
  obtain ⟨s, w⟩ := sw
  cases c with
  | get res cmd buf => exact Servicer.uploadWithin_get h res cmd buf
  | set res cmd p => exact Servicer.uploadWithin_set h res cmd p

/-- In every state a run reaches, an upload in progress stands within its image. -/
theorem Runs.uploadWithin {sw : Servicer × WorkDir} (h : Runs sw) : sw.1.UploadWithin := by
  induction h with
  | fresh version w => exact Servicer.uploadWithin_of_none rfl
  | step c _ _ ih => exact Call.uploadWithin_apply ih c

/-- In every state a run of requests reaches from a fresh servicer while it runs, an upload in
progress stands within its image, so the block the next upload request slices out is in
bounds. No write halts the servicer, and a read halts it exactly when it overruns its buffer:
an upload request with a buffer of one byte, in a state an upload goes on from, with an upload
in progress or the selected image there. Such a read fails, and every other request answers
with a result or a status. -/
theorem running_servicer_halts_iff {sw : Servicer × WorkDir} (h : Runs sw)
    (hrun : sw.1.halted = none) :
    sw.1.UploadWithin ∧
    (∀ res cmd p, (Servicer.set res cmd p sw.1 sw.2).2.1.halted = none) ∧
    (∀ res cmd buf, (Servicer.get res cmd buf sw.1 sw.2).2.1.halted ≠ none ↔
      Servicer.Overruns res cmd buf sw.1 sw.2) ∧
    (∀ res cmd buf, Servicer.Overruns res cmd buf sw.1 sw.2 →
      (Servicer.get res cmd buf sw.1 sw.2).1 = .error .controlError) := by
  refine ⟨h.uploadWithin, fun res cmd p => (Servicer.halted_set res cmd p).trans hrun,
    fun res cmd buf => ⟨fun hhalt => ?_, fun hover => ?_⟩,
    fun res cmd buf hover => (Servicer.get_of_overruns hover).1⟩
  · by_contra hnot
    exact hhalt ((Servicer.halted_get_of_not_overruns hnot).trans hrun)
  · rw [(Servicer.get_of_overruns hover).2]
    exact Option.some_ne_none _

/-- The upgrade image selected in a directory that holds it: the servicer runs, and what it
holds keeps to the bounds. -/
theorem selected_upgrade_keeps_bounds :
    let selected := Call.apply (.set resource 64 [1])
      (({} : Servicer), ({ files := [(upgradeImage, [0x61, 0x62, 0x63])] } : WorkDir))
    Runs selected ∧ selected.1.halted = none ∧
      (selected.1.UploadWithin ∧
        (∀ res cmd p, (Servicer.set res cmd p selected.1 selected.2).2.1.halted = none) ∧
        (∀ res cmd buf, (Servicer.get res cmd buf selected.1 selected.2).2.1.halted ≠ none ↔
          Servicer.Overruns res cmd buf selected.1 selected.2) ∧
        (∀ res cmd buf, Servicer.Overruns res cmd buf selected.1 selected.2 →
          (Servicer.get res cmd buf selected.1 selected.2).1 = .error .controlError)) := by
  have hruns : Runs (Call.apply (.set resource 64 [1])
      (({} : Servicer), ({ files := [(upgradeImage, [0x61, 0x62, 0x63])] } : WorkDir))) :=
    .step _ (.fresh [1, 0, 0] _) rfl
  exact ⟨hruns, rfl, running_servicer_halts_iff hruns rfl⟩

/-- Selecting the upgrade image and then asking for an upload block with a buffer of one byte
halts the servicer with an index past the buffer. -/
theorem one_byte_upload_read_halts :
    let selected := Call.apply (.set resource 64 [1])
      (({} : Servicer), ({ files := [(upgradeImage, [0x61, 0x62, 0x63])] } : WorkDir))
    Runs selected ∧ selected.1.halted = none ∧
      (Servicer.get resource 2 [0] selected.1 selected.2).1 = .error .controlError ∧
      (Servicer.get resource 2 [0] selected.1 selected.2).2.1.halted =
        some Servicer.emptyBufferMessage := by
  refine ⟨.step _ (.fresh [1, 0, 0] _) rfl, rfl, ?_, ?_⟩
  all_goals decide +kernel

end VoiceBench.Dfu
