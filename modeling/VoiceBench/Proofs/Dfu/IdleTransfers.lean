import Mathlib
import VoiceBench.Proofs.Dfu.Answers

/-!
# What an idle servicer holds

A servicer that is idle holds no transfer: no download blocks waiting for manifestation and no
upload in progress. `Servicer.Tidy` states this together with what makes it inductive: a
download holds no upload and an upload holds no download. Each read and write of the servicer
keeps it tidy (`tidy_get`, `tidy_set`), with one exception: clearing the status moves to the idle
state whatever is pending, so a clear sent while a transfer is pending leaves stale blocks or a
stale upload behind (`clear_status_keeps_stale_download`). Hence every state reached from a fresh
servicer by requests none of which clears the status while a transfer is pending is tidy
(`Reachable.tidy`), and an idle one holds no transfer (`idle_holds_no_transfer`).

A servicer that has halted is left out: the request that halts it is its last.
-/

namespace VoiceBench.Dfu

open Control

namespace Servicer

/-- The transfers a running servicer may hold in its state: none when idle, no upload during
a download and no download during an upload. -/
structure Tidy (s : Servicer) : Prop where
  idle : s.halted = none → (s.state = .appIdle ∨ s.state = .dfuIdle) →
    s.download = [] ∧ s.upload = none
  uploading : s.halted = none → s.state = .uploadIdle → s.download = []
  downloading : s.halted = none →
    (s.state = .dnloadSync ∨ s.state = .dnloadIdle ∨ s.state = .manifestSync) → s.upload = none

/-- A transfer is in progress: blocks received and not manifested, or an upload not finished. -/
def Pending (s : Servicer) : Prop := s.download ≠ [] ∨ s.upload ≠ none

variable {s : Servicer} {w : WorkDir}

/-! ## Kinds of moves -/

/-- The error state constrains no transfer. -/
theorem tidy_fail (s : Servicer) (st : Status) : (s.fail st).Tidy :=
  ⟨fun _ h => by simp [fail] at h, fun _ h => by simp [fail] at h,
    fun _ h => by simp [fail] at h⟩

/-- A servicer with no transfer is tidy in every state. -/
theorem tidy_of_empty (hd : s.download = []) (hu : s.upload = none) : s.Tidy :=
  ⟨fun _ _ => ⟨hd, hu⟩, fun _ _ => hd, fun _ _ => hu⟩

/-- Manifestation resets the transfers or fails. -/
theorem tidy_manifest (s : Servicer) (w : WorkDir) : (s.manifest w).1.Tidy := by
  unfold manifest
  split
  · exact tidy_of_empty rfl rfl
  · exact tidy_fail _ _

/-- A download block is taken only from an idle state or during a download, where no upload is
held. -/
theorem tidy_acceptBlock (h : s.Tidy) (p : List UInt8) : (s.acceptBlock p).2.Tidy := by
  unfold acceptBlock
  split
  · exact h
  · dsimp only
    split_ifs with hbad hfactory hempty hend hidle
    · exact h
    · exact tidy_fail _ _
    · exact tidy_fail _ _
    · -- the empty block after blocks: a download holds no upload
      exact ⟨fun _ h' => by simp at h', fun _ h' => by simp at h',
        fun hh _ => h.downloading hh (.inr (.inl hend.1))⟩
    · -- a block appended: still no upload
      refine ⟨fun _ h' => by simp at h', fun _ h' => by simp at h', fun hh _ => ?_⟩
      rcases hidle with hst | hst
      · exact (h.idle hh (.inr hst)).2
      · exact h.downloading hh (.inr (.inl hst))
    · exact tidy_fail _ _

/-- A running tidy servicer in a state an upload goes on from holds no download. -/
theorem Tidy.download_eq_nil (h : s.Tidy) (hh : s.halted = none)
    (hst : s.state = .dfuIdle ∨ s.state = .uploadIdle) : s.download = [] := by
  rcases hst with hst | hst
  · exact (h.idle hh (.inr hst)).1
  · exact h.uploading hh hst

/-- Handing out an upload block keeps the servicer tidy. -/
theorem tidy_nextUploadBlock (h : s.Tidy) (out : List UInt8) :
    (s.nextUploadBlock w out).2.Tidy := by
  have hstep := nextUploadBlock_step s w out
  generalize (s.nextUploadBlock w out).2 = s' at hstep
  cases hstep with
  | stall | missing => exact tidy_fail _ _
  | halt => exact ⟨fun hh => by simp at hh, fun hh => by simp at hh, fun hh => by simp at hh⟩
  | last _ _ hst =>
    exact ⟨fun hh _ => ⟨h.download_eq_nil hh hst, rfl⟩, fun hh _ => h.download_eq_nil hh hst,
      fun _ _ => rfl⟩
  | next _ _ hst =>
    exact ⟨fun _ hidle => by simp at hidle, fun hh _ => h.download_eq_nil hh hst,
      fun _ hdn => by simp at hdn⟩

/-- The settling of a status poll takes a download block or manifests, and stays tidy. -/
theorem tidy_settle (h : s.Tidy) (w : WorkDir) : (s.settle w).1.Tidy := by
  unfold settle
  split
  · rename_i hst
    exact ⟨fun _ h' => by simp at h', fun _ h' => by simp at h',
      fun hh _ => h.downloading hh (.inl hst)⟩
  · exact tidy_manifest s w
  · exact h

/-! ## Reads and writes -/

/-- Every read keeps the servicer tidy. -/
theorem tidy_get (h : s.Tidy) (res cmd : UInt8) (buf : List UInt8) :
    (get res cmd buf s w).2.1.Tidy := by
  rcases get_cases res cmd buf s w with hget | hget | ⟨_, out, -, -, -, hget⟩ <;> rw [hget]
  · exact h
  · exact tidy_settle h w
  · exact tidy_nextUploadBlock h out

/-- Every write keeps the servicer tidy, except a clear of the status while a transfer is
pending. -/
theorem tidy_set (h : s.Tidy) (res cmd : UInt8) (p : List UInt8)
    (hclear : ¬ (res = resource ∧ cmd.toNat = clrStatusId ∧ s.Pending)) :
    (set res cmd p s w).2.1.Tidy := by
  obtain ⟨hstep, -⟩ := set_cases res cmd p s w
  generalize (set res cmd p s w).2.1 = s' at hstep
  cases hstep with
  | keep => exact h
  | fail st _ => exact tidy_fail s st
  | select => exact tidy_of_empty rfl rfl
  | dnload => exact tidy_acceptBlock h p
  | clear hres hclr =>
    have hidle : ¬ s.Pending := fun hp => hclear ⟨hres, hclr, hp⟩
    simp only [Pending, not_or, not_not] at hidle
    exact tidy_of_empty hidle.1 hidle.2
  | abort => exact tidy_of_empty rfl rfl
  | block => exact ⟨h.idle, h.uploading, h.downloading⟩
  | detach => exact tidy_of_empty rfl rfl

end Servicer

/-! ## Runs of requests -/

/-- A request made to the servicer: a read with its buffer or a write with its payload. -/
inductive Call where
  | get (res cmd : UInt8) (buf : List UInt8)
  | set (res cmd : UInt8) (payload : List UInt8)

namespace Call

/-- The servicer and the working directory a request leaves. -/
def apply : Call → Servicer × WorkDir → Servicer × WorkDir
  | .get res cmd buf, (s, w) => (Servicer.get res cmd buf s w).2
  | .set res cmd p, (s, w) => (Servicer.set res cmd p s w).2

/-- A request that clears the status while a transfer is pending. -/
def ClearsPending : Call → Servicer → Prop
  | .set res cmd _, s => res = resource ∧ cmd.toNat = clrStatusId ∧ s.Pending
  | .get .., _ => False

/-- A request other than a clear of the status while a transfer is pending keeps the servicer
tidy. -/
theorem tidy_apply {c : Call} {sw : Servicer × WorkDir} (h : sw.1.Tidy)
    (hc : ¬ c.ClearsPending sw.1) : (c.apply sw).1.Tidy := by
  obtain ⟨s, w⟩ := sw
  cases c with
  | get res cmd buf => exact Servicer.tidy_get h res cmd buf
  | set res cmd p => exact Servicer.tidy_set h res cmd p hc

end Call

/-- The servicers and working directories reached from a fresh servicer by requests none of
which clears the status while a transfer is pending. -/
inductive Reachable : Servicer × WorkDir → Prop
  | fresh (w : WorkDir) : Reachable ({}, w)
  | step {sw : Servicer × WorkDir} (c : Call) (h : Reachable sw) (hc : ¬ c.ClearsPending sw.1) :
      Reachable (c.apply sw)

/-- Every reached servicer is tidy. -/
theorem Reachable.tidy {sw : Servicer × WorkDir} (h : Reachable sw) : sw.1.Tidy := by
  induction h with
  | fresh w => exact Servicer.tidy_of_empty rfl rfl
  | step c _ hc ih => exact Call.tidy_apply ih hc

/-- A reached servicer that runs and is idle holds no transfer: a download started from it
manifests exactly the blocks sent after it, and an upload started from it begins with the
first block of the image. -/
theorem idle_holds_no_transfer {sw : Servicer × WorkDir} (h : Reachable sw)
    (hrun : sw.1.halted = none) (hidle : sw.1.state = .appIdle ∨ sw.1.state = .dfuIdle) :
    sw.1.download = [] ∧ sw.1.upload = none :=
  h.tidy.idle hrun hidle

/-- A one-byte image downloaded and manifested: the servicer is idle again with no transfer. -/
theorem manifested_download_leaves_no_transfer :
    ∃ sw : Servicer × WorkDir, Reachable sw ∧ sw.2.read upgradeImage = .ok [0xcc] ∧
      sw.1.halted = none ∧ sw.1.state = .dfuIdle ∧ sw.1.download = [] ∧
      sw.1.upload = none := by
  have hselect := (Reachable.fresh {}).step (.set resource 64 [1])
    (by simp [Call.ClearsPending, clrStatusId])
  have hblock := hselect.step (.set resource 1 [1, 0xcc])
    (by simp [Call.ClearsPending, clrStatusId])
  have htaken := hblock.step (.get resource 3 (List.replicate 6 0)) (by simp [Call.ClearsPending])
  have hend := htaken.step (.set resource 1 [0]) (by simp [Call.ClearsPending, clrStatusId])
  have hreach := hend.step (.get resource 3 (List.replicate 6 0)) (by simp [Call.ClearsPending])
  exact ⟨_, hreach, by decide +kernel, by decide +kernel, by decide +kernel,
    idle_holds_no_transfer hreach (by decide +kernel) (.inr (by decide +kernel))⟩

/-- Clearing the status in the middle of a download moves to the idle state with the blocks
received, and the next download manifests them in front of its own. -/
theorem clear_status_keeps_stale_download :
    let cleared := [Call.set resource 64 [1], .set resource 1 [2, 0xaa, 0xbb],
      .set resource 4 [0]].foldl (fun sw c => c.apply sw) (({} : Servicer), ({} : WorkDir))
    let next := [Call.set resource 1 [1, 0xcc], .get resource 3 (List.replicate 6 0),
      .set resource 1 [0], .get resource 3 (List.replicate 6 0)].foldl
        (fun sw c => c.apply sw) cleared
    cleared.1.state = .dfuIdle ∧ cleared.1.download = [0xaa, 0xbb] ∧
      next.1.state = .dfuIdle ∧ next.2.read upgradeImage = .ok [0xaa, 0xbb, 0xcc] := by
  decide +kernel

end VoiceBench.Dfu
