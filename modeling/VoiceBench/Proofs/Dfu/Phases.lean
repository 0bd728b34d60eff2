import Mathlib
import VoiceBench.Proofs.Dfu.IdleTransfers

/-!
# The phase of the upgrade servicer

The phase of the servicer is what the upgrade protocol reads of it: its state, its status and
the image it has selected. Each request changes the phase in one of a few ways
(`Servicer.Move`). It may keep the phase, fail into the error state with an error status,
select an image from an idle state, clear the status, abort, detach, take or settle a download
block, ask for or run manifestation, or hand out an upload block. Only manifestation writes a
file, and it writes the selected image. Every request is such a move (`Call.moves`) but one:
an abort sent in the error state returns to the idle state and keeps the error status.

Two facts follow for every run of requests from a fresh servicer (`Call.run`):

* while a download is under way the upgrade image is selected, so no request ever writes the
  factory image (`factory_image_never_written`);
* the status is `OK` exactly when the state is not the error state, as long as no abort is sent
  in the error state (`status_ok_iff_not_error`). An abort sent there leaves the servicer idle
  with the error status still set (`abort_in_error_keeps_error_status`).
-/

namespace VoiceBench.Dfu

/-- The states of a download: a block received, ready for the next block, or asked to
manifest. -/
def State.downloading : State → Bool
  | .dnloadSync | .dnloadIdle | .manifestSync => true
  | _ => false

namespace Servicer

/-- What the upgrade protocol reads of the servicer: its state, its status and the image
selected. -/
def phase (s : Servicer) : State × Status × UInt8 := (s.state, s.status, s.alternate)

@[simp] theorem phase_eq_iff {s : Servicer} {st : State} {status : Status} {alt : UInt8} :
    s.phase = (st, status, alt) ↔ s.state = st ∧ s.status = status ∧ s.alternate = alt := by
  simp [phase]

/-- What one request can do to the phase of the servicer and to its working directory. Only
`manifest` writes a file. -/
inductive Move (s : Servicer) (w : WorkDir) : Servicer → WorkDir → Prop
  | keep {s'} : s'.phase = s.phase → Move s w s' w
  | fail {s'} (st : Status) : st ≠ .ok → s'.phase = (.error, st, s.alternate) → Move s w s' w
  | select {s'} (alt : UInt8) : (alt.toNat = altFactory ∨ alt.toNat = altUpgrade) →
      (s.state = .appIdle ∨ s.state = .dfuIdle) → s'.phase = (.dfuIdle, s.status, alt) →
      Move s w s' w
  | clear {s'} : s'.phase = (.dfuIdle, .ok, s.alternate) → Move s w s' w
  | abort {s'} : s.state ≠ .error → s'.phase = (.dfuIdle, s.status, s.alternate) →
      Move s w s' w
  | detach {s'} : s'.phase = (.appIdle, .ok, s.alternate) → Move s w s' w
  | block {s'} : (s.state = .dfuIdle ∨ s.state = .dnloadIdle) → s.alternate.toNat ≠ altFactory →
      s'.phase = (.dnloadSync, s.status, s.alternate) → Move s w s' w
  | finish {s'} : s.state = .dnloadIdle → s.alternate.toNat ≠ altFactory →
      s'.phase = (.manifestSync, s.status, s.alternate) → Move s w s' w
  | take {s'} : s.state = .dnloadSync → s'.phase = (.dnloadIdle, s.status, s.alternate) →
      Move s w s' w
  | manifest {s' w'} : s.state = .manifestSync →
      w.write (imageFile s.alternate) s.download = .ok w' →
      s'.phase = (.dfuIdle, s.status, s.alternate) → Move s w s' w'
  | upload {s'} (st : State) : (s.state = .dfuIdle ∨ s.state = .uploadIdle) →
      (st = .dfuIdle ∨ st = .uploadIdle) → s'.phase = (st, s.status, s.alternate) →
      Move s w s' w

/-! ## Every request is a move -/

theorem move_fail (s : Servicer) (w : WorkDir) {st : Status} (hst : st ≠ .ok) :
    Move s w (s.fail st) w :=
  .fail st hst (by simp [fail])

/-- Manifestation writes the selected image and returns to idle, or fails to write. -/
theorem move_manifest {s : Servicer} {w : WorkDir} (hst : s.state = .manifestSync) :
    Move s w (s.manifest w).1 (s.manifest w).2 := by
  unfold manifest
  split
  · rename_i w' hw
    exact .manifest hst hw (by simp [resetTransfers])
  · exact move_fail s w (by decide)

/-- A status poll takes a download block or manifests; in every other state it keeps the
phase. -/
theorem move_settle (s : Servicer) (w : WorkDir) : Move s w (s.settle w).1 (s.settle w).2 := by
  unfold settle
  split
  · rename_i hst
    exact .take hst (by simp)
  · rename_i hst
    exact move_manifest hst
  · exact .keep rfl

/-- A download block is taken only from an idle state with the factory image not selected. -/
theorem move_acceptBlock (s : Servicer) (w : WorkDir) (p : List UInt8) :
    Move s w (s.acceptBlock p).2 w := by
  unfold acceptBlock
  split
  · exact .keep rfl
  · dsimp only
    split_ifs with hbad hfactory hempty hend hidle
    · exact .keep rfl
    · exact move_fail s w (by decide)
    · exact move_fail s w (by decide)
    · -- the factory guard comes first, so the factory image is not the one selected
      exact .finish hend.1 (fun h => hfactory ⟨.inr hend.1, h⟩) (by simp)
    · exact .block hidle (fun h => hfactory ⟨hidle, h⟩) (by simp)
    · exact move_fail s w (by decide)

/-- Handing out an upload block fails, halts in place, or goes on between the idle states. -/
theorem move_nextUploadBlock (s : Servicer) (w : WorkDir) (out : List UInt8) :
    Move s w (s.nextUploadBlock w out).2 w := by
  have hstep := nextUploadBlock_step s w out
  generalize (s.nextUploadBlock w out).2 = s' at hstep
  cases hstep with
  | stall | missing => exact move_fail s w (by decide)
  | halt => exact .keep rfl
  | last _ _ hst => exact .upload .dfuIdle hst (.inl rfl) rfl
  | next _ _ hst => exact .upload .uploadIdle hst (.inr rfl) rfl

/-- Every read is a move. -/
theorem move_get (res cmd : UInt8) (buf : List UInt8) (s : Servicer) (w : WorkDir) :
    Move s w (get res cmd buf s w).2.1 (get res cmd buf s w).2.2 := by
  rcases get_cases res cmd buf s w with hget | hget | ⟨_, out, -, -, -, hget⟩ <;> rw [hget]
  · exact .keep rfl
  · exact move_settle s w
  · exact move_nextUploadBlock s w out

/-- Every write is a move, except an abort sent in the error state, which returns to idle with
the error status kept. -/
theorem move_set (res cmd : UInt8) (p : List UInt8) (s : Servicer) (w : WorkDir) :
    Move s w (set res cmd p s w).2.1 (set res cmd p s w).2.2 ∨
      (res = resource ∧ cmd.toNat = abortId ∧ s.state = .error ∧
        (set res cmd p s w).2.1.phase = (.dfuIdle, s.status, s.alternate) ∧
        (set res cmd p s w).2.2 = w) := by
  obtain ⟨hstep, hw⟩ := set_cases res cmd p s w
  rw [hw]
  generalize (set res cmd p s w).2.1 = s' at hstep
  cases hstep with
  | keep => exact .inl (.keep rfl)
  | fail st hst => exact .inl (move_fail s w hst)
  | select alt halt hidle => exact .inl (.select alt halt hidle (by simp [resetTransfers]))
  | dnload => exact .inl (move_acceptBlock s w p)
  | clear => exact .inl (.clear (by simp))
  | abort hres hab =>
    by_cases herr : s.state = .error
    · exact .inr ⟨hres, hab, herr, by simp [resetTransfers], rfl⟩
    · exact .inl (.abort herr (by simp [resetTransfers]))
  | block => exact .inl (.keep rfl)
  | detach => exact .inl (.detach (by simp [resetTransfers]))

end Servicer

namespace Call

/-- An abort sent while the servicer is in the error state. -/
def AbortsInError : Call → Servicer → Prop
  | .set res cmd _, s => res = resource ∧ cmd.toNat = abortId ∧ s.state = .error
  | .get .., _ => False

instance (c : Call) (s : Servicer) : Decidable (c.AbortsInError s) :=
  match c with
  | .set res cmd _ =>
    inferInstanceAs (Decidable (res = resource ∧ cmd.toNat = abortId ∧ s.state = .error))
  | .get .. => inferInstanceAs (Decidable False)

/-- Every request is a move of the servicer, except an abort sent in the error state, which
returns to idle with the status it had and writes no file. -/
theorem moves (c : Call) (sw : Servicer × WorkDir) :
    Servicer.Move sw.1 sw.2 (c.apply sw).1 (c.apply sw).2 ∨
      (c.AbortsInError sw.1 ∧ (c.apply sw).1.phase = (.dfuIdle, sw.1.status, sw.1.alternate) ∧
        (c.apply sw).2 = sw.2) := by
  obtain ⟨s, w⟩ := sw
  cases c with
  | get res cmd buf => exact .inl (Servicer.move_get res cmd buf s w)
  | set res cmd p =>
    rcases Servicer.move_set res cmd p s w with hm | ⟨hres, hab, herr, hphase, hw⟩
    · exact .inl hm
    · exact .inr ⟨⟨hres, hab, herr⟩, hphase, hw⟩

/-- The servicer and working directory after requests made one after another. -/
def run (cs : List Call) (sw : Servicer × WorkDir) : Servicer × WorkDir :=
  cs.foldl (fun sw c => c.apply sw) sw

@[simp] theorem run_nil (sw : Servicer × WorkDir) : run [] sw = sw := rfl

@[simp] theorem run_cons (c : Call) (cs : List Call) (sw : Servicer × WorkDir) :
    run (c :: cs) sw = run cs (c.apply sw) := rfl

/-- What every allowed request keeps, a run keeps in which each request is allowed in the
state the requests before it reach. -/
theorem run_induction (P : Servicer × WorkDir → Prop) (allowed : Call → Servicer → Prop)
    (hstep : ∀ c sw, P sw → allowed c sw.1 → P (c.apply sw)) :
    ∀ (cs : List Call) (sw : Servicer × WorkDir), P sw →
      (∀ i (hi : i < cs.length), allowed cs[i] (run (cs.take i) sw).1) → P (run cs sw)
  | [], _, h, _ => h
  | c :: cs, sw, h, hall => by
    have hc : allowed c sw.1 := hall 0 (by simp)
    refine run_induction P allowed hstep cs (c.apply sw) (hstep c sw h hc) fun i hi => ?_
    have hnext := hall (i + 1) (by simpa using hi)
    simp only [List.take_succ_cons, run_cons] at hnext
    exact hnext

end Call

/-! ## The factory image -/

namespace Servicer

/-- The servicer selects one of the two images, and the upgrade image while a download is
under way. -/
structure DownloadsUpgrade (s : Servicer) : Prop where
  valid : s.alternate.toNat = altFactory ∨ s.alternate.toNat = altUpgrade
  downloading : s.state.downloading = true → s.alternate.toNat = altUpgrade

/-- Outside a download any valid selection will do. -/
theorem downloadsUpgrade_of_not_downloading {s : Servicer}
    (hvalid : s.alternate.toNat = altFactory ∨ s.alternate.toNat = altUpgrade)
    (hst : s.state.downloading = false) : s.DownloadsUpgrade :=
  ⟨hvalid, fun h => absurd h (by simp [hst])⟩

/-- A download starts only with the factory image not selected, so with the upgrade image. -/
theorem downloadsUpgrade_of_not_factory {s : Servicer}
    (hvalid : s.alternate.toNat = altFactory ∨ s.alternate.toNat = altUpgrade)
    (halt : s.alternate.toNat ≠ altFactory) : s.DownloadsUpgrade :=
  ⟨hvalid, fun _ => hvalid.resolve_left halt⟩

/-- Every move keeps the upgrade image selected through a download. -/
theorem DownloadsUpgrade.move {s s' : Servicer} {w w' : WorkDir} (h : s.DownloadsUpgrade)
    (hm : Move s w s' w') : s'.DownloadsUpgrade := by
  cases hm with
  | keep hp =>
    simp only [phase, Prod.mk.injEq] at hp
    exact ⟨hp.2.2 ▸ h.valid, hp.1 ▸ hp.2.2 ▸ h.downloading⟩
  | fail st _ hp =>
    obtain ⟨hst, -, halt⟩ := phase_eq_iff.1 hp
    exact downloadsUpgrade_of_not_downloading (halt ▸ h.valid) (by simp [hst, State.downloading])
  | select alt hvalid _ hp =>
    obtain ⟨hst, -, halt⟩ := phase_eq_iff.1 hp
    exact downloadsUpgrade_of_not_downloading (halt ▸ hvalid) (by simp [hst, State.downloading])
  | clear hp | abort _ hp | detach hp | manifest _ _ hp =>
    obtain ⟨hst, -, halt⟩ := phase_eq_iff.1 hp
    exact downloadsUpgrade_of_not_downloading (halt ▸ h.valid) (by simp [hst, State.downloading])
  | block _ hfactory hp | finish _ hfactory hp =>
    obtain ⟨-, -, halt⟩ := phase_eq_iff.1 hp
    exact downloadsUpgrade_of_not_factory (halt ▸ h.valid) (halt ▸ hfactory)
  | take hsync hp =>
    obtain ⟨-, -, halt⟩ := phase_eq_iff.1 hp
    have hup := h.downloading (by simp [hsync, State.downloading])
    exact downloadsUpgrade_of_not_factory (halt ▸ h.valid) (by simp [halt, hup, altFactory, altUpgrade])
  | upload st _ hst hp =>
    obtain ⟨hst', -, halt⟩ := phase_eq_iff.1 hp
    refine downloadsUpgrade_of_not_downloading (halt ▸ h.valid) ?_
    rcases hst with rfl | rfl <;> simp [hst', State.downloading]

/-- A move writes no file but the upgrade image while the upgrade image is selected through a
download. -/
theorem DownloadsUpgrade.writes {s s' : Servicer} {w w' : WorkDir} (h : s.DownloadsUpgrade)
    (hm : Move s w s' w') : w' = w ∨ ∃ b, w.write upgradeImage b = .ok w' := by
  cases hm with
  | manifest hst hw _ =>
    have hup : s.alternate.toNat = altUpgrade := h.downloading (by simp [hst, State.downloading])
    have himage : imageFile s.alternate = upgradeImage := by
      simp [imageFile, hup, altFactory, altUpgrade]
    exact .inr ⟨s.download, himage ▸ hw⟩
  | _ => exact .inl rfl

end Servicer

namespace Call

/-- Every request keeps the upgrade image selected through a download. -/
theorem downloadsUpgrade_apply (c : Call) {sw : Servicer × WorkDir}
    (h : sw.1.DownloadsUpgrade) : (c.apply sw).1.DownloadsUpgrade := by
  rcases moves c sw with hm | ⟨-, hp, -⟩
  · exact h.move hm
  · obtain ⟨hst, -, halt⟩ := Servicer.phase_eq_iff.1 hp
    exact Servicer.downloadsUpgrade_of_not_downloading (halt ▸ h.valid)
      (by simp [hst, State.downloading])

/-- Every request writes no file but the upgrade image. -/
theorem writes_apply (c : Call) {sw : Servicer × WorkDir} (h : sw.1.DownloadsUpgrade) :
    (c.apply sw).2 = sw.2 ∨ ∃ b, sw.2.write upgradeImage b = .ok (c.apply sw).2 := by
  rcases moves c sw with hm | ⟨-, -, hw⟩
  · exact h.writes hm
  · exact .inl hw

end Call

/-- No request ever writes the factory image. Whatever requests are made to a fresh servicer,
the upgrade image is selected whenever a download is under way. The next request writes no
file but the upgrade image, and the factory image reads as it did at the start. -/
theorem factory_image_never_written (v : List UInt8) (w : WorkDir) (cs : List Call) (c : Call) :
    let sw := Call.run cs ({ version := v }, w)
    ((sw.1.state = .dnloadSync ∨ sw.1.state = .dnloadIdle ∨ sw.1.state = .manifestSync) →
        sw.1.alternate.toNat = altUpgrade) ∧
      ((c.apply sw).2 = sw.2 ∨ ∃ b, sw.2.write upgradeImage b = .ok (c.apply sw).2) ∧
      sw.2.read factoryImage = w.read factoryImage := by
  intro sw
  have hfactory : WorkDir.IsName factoryImage := by decide +kernel
  have hupgrade : WorkDir.IsName upgradeImage := by decide +kernel
  have hne : upgradeImage ≠ factoryImage := by decide
  -- the run keeps the upgrade image selected through downloads, and with it the factory image
  have hrun : sw.1.DownloadsUpgrade ∧ sw.2.read factoryImage = w.read factoryImage := by
    refine Call.run_induction (fun sw => sw.1.DownloadsUpgrade ∧
        sw.2.read factoryImage = w.read factoryImage) (fun _ _ => True)
      (fun c sw h _ => ⟨c.downloadsUpgrade_apply h.1, ?_⟩) cs _
      ⟨⟨.inr rfl, by simp [State.downloading]⟩, rfl⟩ (fun _ _ => trivial)
    rcases c.writes_apply h.1 with hw | ⟨b, hw⟩
    · rw [hw, h.2]
    · rw [WorkDir.read_of_write_other hfactory hupgrade hne hw, h.2]
  refine ⟨fun hdl => hrun.1.downloading ?_, Call.writes_apply c hrun.1, hrun.2⟩
  rcases hdl with h | h | h <;> simp [h, State.downloading]

/-! ## Status and state -/

namespace Servicer

/-- The status is `OK` exactly when the state is not the error state. -/
def Agrees (s : Servicer) : Prop := s.status = .ok ↔ s.state ≠ .error

/-- A servicer outside the error state with status `OK` agrees. -/
theorem agrees_of_ok {s : Servicer} (hstatus : s.status = .ok) (hst : s.state ≠ .error) :
    s.Agrees :=
  ⟨fun _ => hst, fun _ => hstatus⟩

/-- Every move but a failure or a clear keeps the status, and none leaves the error state
with it: only `clear` and `detach` leave that state, and both reset the status. -/
theorem Agrees.move {s s' : Servicer} {w w' : WorkDir} (h : s.Agrees) (hm : Move s w s' w') :
    s'.Agrees := by
  cases hm with
  | keep hp =>
    simp only [phase, Prod.mk.injEq] at hp
    rw [Agrees, hp.1, hp.2.1]
    exact h
  | fail st hok hp =>
    obtain ⟨hst, hstatus, -⟩ := phase_eq_iff.1 hp
    exact ⟨fun hs => absurd (hstatus ▸ hs) hok, fun hs => absurd hst hs⟩
  | select _ _ hidle hp =>
    obtain ⟨hst, hstatus, -⟩ := phase_eq_iff.1 hp
    refine agrees_of_ok (hstatus ▸ h.2 ?_) (by simp [hst])
    rcases hidle with h' | h' <;> simp [h']
  | clear hp | detach hp =>
    obtain ⟨hst, hstatus, -⟩ := phase_eq_iff.1 hp
    exact agrees_of_ok hstatus (by simp [hst])
  | abort herr hp =>
    obtain ⟨hst, hstatus, -⟩ := phase_eq_iff.1 hp
    exact agrees_of_ok (hstatus ▸ h.2 herr) (by simp [hst])
  | block hidle _ hp =>
    obtain ⟨hst, hstatus, -⟩ := phase_eq_iff.1 hp
    refine agrees_of_ok (hstatus ▸ h.2 ?_) (by simp [hst])
    rcases hidle with h' | h' <;> simp [h']
  | finish hsrc _ hp | take hsrc hp | manifest hsrc _ hp =>
    obtain ⟨hst, hstatus, -⟩ := phase_eq_iff.1 hp
    exact agrees_of_ok (hstatus ▸ h.2 (by simp [hsrc])) (by simp [hst])
  | upload st hsrc hdst hp =>
    obtain ⟨hst, hstatus, -⟩ := phase_eq_iff.1 hp
    refine agrees_of_ok (hstatus ▸ h.2 ?_) ?_
    · rcases hsrc with h' | h' <;> simp [h']
    · rcases hdst with rfl | rfl <;> simp [hst]

end Servicer

/-- Every request but an abort sent in the error state keeps status and state in
agreement. -/
theorem Call.agrees_apply {c : Call} {sw : Servicer × WorkDir} (h : sw.1.Agrees)
    (hc : ¬ c.AbortsInError sw.1) : (c.apply sw).1.Agrees := by
  rcases Call.moves c sw with hm | ⟨habort, -, -⟩
  · exact h.move hm
  · exact absurd habort hc

/-- The status is `OK` exactly when the state is not the error state, in every state a fresh
servicer reaches by requests none of which is an abort sent in the error state. A status poll
there reports an error status only with the error state. -/
theorem status_ok_iff_not_error (v : List UInt8) (w : WorkDir) (cs : List Call)
    (hcs : ∀ i (hi : i < cs.length),
      ¬ cs[i].AbortsInError (Call.run (cs.take i) ({ version := v }, w)).1) :
    (Call.run cs ({ version := v }, w)).1.status = .ok ↔
      (Call.run cs ({ version := v }, w)).1.state ≠ .error :=
  Call.run_induction (fun sw => sw.1.Agrees) (fun c s => ¬ c.AbortsInError s)
    (fun _ _ h hc => Call.agrees_apply h hc) cs _ (Servicer.agrees_of_ok rfl (by simp)) hcs

/-- A failed selection, a status poll reporting the error, a clear and an abort from idle:
status and state agree at the end. -/
theorem status_agrees_after_cleared_error :
    let cs := [Call.set resource (UInt8.ofNat setAlternateId) [5],
      .get resource (UInt8.ofNat getStatusId) (List.replicate 6 0),
      .set resource (UInt8.ofNat clrStatusId) [0], .set resource (UInt8.ofNat abortId) [0]]
    (∀ i (hi : i < cs.length),
        ¬ cs[i].AbortsInError (Call.run (cs.take i) ({ version := [1, 0, 0] }, {})).1) ∧
      ((Call.run cs ({ version := [1, 0, 0] }, {})).1.status = .ok ↔
        (Call.run cs ({ version := [1, 0, 0] }, {})).1.state ≠ .error) := by
  intro cs
  have hcs : ∀ i (hi : i < cs.length),
      ¬ cs[i].AbortsInError (Call.run (cs.take i) ({ version := [1, 0, 0] }, {})).1 := by
    decide +kernel
  exact ⟨hcs, status_ok_iff_not_error _ _ cs hcs⟩

/-- An abort sent in the error state returns to idle with the error status still set:
selecting an alternate that does not exist fails with `errTARGET`, and an abort then leaves
the servicer in `dfuIDLE` reporting `errTARGET`. -/
theorem abort_in_error_keeps_error_status :
    let s := (Call.run [.set resource (UInt8.ofNat setAlternateId) [5],
      .set resource (UInt8.ofNat abortId) [0]] (({} : Servicer), ({} : WorkDir))).1
    s.state = .dfuIdle ∧ s.status = .target := by
  decide +kernel

end VoiceBench.Dfu
