import Panloader.Histories
import Panloader.Runs

/-! Which descriptors the wrappers take for the Mali device. `mali_fd` names the newest one that
no `close` was asked for, and 0 is its value while there is none. -/
namespace Panloader
open Effects Histories

/-- A successful open of the device, as `fd`. -/
def Call.OpensMali (fd : ℤ) : Call → Prop
  | .open _ path _ _ ret => path = "/dev/mali0" ∧ ret ≠ -1 ∧ ret = fd
  | _ => False

/-- After it `fd` does not stand for what it stood for: it was closed, or returned for
another path. -/
def Call.Releases (fd : ℤ) : Call → Prop
  | .open _ path _ _ ret => path ≠ "/dev/mali0" ∧ ret ≠ -1 ∧ ret = fd
  | .close fd' ret => fd' = fd ∧ ret ≠ -1
  | _ => False

/-- The device was opened once more, or a close of `fd` was asked for, with success or not. -/
def Call.Supersedes (fd : ℤ) : Call → Prop
  | .open _ path _ _ ret => path = "/dev/mali0" ∧ ret ≠ -1 ∧ ret ≠ fd
  | .close fd' _ => fd' = fd
  | _ => False

/-- `fd` is open and was returned for the device. -/
def OpenOnMali (calls : List Call) (fd : ℤ) : Prop :=
  EverSince (Call.OpensMali fd) (fun call => ¬call.Releases fd) calls

/-- `fd` is the newest descriptor of the device, and no close of it was asked for. -/
def NewestOnMali (calls : List Call) (fd : ℤ) : Prop :=
  EverSince (Call.OpensMali fd) (fun call => ¬call.Supersedes fd) calls

/-- What the kernel answers to an open: a descriptor, or -1. -/
def Call.KernelAnswers : Call → Prop
  | .open _ _ _ _ ret => ret = -1 ∨ 0 ≤ ret
  | _ => True

/-- The descriptor that `mali_fd` holds, one call later. -/
theorem Call.stageAfter_maliFd_iff {st : Stage} {call : Call} {fd : ℤ} (hst : 0 ≤ st.maliFd)
    (hfd : fd ≠ 0) :
    (call.stageAfter st).maliFd = fd ↔
      call.OpensMali fd ∨ (¬call.Supersedes fd ∧ st.maliFd = fd) := by
  cases call with
  | «open» symbol path flags mode ret =>
    simp only [Call.stageAfter, Call.OpensMali, Call.Supersedes]
    by_cases hopen : ret ≠ -1 ∧ path = "/dev/mali0"
    · rw [if_pos hopen]
      tauto
    · rw [if_neg hopen]
      tauto
  | close fd' ret =>
    simp only [Call.stageAfter, Call.OpensMali, Call.Supersedes, false_or]
    by_cases hkept : fd' ≤ 0 ∨ st.maliFd = 0 ∨ fd' ≠ st.maliFd
    · rw [if_pos hkept]
      omega
    · rw [if_neg hkept]
      show 0 = fd ↔ _
      omega
  | ioctl fd' request arg env =>
    simp only [Call.stageAfter, Call.OpensMali, Call.Supersedes, false_or, not_false_eq_true,
      true_and]
    split_ifs <;> rfl
  | mmap symbol addr length prot flags fd' offset ret =>
    simp only [Call.stageAfter, Call.OpensMali, Call.Supersedes, false_or, not_false_eq_true,
      true_and]
    split_ifs <;> rfl
  | munmap addr length ret =>
    simp only [Call.OpensMali, Call.Supersedes, false_or, not_false_eq_true, true_and]
    rfl

theorem Call.stageAfter_maliFd_nonneg {st : Stage} {call : Call} (hst : 0 ≤ st.maliFd)
    (hkernel : call.KernelAnswers) : 0 ≤ (call.stageAfter st).maliFd := by
  cases call with
  | «open» symbol path flags mode ret =>
    simp only [Call.KernelAnswers] at hkernel
    show 0 ≤ if ret ≠ -1 ∧ path = "/dev/mali0" then ret else st.maliFd
    split_ifs <;> omega
  | close fd ret =>
    simp only [Call.stageAfter]
    split_ifs
    · exact hst
    · exact Int.le_refl 0
  | ioctl | mmap =>
    simp only [Call.stageAfter]
    split_ifs <;> exact hst
  | munmap => exact hst

/-- `mali_fd` after a run. -/
theorem Run.maliFd_iff {enableTimestamps enableHexdumpTrimming : Bool} {clock : ℕ → Timespec}
    {steps : List Step} {w : World}
    (hrun : Run (World.initial enableTimestamps enableHexdumpTrimming clock) steps w)
    (hkernel : ∀ call ∈ steps.map (·.call), call.KernelAnswers) :
    0 ≤ w.maliFd ∧ ∀ fd ≠ 0, (w.maliFd = fd ↔ NewestOnMali (steps.map (·.call)) fd) := by
  induction hrun with
  | nil => exact ⟨Int.le_refl 0, fun fd hfd => iff_of_false hfd.symm not_everSince_nil⟩
  | @snoc steps w w' call value hrun hexec ih =>
    rw [List.map_append, List.map_singleton] at hkernel ⊢
    have hlast : call.KernelAnswers := hkernel call (by simp)
    obtain ⟨hnonneg, hnewest⟩ := ih fun c hc => hkernel c (List.mem_append_left _ hc)
    have hstage : w'.maliFd = (call.stageAfter w.stage).maliFd :=
      congrArg Stage.maliFd (Call.exec_ok hexec).2.stage
    rw [hstage]
    refine ⟨Call.stageAfter_maliFd_nonneg hnonneg hlast, fun fd hfd => ?_⟩
    rw [Call.stageAfter_maliFd_iff hnonneg hfd]
    unfold NewestOnMali
    rw [everSince_snoc]
    apply or_congr_right
    apply and_congr_right
    intro
    exact hnewest fd hfd

/-- The wrappers agree on a descriptor exactly where it is not 0 and is open on the device as
the newest one that no close was asked for, or neither. -/
theorem interposers_agree_on_device (enableTimestamps enableHexdumpTrimming : Bool)
    (clock : ℕ → Timespec) {steps : List Step} {w : World}
    (hrun : Run (World.initial enableTimestamps enableHexdumpTrimming clock) steps w)
    (hkernel : ∀ call ∈ steps.map (·.call), call.KernelAnswers) (fd : ℤ) :
    ((OnDecodingPath w.maliFd fd ↔ OnTrackingPath w.maliFd fd) ∧
        (OnTrackingPath w.maliFd fd ↔ OpenOnMali (steps.map (·.call)) fd)) ↔
      fd ≠ 0 ∧ (OpenOnMali (steps.map (·.call)) fd ↔ NewestOnMali (steps.map (·.call)) fd) := by
  obtain ⟨-, hnewest⟩ := hrun.maliFd_iff hkernel
  by_cases hfd : fd = 0
  · -- `ioctl` decodes calls on 0, and `mmap` takes it for no device
    have hdecode : OnDecodingPath w.maliFd fd := fun h => h.1 hfd
    have htrack : ¬OnTrackingPath w.maliFd fd := fun h => h (by omega)
    tauto
  · have hdecode : OnDecodingPath w.maliFd fd ↔ w.maliFd = fd := by
      unfold OnDecodingPath
      omega
    have htrack : OnTrackingPath w.maliFd fd ↔ w.maliFd = fd := by
      unfold OnTrackingPath
      omega
    rw [hdecode, htrack, hnewest fd hfd]
    tauto

theorem interposers_agree_on_device_opened_once :
    ∃ steps w, Run World.plain steps w ∧ steps.map (·.call) = [openMali] ∧
      (OnDecodingPath w.maliFd 3 ↔ OnTrackingPath w.maliFd 3) ∧
      (OnTrackingPath w.maliFd 3 ↔ OpenOnMali (steps.map (·.call)) 3) := by
  obtain ⟨steps, w, hrun, hcalls⟩ := @Run.of_calls _ World.plain [openMali]
    (fun r => r.1.map (·.call)) [openMali] rfl
  have hkernel : ∀ call ∈ steps.map (·.call), call.KernelAnswers := by
    simp [hcalls, openMali, Call.KernelAnswers]
  have hagree := interposers_agree_on_device false true (fun _ => ⟨0, 0⟩) hrun hkernel 3
  have hopens : openMali.OpensMali 3 := ⟨rfl, by decide, rfl⟩
  have hopen : OpenOnMali [openMali] 3 := ⟨[], openMali, [], rfl, hopens, by simp⟩
  have hnewest : NewestOnMali [openMali] 3 := ⟨[], openMali, [], rfl, hopens, by simp⟩
  rw [hcalls] at hagree
  refine ⟨steps, w, hrun, hcalls, ?_⟩
  rw [hcalls]
  exact hagree.mpr ⟨by decide, iff_of_true hopen hnewest⟩

/-- The device is opened as 3 and as 4. Calls of `ioctl` on the standard input are decoded, and
the first descriptor is taken for another device. -/
theorem interposers_disagree_after_second_open :
    ∃ steps w, Run World.plain steps w ∧ (∀ call ∈ steps.map (·.call), call.KernelAnswers) ∧
      (OnDecodingPath w.maliFd 0 ∧ ¬OnTrackingPath w.maliFd 0) ∧
      OpenOnMali (steps.map (·.call)) 3 ∧ ¬OnDecodingPath w.maliFd 3 ∧
        ¬OnTrackingPath w.maliFd 3 := by
  let again : Call := .open .open "/dev/mali0" 2 0 4
  obtain ⟨steps, w, hrun, hresult⟩ := @Run.of_calls _ World.plain [openMali, again]
    (fun r => (r.1.map (·.call), r.2.maliFd)) ([openMali, again], 4) rfl
  obtain ⟨hcalls, hfd⟩ := Prod.mk.inj hresult
  refine ⟨steps, w, hrun, ?_, ?_, ?_, ?_, ?_⟩
  · simp [hcalls, openMali, again, Call.KernelAnswers]
  · rw [hfd]
    decide
  · rw [hcalls]
    refine ⟨[], openMali, [again], rfl, ⟨rfl, by decide, rfl⟩, ?_⟩
    simp [again, Call.Releases]
  · rw [hfd]
    decide
  · rw [hfd]
    decide

end Panloader
