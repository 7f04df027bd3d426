import Panloader.Interleavings
import Panloader.PlainPrograms

/-! What holds of the parts of calls that hold the mutex, from what holds while time runs and what
while it is frozen. -/
namespace Panloader
open Effects LockedSections

/-- `P` holds while time runs and `Q` while it is frozen; `E` is left where a call ends
everything. -/
structure Phases (P Q E : World → Prop) : Prop where
  freeze : Ensures P panwrapFreezeTime (fun _ => Q) (fun _ => E)
  unfreeze : Ensures Q panwrapUnfreezeTime (fun _ => P) (fun _ => E)
  decode : Stable Q
  left : ∀ w, Q w → E w
  real : ∀ w call, P w → P (w.emit (.real call))
  memory : ∀ w mem, P w → P { w with mem := mem }

/-- What else `open` and `close` do under the mutex. -/
structure DevicePhases (P Q E : World → Prop) : Prop extends Phases P Q E where
  log : ∀ format args, Ensures P (panwrapLog format args) (fun _ => P) (fun _ => E)
  device : ∀ w fd, P w → P { w with maliFd := fd }

section Parts

variable {P Q E : World → Prop} (h : Phases P Q E)
include h

theorem Phases.plain {α : Type} {m : Wrap α} (hm : Plain m) :
    Ensures Q m (fun _ => Q) (fun _ => E) :=
  (hm.ensures h.decode).mono_error fun _ => h.left

theorem Phases.orig {α : Type} (call : RealCall) (ret : α) :
    Ensures P (Panloader.orig call ret) (fun _ => P) (fun _ => E) :=
  fun w hw => h.real w call hw

theorem Phases.origIoctl (fd : ℤ) (request : U32) (ptr : U64) (env : IoctlEnv) :
    Ensures P (Panloader.origIoctl fd request ptr env) (fun _ => P) (fun _ => E) := by
  apply (h.orig _ _).bind
  intro ret
  apply Ensures.bind (Q := fun _ => P)
  · exact fun w hw => h.memory w env.after hw
  · exact fun _ => Ensures.pure ret

/-- Time runs again around the real `ioctl`. -/
theorem Phases.ioctlNoArguments (fd : ℤ) (request : U32) (env : IoctlEnv) :
    Ensures Q (Panloader.ioctlNoArguments fd request env) (fun _ => Q) (fun _ => E) := by
  apply (h.plain (.log _ _)).bind
  intro _
  apply h.unfreeze.bind
  intro _
  apply (h.origIoctl fd request 0 env).bind
  intro ret
  apply h.freeze.bind
  intro _
  apply h.plain
  infer_instance

theorem Phases.ioctlDecoded (fd : ℤ) (request : U32) (ptr : U64) (env : IoctlEnv) :
    Ensures Q (Panloader.ioctlDecoded fd request ptr env) (fun _ => Q) (fun _ => E) := by
  apply (h.plain (plain_load32 ptr)).bind
  intro func
  apply (h.plain (.log _ _)).bind
  intro _
  apply (h.plain plain_indentIncr).bind
  intro _
  apply (h.plain (plain_ioctlDecodePre _ ptr)).bind
  intro _
  apply h.unfreeze.bind
  intro _
  apply (h.origIoctl fd request ptr env).bind
  intro ret
  apply h.freeze.bind
  intro _
  apply h.plain
  infer_instance

/-- What a call that is decoded does under the mutex begins and ends while time runs. -/
theorem Phases.underLock {call : Call} (hcall : call.Decodes) :
    Ensures P call.underLock (fun _ => P) (fun _ => E) := by
  cases call with
  | «open» | close => exact hcall.elim
  | ioctl fd request arg env =>
    apply Ensures.bind (Q := fun _ => P)
    · exact fun w hw => h.memory w env.before hw
    · intro _
      apply h.freeze.bind
      intro _
      apply (h.plain (plain_lookUpName request env)).bind
      intro _
      apply Ensures.bind (Q := fun _ => Q)
      · split_ifs
        · exact h.ioctlNoArguments fd request env
        · exact h.ioctlDecoded fd request _ env
      · exact fun _ => h.unfreeze
  | mmap symbol addr length prot flags fd offset ret =>
    apply (h.orig _ _).bind
    intro ret
    apply h.freeze.bind
    intro _
    apply (h.plain (plain_panwrapTrackMmap offset ret length prot flags)).bind
    exact fun _ => h.unfreeze
  | munmap addr length ret =>
    have huntrack (found : Option PanwrapMappedMemory) : Plain (untrackMunmap addr found) := by
      cases found <;> unfold untrackMunmap <;> infer_instance
    apply (h.orig _ _).bind
    intro _
    apply h.freeze.bind
    intro _
    apply (h.plain plain_tracker).bind
    intro t
    apply (h.plain (huntrack _)).bind
    exact fun _ => h.unfreeze

end Parts

section Device

variable {P Q E : World → Prop} (h : DevicePhases P Q E)
include h

theorem DevicePhases.setMaliFd (fd : ℤ) :
    Ensures P (Panloader.setMaliFd fd) (fun _ => P) (fun _ => E) :=
  fun w hw => h.device w fd hw

theorem DevicePhases.noteOpened (path : String) (ret : ℤ) :
    Ensures P (Panloader.noteOpened path ret) (fun _ => P) (fun _ => E) := by
  unfold Panloader.noteOpened
  split_ifs
  · exact (h.log _ _).bind fun _ => h.setMaliFd ret
  · exact h.log _ _
  · exact Ensures.pure ()

theorem DevicePhases.noteClosed (fd : ℤ) :
    Ensures P (Panloader.noteClosed fd) (fun _ => P) (fun _ => E) := by
  apply Ensures.bind (Q := fun _ => P)
  · exact fun _ hw => hw
  · intro mali
    split_ifs
    · exact (h.log _ _).bind fun _ => h.setMaliFd 0
    · exact Ensures.pure ()

theorem DevicePhases.underLock (call : Call) :
    Ensures P call.underLock (fun _ => P) (fun _ => E) := by
  cases call with
  | «open» symbol path flags mode ret =>
    rw [Call.underLock]
    split_ifs
    · exact h.noteOpened path ret
    · exact Ensures.pure ()
  | close fd ret => exact h.noteClosed fd
  | ioctl | mmap | munmap => exact h.toPhases.underLock trivial

/-- Where the mutex is free time runs, and where a call has ended everything `E` is left. -/
theorem DevicePhases.interleaving {τ : Type} [DecidableEq τ] {cut : Cut} {w : World}
    {calls : τ → List Call} {m : Machine τ Halt World Call RealCall} (hw : P w)
    (hreach : Reaches cut.steps (startThreads w calls) m) :
    (m.stopped = none → m.holder = none → P m.shared) ∧ (m.stopped ≠ none → E m.shared) := by
  have hkept : ∀ call s s', P s → (cut.steps call).run s = .ok () s' → P s' := by
    intro call s s' hs hrun
    rw [cut.run_steps] at hrun
    exact (h.underLock call).ok hs hrun
  constructor
  · intro hgo hfree
    exact inTurn_ok hkept hw (Reaches.inTurn_free hreach hgo hfree)
  · intro hstop
    obtain ⟨e, he⟩ := Option.ne_none_iff_exists'.mp hstop
    obtain ⟨before, last, s, -, hbefore, hlast⟩ := Reaches.stopped_last hreach he
    have hs := inTurn_ok hkept hw hbefore
    have hleft := h.underLock last s hs
    rw [← cut.run_steps, hlast] at hleft
    exact hleft

end Device

end Panloader
