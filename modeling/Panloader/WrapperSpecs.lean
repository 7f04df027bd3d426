import Panloader.QuietDecoders
import Panloader.TrackerSpecs

/-! One specification for every overridden function: its value, the real call it makes, and
what it does to the tracker and the rest of the wrapper's state. -/
namespace Panloader
open Effects

/-- The allocation record `ioctl_decode_post_mem_alloc` reads out of the argument at `ptr`. -/
def memAllocRecord (mem : Memory) (ptr : U64) : PanwrapAllocatedMemory where
  gpuVa := mem.read (ptr + 40) 8
  flags := (mem.read (ptr + 32) 8).setWidth 32

/-- The request is dispatched as `MALI_IOCTL_MEM_ALLOC`. -/
def IsMemAlloc (request : U32) : Prop :=
  ioctlCase (widenRequest request) = ioctlCase maliIoctlMemAlloc

instance (request : U32) : Decidable (IsMemAlloc request) := by
  unfold IsMemAlloc
  infer_instance

/-- `ioctl` does not forward `fd` at once. -/
def OnDecodingPath (maliFd fd : ℤ) : Prop := ¬(fd ≠ 0 ∧ fd ≠ maliFd)

instance (maliFd fd : ℤ) : Decidable (OnDecodingPath maliFd fd) := by
  unfold OnDecodingPath
  infer_instance

/-- `panwrap_mmap_wrap` tracks a mapping of `fd`. -/
def OnTrackingPath (maliFd fd : ℤ) : Prop := ¬(maliFd = 0 ∨ fd ≠ maliFd)

instance (maliFd fd : ℤ) : Decidable (OnTrackingPath maliFd fd) := by
  unfold OnTrackingPath
  infer_instance

def Call.trackEvent (maliFd : ℤ) : Call → Option TrackEvent
  | .ioctl fd request arg env =>
    if OnDecodingPath maliFd fd ∧ ioctlPtr request arg env.junk ≠ 0 ∧ IsMemAlloc request then
      some (.record (memAllocRecord env.after (ioctlPtr request arg env.junk)))
    else none
  | .mmap _ _ length prot _ fd offset ret =>
    if OnTrackingPath maliFd fd then some (.map offset ret length prot) else none
  | .munmap addr _ _ => some (.unmap addr)
  | _ => none

/-- The call of the real function that the wrapper makes. -/
def Call.forwarded : Call → RealCall
  | .open symbol path flags mode _ =>
    .open symbol path flags (if flags &&& oCreat ≠ 0 then some mode else none)
  | .close fd _ => .close fd
  | .ioctl fd request arg env => .ioctl fd request (ioctlPtr request arg env.junk)
  | .mmap symbol addr length prot flags fd offset _ => .mmap symbol addr length prot flags fd offset
  | .munmap addr length _ => .munmap addr length

/-- What the real function returns. -/
def Call.answer : Call → Value
  | .open _ _ _ _ ret => .int ret
  | .close _ ret => .int ret
  | .ioctl _ _ _ env => .int env.ret
  | .mmap _ _ _ _ _ _ _ ret => .ptr ret
  | .munmap _ _ ret => .int ret

/-- The state after a stretch that froze time, unfroze it and released the lock. -/
def Stage.released (st : Stage) : Stage :=
  { st with locked := false, frozen := !st.timestamps && st.frozen }

/-- The state in which a call leaves the wrapper. -/
def Call.stageAfter (st : Stage) : Call → Stage
  | .open _ path _ _ ret =>
    { st with
      locked := false
      maliFd := if ret ≠ -1 ∧ path = "/dev/mali0" then ret else st.maliFd }
  | .close fd _ =>
    if fd ≤ 0 ∨ st.maliFd = 0 ∨ fd ≠ st.maliFd then st else { st with locked := false, maliFd := 0 }
  | .ioctl fd request arg env =>
    if OnDecodingPath st.maliFd fd then
      { st.released with
        mem := env.after
        tracker :=
          st.tracker.applyOption ((Call.ioctl fd request arg env).trackEvent st.maliFd) }
    else { st with mem := env.after }
  | .mmap symbol addr length prot flags fd offset ret =>
    if OnTrackingPath st.maliFd fd then
      { st.released with
        tracker := st.tracker.applyOption
          ((Call.mmap symbol addr length prot flags fd offset ret).trackEvent st.maliFd) }
    else st
  | .munmap addr _ _ => { st.released with tracker := st.tracker.delMapping addr }

section Statements

variable {α : Type} {w₀ : World} {st : Stage} {calls : List RealCall} {top c r : ℕ}

theorem lock_ensures : Ensures (At w₀ st calls top c r) lock
    (fun _ => At w₀ { st with locked := true } calls top c r) (fun _ => Stopped w₀ top) := by
  intro w hw
  unfold lock
  by_cases hl : w.locked = true
  · rw [if_pos hl]
    exact ⟨calls, hw.since⟩
  · rw [if_neg hl]
    exact ⟨by rw [← hw.stage]; rfl, hw.indent, hw.room, hw.since⟩

theorem unlock_ensures : Ensures (At w₀ st calls top c r) unlock
    (fun _ => At w₀ { st with locked := false } calls top c r) (fun _ => Stopped w₀ top) :=
  fun _ hw => ⟨by rw [← hw.stage]; rfl, hw.indent, hw.room, hw.since⟩

theorem panwrapFreezeTime_ensures : Ensures (At w₀ st calls top c r) panwrapFreezeTime
    (fun _ => At w₀ { st with frozen := st.timestamps || st.frozen } calls top c r)
    (fun _ => Stopped w₀ top) := by
  intro w hw
  have hs : w.time.enableTimestamps = st.timestamps := by rw [← hw.stage]; rfl
  unfold panwrapFreezeTime
  rw [hs]
  cases ht : st.timestamps
  case' false => refine ⟨?_, hw.indent, hw.room, hw.since⟩
  case' true => refine ⟨?_, hw.indent, hw.room, hw.since.emit _ rfl rfl⟩
  all_goals
    rw [← hw.stage] at ht ⊢
    simp only [World.stage] at ht
    simp [World.stage, TimeState.freeze, ht, World.emit]

theorem panwrapUnfreezeTime_ensures : Ensures (At w₀ st calls top c r) panwrapUnfreezeTime
    (fun _ => At w₀ { st with frozen := !st.timestamps && st.frozen } calls top c r)
    (fun _ => Stopped w₀ top) := by
  intro w hw
  have hs : w.time.enableTimestamps = st.timestamps := by rw [← hw.stage]; rfl
  have hf : w.time.timeIsFrozen = st.frozen := by rw [← hw.stage]; rfl
  unfold panwrapUnfreezeTime
  rw [hs, hf]
  cases ht : st.timestamps <;> cases hz : st.frozen
  -- the clock is read where time was frozen
  case' true.true => refine ⟨?_, hw.indent, hw.room, hw.since.emit _ rfl rfl⟩
  case' false.false | false.true | true.false => refine ⟨?_, hw.indent, hw.room, hw.since⟩
  all_goals
    rw [← hw.stage] at ht hz ⊢
    simp only [World.stage] at ht hz
    simp [World.stage, TimeState.unfreeze, ht, hz, World.emit]

theorem maliFd_ensures : Ensures (At w₀ st calls top c r) maliFd
    (fun fd w => fd = st.maliFd ∧ At w₀ st calls top c r w) (fun _ => Stopped w₀ top) :=
  fun _ hw => ⟨by rw [← hw.stage]; rfl, hw⟩

theorem tracker_ensures : Ensures (At w₀ st calls top c r) tracker
    (fun t w => t = st.tracker ∧ At w₀ st calls top c r w) (fun _ => Stopped w₀ top) :=
  fun _ hw => ⟨by rw [← hw.stage]; rfl, hw⟩

theorem load64_ensures (a : U64) : Ensures (At w₀ st calls top c r) (load64 a)
    (fun v w => v = st.mem.read a 8 ∧ At w₀ st calls top c r w) (fun _ => Stopped w₀ top) :=
  fun _ hw => ⟨by rw [← hw.stage]; rfl, hw.stage, hw.indent, hw.room, hw.since.emit _ rfl rfl⟩

theorem setMaliFd_ensures (fd : ℤ) : Ensures (At w₀ st calls top c r) (setMaliFd fd)
    (fun _ => At w₀ { st with maliFd := fd } calls top c r) (fun _ => Stopped w₀ top) :=
  fun _ hw => ⟨by rw [← hw.stage]; rfl, hw.indent, hw.room, hw.since⟩

theorem setMem_ensures (mem : Memory) : Ensures (At w₀ st calls top c r) (setMem mem)
    (fun _ => At w₀ { st with mem := mem } calls top c r) (fun _ => Stopped w₀ top) :=
  fun _ hw => ⟨by rw [← hw.stage]; rfl, hw.indent, hw.room, hw.since⟩

theorem setTracker_ensures (t : Tracker) : Ensures (At w₀ st calls top c r) (setTracker t)
    (fun _ => At w₀ { st with tracker := t } calls top c r) (fun _ => Stopped w₀ top) :=
  fun _ hw => ⟨by rw [← hw.stage]; rfl, hw.indent, hw.room, hw.since⟩

theorem orig_ensures (call : RealCall) (ret : α) : Ensures (At w₀ st calls top c r) (orig call ret)
    (fun a w => a = ret ∧ At w₀ st (calls ++ [call]) top c r w) (fun _ => Stopped w₀ top) := by
  intro w hw
  obtain ⟨es, htrace, hcalls, hlevels⟩ := hw.since
  refine ⟨rfl, hw.stage, hw.indent, hw.room, es ++ [.real call], ?_, ?_, ?_⟩
  · simp only [World.emit, htrace, List.append_assoc]
  · rw [realCalls, List.filterMap_append, ← realCalls, hcalls]
    rfl
  · rw [levels, List.filterMap_append, ← levels]
    exact fun h0 v hv => hlevels h0 v (by simpa [Event.level?] using hv)

/-- A quiet first part. -/
theorem Quiet.seq {β : Type} {d s : ℕ} {m : Wrap α} {f : α → Wrap β} {R : β → World → Prop}
    [hm : Quiet c r d s m]
    (hf : ∀ a, Ensures (At w₀ st calls top d s) (f a) R (fun _ => Stopped w₀ top)) :
    Ensures (At w₀ st calls top c r) (m >>= f) R (fun _ => Stopped w₀ top) :=
  (hm.ensures w₀ st calls top).bind hf

/-- A quiet statement with the value of a rule's first part. -/
theorem Quiet.rule {d s : ℕ} {m : Wrap α} [hm : Quiet c r d s m] :
    Ensures (At w₀ st calls top c r) m (fun _ => At w₀ st calls top d s)
      (fun _ => Stopped w₀ top) :=
  hm.ensures w₀ st calls top

theorem panwrapTrackAllocation_ensures (addr : U64) (flags : U32) :
    Ensures (At w₀ st calls top c r) (panwrapTrackAllocation addr flags)
      (fun _ => At w₀ { st with tracker := st.tracker.addAllocation ⟨addr, flags⟩ } calls top c r)
      (fun _ => Stopped w₀ top) := by
  unfold panwrapTrackAllocation
  exact Quiet.seq fun _ => tracker_ensures.bind_eq (setTracker_ensures _)

theorem ioctlDecodePostMemAlloc_ensures (ptr : U64) :
    Ensures (At w₀ st calls top c r) (ioctlDecodePostMemAlloc ptr)
      (fun _ => At w₀ { st with tracker := st.tracker.addAllocation (memAllocRecord st.mem ptr) }
        calls top c r) (fun _ => Stopped w₀ top) := by
  unfold ioctlDecodePostMemAlloc
  refine Quiet.seq fun _ => Quiet.seq fun _ => Quiet.seq fun _ => Quiet.seq fun _ => ?_
  exact (load64_ensures _).bind_eq ((load64_ensures _).bind_eq
    (panwrapTrackAllocation_ensures _ _))

theorem ioctlDecodePost_memAlloc {request : U64} (ptr : U64)
    (h : ioctlCase request = ioctlCase maliIoctlMemAlloc) :
    ioctlDecodePost request ptr = ioctlDecodePostMemAlloc ptr := by
  -- the one case before it in the switch is another request
  have hv : ¬(ioctlCase maliIoctlMemAlloc = ioctlCase maliIoctlGetVersion ∨
      ioctlCase maliIoctlMemAlloc = ioctlCase maliIoctlGetVersionNew) := by decide
  unfold ioctlDecodePost
  dsimp only
  rw [h, if_neg hv, if_pos rfl]

theorem quiet_ioctlDecodePost {request : U64} (ptr : U64)
    (h : ioctlCase request ≠ ioctlCase maliIoctlMemAlloc) :
    Quiet c (r+2) c (r+2) (ioctlDecodePost request ptr) := by
  unfold ioctlDecodePost ioctlDecodePostGetVersion ioctlDecodePostMemImport
    ioctlDecodePostMemCommit ioctlDecodePostMemQuery ioctlDecodePostMemAlias
    ioctlDecodePostStreamCreate ioctlDecodePostGetContextId
  dsimp only
  rw [if_neg h]
  infer_instance

theorem ioctlDecodePost_ensures (request : U32) (ptr : U64) :
    Ensures (At w₀ st calls top c (r+2)) (ioctlDecodePost (widenRequest request) ptr)
      (fun _ => At w₀ { st with
          tracker := st.tracker.applyOption
            (if IsMemAlloc request then some (.record (memAllocRecord st.mem ptr)) else none) }
        calls top c (r+2)) (fun _ => Stopped w₀ top) := by
  by_cases h : IsMemAlloc request
  · rw [ioctlDecodePost_memAlloc ptr h, if_pos h]
    exact ioctlDecodePostMemAlloc_ensures ptr
  · have hq : Quiet c (r+2) c (r+2) (ioctlDecodePost (widenRequest request) ptr) :=
      quiet_ioctlDecodePost ptr h
    rw [if_neg h]
    exact hq.ensures w₀ st calls top

theorem panwrapTrackMmap_ensures (gpuVa addr length : U64) (prot flags : U32) :
    Ensures (At w₀ st calls top c r) (panwrapTrackMmap gpuVa addr length prot flags)
      (fun _ => At w₀ { st with tracker := st.tracker.apply (.map gpuVa addr length prot) }
        calls top c r) (fun _ => Stopped w₀ top) := by
  unfold panwrapTrackMmap
  refine tracker_ensures.bind_eq ?_
  cases h : st.tracker.pendingAllocation gpuVa with
  | none =>
    have hq : Quiet c r c r (logUntrackedMmap gpuVa addr prot flags) := by
      unfold logUntrackedMmap
      infer_instance
    simpa only [Tracker.apply, h] using hq.ensures w₀ st calls top
  | some mem =>
    simp only [Tracker.apply, h]
    exact (setTracker_ensures _).bind fun _ => Quiet.rule

theorem noteOpened_ensures (path : String) (ret : ℤ) :
    Ensures (At w₀ st calls top c r) (noteOpened path ret)
      (fun _ => At w₀ { st with maliFd := if path = "/dev/mali0" then ret else st.maliFd }
        calls top c r) (fun _ => Stopped w₀ top) := by
  unfold noteOpened
  by_cases hp : path = "/dev/mali0"
  · rw [if_pos hp, if_pos hp]
    exact Quiet.seq fun _ => setMaliFd_ensures ret
  · rw [if_neg hp, if_neg hp]
    exact Quiet.rule

theorem noteClosed_ensures (fd : ℤ) :
    Ensures (At w₀ st calls top c r) (noteClosed fd)
      (fun _ => At w₀ { st with maliFd := if st.maliFd ≠ 0 ∧ fd = st.maliFd then 0 else st.maliFd }
        calls top c r) (fun _ => Stopped w₀ top) := by
  unfold noteClosed
  refine maliFd_ensures.bind_eq ?_
  by_cases hf : st.maliFd ≠ 0 ∧ fd = st.maliFd
  · rw [if_pos hf, if_pos hf]
    exact Quiet.seq fun _ => setMaliFd_ensures 0
  · rw [if_neg hf, if_neg hf]
    exact Quiet.rule

theorem untrackMunmap_ensures (addr : U64) :
    Ensures (At w₀ st calls top c r)
      (untrackMunmap addr (panwrapFindMappedMem st.tracker.mmaps addr))
      (fun _ => At w₀ { st with tracker := st.tracker.delMapping addr } calls top c r)
      (fun _ => Stopped w₀ top) := by
  cases h : panwrapFindMappedMem st.tracker.mmaps addr with
  | none =>
    rw [Tracker.delMapping_of_not_found h]
    exact Ensures.pure ()
  | some mem => exact Quiet.seq fun _ => tracker_ensures.bind_eq (setTracker_ensures _)

/-- `munmap` has a copy of this function, which does the same to the tables. -/
theorem panwrapTrackMunmap_ensures (addr : U64) :
    Ensures (At w₀ st calls top c r) (panwrapTrackMunmap addr)
      (fun _ => At w₀ { st with tracker := st.tracker.delMapping addr } calls top c r)
      (fun _ => Stopped w₀ top) := by
  unfold panwrapTrackMunmap
  refine tracker_ensures.bind_eq ?_
  cases h : panwrapFindMappedMem st.tracker.mmaps addr with
  | none =>
    rw [Tracker.delMapping_of_not_found h]
    exact Quiet.rule
  | some mem => exact (setTracker_ensures _).bind fun _ => Quiet.rule

theorem origIoctl_ensures (fd : ℤ) (request : U32) (ptr : U64) (env : IoctlEnv) :
    Ensures (At w₀ st calls top c r) (origIoctl fd request ptr env)
      (fun v w => v = env.ret ∧ At w₀ { st with mem := env.after }
        (calls ++ [.ioctl fd request ptr]) top c r w) (fun _ => Stopped w₀ top) :=
  (orig_ensures _ _).bind_eq ((setMem_ensures _).bind fun _ _ hw => ⟨rfl, hw⟩)

/-- Unfreezing and freezing again is freezing. -/
theorem frozen_again (timestamps frozen : Bool) :
    (timestamps || (!timestamps && frozen)) = (timestamps || frozen) := by
  cases timestamps <;> rfl

theorem ioctlNoArguments_ensures (fd : ℤ) (request : U32) (env : IoctlEnv) :
    Ensures (At w₀ st calls top c (r+1)) (ioctlNoArguments fd request env)
      (fun v w => v = env.ret ∧
        At w₀ { st with mem := env.after, frozen := st.timestamps || st.frozen }
          (calls ++ [.ioctl fd request 0]) top c (r+1) w) (fun _ => Stopped w₀ top) := by
  unfold ioctlNoArguments
  refine Quiet.seq fun _ => panwrapUnfreezeTime_ensures.bind fun _ => ?_
  refine (origIoctl_ensures fd request 0 env).bind_eq (panwrapFreezeTime_ensures.bind fun _ => ?_)
  refine Quiet.seq fun _ => Quiet.seq fun _ => Quiet.seq fun _ => ?_
  rw [frozen_again]
  exact fun _ hw => ⟨rfl, hw⟩

theorem ioctlDecoded_ensures (fd : ℤ) (request : U32) (ptr : U64) (env : IoctlEnv) :
    Ensures (At w₀ st calls top c (r+8)) (ioctlDecoded fd request ptr env)
      (fun v w => v = env.ret ∧
        At w₀ { st with
          mem := env.after
          frozen := st.timestamps || st.frozen
          tracker := st.tracker.applyOption
            (if IsMemAlloc request then some (.record (memAllocRecord env.after ptr)) else none) }
          (calls ++ [.ioctl fd request ptr]) top c (r+8) w) (fun _ => Stopped w₀ top) := by
  unfold ioctlDecoded
  refine Quiet.seq fun _ => Quiet.seq fun _ => Quiet.seq fun _ => Quiet.seq fun _ => ?_
  -- time runs during the real call only
  refine panwrapUnfreezeTime_ensures.bind fun _ => ?_
  refine (origIoctl_ensures fd request ptr env).bind_eq (panwrapFreezeTime_ensures.bind fun _ => ?_)
  refine Quiet.seq fun _ => Quiet.seq fun _ => ?_
  refine (ioctlDecodePost_ensures request ptr).bind fun _ => Quiet.seq fun _ => ?_
  rw [frozen_again]
  exact fun _ hw => ⟨rfl, hw⟩

theorem panwrapOpenWrap_ensures (symbol : OpenSymbol) (path : String) (flags mode : U32) (ret : ℤ) :
    Ensures (At w₀ st calls top c r) (panwrapOpenWrap symbol path flags mode ret)
      (fun v w => v = ret ∧
        At w₀ ((Call.open symbol path flags mode ret).stageAfter st)
          (calls ++ [(Call.open symbol path flags mode ret).forwarded]) top c r w)
      (fun _ => Stopped w₀ top) := by
  unfold panwrapOpenWrap
  refine (orig_ensures _ ret).bind_eq (lock_ensures.bind fun _ => ?_)
  by_cases hret : ret ≠ -1
  · rw [if_pos hret]
    refine (noteOpened_ensures path ret).bind fun _ => unlock_ensures.bind fun _ => ?_
    simp only [Call.stageAfter, hret, true_and, ne_eq, not_false_eq_true]
    exact fun _ hw => ⟨rfl, hw⟩
  · rw [if_neg hret]
    refine Quiet.seq fun _ => unlock_ensures.bind fun _ => ?_
    simp only [Call.stageAfter, hret, false_and, if_false]
    exact fun _ hw => ⟨rfl, hw⟩

theorem close_ensures (fd ret : ℤ) :
    Ensures (At w₀ st calls top c r) (Panloader.close fd ret)
      (fun v w => v = ret ∧
        At w₀ ((Call.close fd ret).stageAfter st) (calls ++ [(Call.close fd ret).forwarded])
          top c r w) (fun _ => Stopped w₀ top) := by
  unfold Panloader.close
  refine maliFd_ensures.bind_eq ?_
  by_cases hfd : fd ≤ 0 ∨ st.maliFd = 0 ∨ fd ≠ st.maliFd
  · simp only [Call.stageAfter, if_pos hfd]
    exact orig_ensures _ ret
  · have hmali : st.maliFd ≠ 0 ∧ fd = st.maliFd := by
      constructor
      · exact fun h => hfd (.inr (.inl h))
      · exact Decidable.not_not.mp fun h => hfd (.inr (.inr h))
    simp only [Call.stageAfter, if_neg hfd]
    -- the test under the lock is the one that was passed before it
    refine lock_ensures.bind fun _ => (noteClosed_ensures fd).bind fun _ => ?_
    rw [if_pos hmali]
    exact unlock_ensures.bind fun _ => orig_ensures _ ret

theorem unfrozen_once (timestamps frozen : Bool) :
    (!timestamps && (timestamps || frozen)) = (!timestamps && frozen) := by
  cases timestamps <;> rfl

/-- Freezing twice and unfreezing once is unfreezing. -/
theorem unfrozen_again (timestamps frozen : Bool) :
    (!timestamps && (timestamps || (timestamps || frozen))) = (!timestamps && frozen) := by
  cases timestamps <;> rfl

/-- The two branches of `ioctl` that hold the lock. -/
theorem ioctlBody_ensures (fd : ℤ) (request : U32) (ptr : U64) (env : IoctlEnv) :
    Ensures (At w₀ st calls top c (r+8))
      (if ptr = 0 then ioctlNoArguments fd request env else ioctlDecoded fd request ptr env)
      (fun v w => v = env.ret ∧
        At w₀ { st with
          mem := env.after
          frozen := st.timestamps || st.frozen
          tracker := st.tracker.applyOption
            (if ptr ≠ 0 ∧ IsMemAlloc request then some (.record (memAllocRecord env.after ptr))
              else none) }
          (calls ++ [.ioctl fd request ptr]) top c (r+8) w) (fun _ => Stopped w₀ top) := by
  by_cases hp : ptr = 0
  · subst hp
    rw [if_pos rfl, if_neg (fun h => h.1 rfl)]
    exact ioctlNoArguments_ensures fd request env
  · simp only [hp, if_false, ne_eq, not_false_eq_true, true_and]
    exact ioctlDecoded_ensures fd request ptr env

theorem ioctl_ensures (fd : ℤ) (request : U32) (arg : Option U64) (env : IoctlEnv) :
    Ensures (At w₀ st calls top c (r+8)) (Panloader.ioctl fd request arg env)
      (fun v w => v = env.ret ∧
        At w₀ ((Call.ioctl fd request arg env).stageAfter st)
          (calls ++ [(Call.ioctl fd request arg env).forwarded]) top c (r+8) w)
      (fun _ => Stopped w₀ top) := by
  unfold Panloader.ioctl
  refine (setMem_ensures env.before).bind fun _ => maliFd_ensures.bind_eq ?_
  by_cases hfd : fd ≠ 0 ∧ fd ≠ st.maliFd
  -- another descriptor: the call is forwarded at once
  · have hpath : ¬OnDecodingPath st.maliFd fd := fun h => h hfd
    simp only [Call.stageAfter, if_pos hfd, if_neg hpath]
    exact origIoctl_ensures fd request _ env
  · have hpath : OnDecodingPath st.maliFd fd := hfd
    -- the lock is held and time is frozen around the body
    simp only [Call.stageAfter, Call.trackEvent, if_neg hfd, true_and, hpath]
    refine lock_ensures.bind fun _ => panwrapFreezeTime_ensures.bind fun _ => ?_
    refine (lookUpName_ensures fun _ _ hw => ⟨_, hw.since⟩).bind fun _ => ?_
    refine (ioctlBody_ensures fd request _ env).bind_eq (panwrapUnfreezeTime_ensures.bind fun _ => ?_)
    refine unlock_ensures.bind fun _ => ?_
    rw [unfrozen_again]
    exact fun _ hw => ⟨rfl, hw⟩

theorem panwrapMmapWrap_ensures (symbol : MmapSymbol) (addr length : U64) (prot flags : U32) (fd : ℤ)
    (offset ret : U64) :
    Ensures (At w₀ st calls top c r) (panwrapMmapWrap symbol addr length prot flags fd offset ret)
      (fun v w => v = ret ∧
        At w₀ ((Call.mmap symbol addr length prot flags fd offset ret).stageAfter st)
          (calls ++ [(Call.mmap symbol addr length prot flags fd offset ret).forwarded]) top c r w)
      (fun _ => Stopped w₀ top) := by
  unfold panwrapMmapWrap
  refine maliFd_ensures.bind_eq ?_
  by_cases hfd : st.maliFd = 0 ∨ fd ≠ st.maliFd
  -- another descriptor: the call is forwarded without the lock
  · have hpath : ¬OnTrackingPath st.maliFd fd := fun h => h hfd
    simp only [Call.stageAfter, if_pos hfd, if_neg hpath]
    exact orig_ensures _ ret
  · have hpath : OnTrackingPath st.maliFd fd := hfd
    simp only [Call.stageAfter, Call.trackEvent, if_neg hfd, if_pos hpath]
    refine lock_ensures.bind fun _ => (orig_ensures _ ret).bind_eq ?_
    refine panwrapFreezeTime_ensures.bind fun _ => ?_
    refine (panwrapTrackMmap_ensures offset ret length prot flags).bind fun _ => ?_
    refine panwrapUnfreezeTime_ensures.bind fun _ => unlock_ensures.bind fun _ => ?_
    rw [unfrozen_once]
    exact fun _ hw => ⟨rfl, hw⟩

theorem munmap_ensures (addr length : U64) (ret : ℤ) :
    Ensures (At w₀ st calls top c r) (Panloader.munmap addr length ret)
      (fun v w => v = ret ∧
        At w₀ ((Call.munmap addr length ret).stageAfter st)
          (calls ++ [(Call.munmap addr length ret).forwarded]) top c r w)
      (fun _ => Stopped w₀ top) := by
  unfold Panloader.munmap
  refine lock_ensures.bind fun _ => (orig_ensures _ ret).bind_eq ?_
  refine panwrapFreezeTime_ensures.bind fun _ => tracker_ensures.bind_eq ?_
  refine (untrackMunmap_ensures addr).bind fun _ => ?_
  refine panwrapUnfreezeTime_ensures.bind fun _ => unlock_ensures.bind fun _ => ?_
  simp only [unfrozen_once]
  exact fun _ hw => ⟨rfl, hw⟩

end Statements

/-- Levels of indentation that any call needs. -/
def indentBound : ℕ := 8

/-- The specification of a wrapper as one of the call that goes to it, whose answer is `f ret`. -/
theorem Ensures.answered {α : Type} {m : Wrap α} {w₀ : World} {ret : α} {st : Stage}
    {calls : List RealCall} (f : α → Value)
    (hm : Ensures (At w₀ w₀.stage [] indentBound 0 indentBound) m
      (fun v w => v = ret ∧ At w₀ st calls indentBound 0 indentBound w)
      (fun _ => Stopped w₀ indentBound)) :
    Ensures (fun w => w = w₀) (f <$> m)
      (fun v w => v = f ret ∧ At w₀ st calls indentBound 0 indentBound w)
      (fun _ => Stopped w₀ indentBound) := by
  have hvalue := hm.mono (fun v w hv => And.intro (congrArg f hv.1) hv.2) fun _ _ h => h
  apply Ensures.map f
  intro w hw
  rw [hw]
  exact hvalue w₀ (At.start w₀ indentBound)

/-- What a call does: it answers what the real function returned after calling that function
once, and leaves the wrapper in `stageAfter`, at the indent where it began. -/
theorem Call.exec_ensures (w₀ : World) (call : Call) :
    Ensures (fun w => w = w₀) call.exec
      (fun v w => v = call.answer ∧
        At w₀ (call.stageAfter w₀.stage) [call.forwarded] indentBound 0 indentBound w)
      (fun _ => Stopped w₀ indentBound) := by
  cases call with
  | «open» symbol path flags mode ret =>
    exact Ensures.answered Value.int (panwrapOpenWrap_ensures symbol path flags mode ret)
  | close fd ret => exact Ensures.answered Value.int (close_ensures fd ret)
  | ioctl fd request arg env =>
    exact Ensures.answered Value.int (ioctl_ensures (r := 0) fd request arg env)
  | mmap symbol addr length prot flags fd offset ret =>
    exact Ensures.answered Value.ptr
      (panwrapMmapWrap_ensures symbol addr length prot flags fd offset ret)
  | munmap addr length ret => exact Ensures.answered Value.int (munmap_ensures addr length ret)

/-- Every wrapper updates the tracker by what its call asks of it, and by nothing else. -/
theorem Call.stageAfter_tracker (st : Stage) (call : Call) :
    (call.stageAfter st).tracker = st.tracker.applyOption (call.trackEvent st.maliFd) := by
  cases call with
  | «open» symbol path flags mode ret => rfl
  | close fd ret =>
    by_cases h : fd ≤ 0 ∨ st.maliFd = 0 ∨ fd ≠ st.maliFd
    · rw [Call.stageAfter, if_pos h]
      rfl
    · rw [Call.stageAfter, if_neg h]
      rfl
  | ioctl fd request arg env =>
    by_cases h : OnDecodingPath st.maliFd fd
    · rw [Call.stageAfter, if_pos h]
    · rw [Call.stageAfter, if_neg h, Call.trackEvent, if_neg (fun hc => h hc.1)]
      rfl
  | mmap symbol addr length prot flags fd offset ret =>
    by_cases h : OnTrackingPath st.maliFd fd
    · rw [Call.stageAfter, if_pos h]
    · rw [Call.stageAfter, if_neg h, Call.trackEvent, if_neg h]
      rfl
  | munmap addr length ret => rfl

/-- No call leaves the lock taken or time frozen. -/
theorem Call.stageAfter_released {st : Stage} (call : Call) (hl : st.locked = false)
    (hf : st.frozen = false) :
    (call.stageAfter st).locked = false ∧ (call.stageAfter st).frozen = false := by
  have hr : st.released.frozen = false := by simp only [Stage.released, hf, Bool.and_false]
  cases call with
  | «open» symbol path flags mode ret => exact ⟨rfl, hf⟩
  | close fd ret =>
    by_cases h : fd ≤ 0 ∨ st.maliFd = 0 ∨ fd ≠ st.maliFd
    · rw [Call.stageAfter, if_pos h]
      exact ⟨hl, hf⟩
    · rw [Call.stageAfter, if_neg h]
      exact ⟨rfl, hf⟩
  | ioctl fd request arg env =>
    by_cases h : OnDecodingPath st.maliFd fd
    · rw [Call.stageAfter, if_pos h]
      exact ⟨rfl, hr⟩
    · rw [Call.stageAfter, if_neg h]
      exact ⟨hl, hf⟩
  | mmap symbol addr length prot flags fd offset ret =>
    by_cases h : OnTrackingPath st.maliFd fd
    · rw [Call.stageAfter, if_pos h]
      exact ⟨rfl, hr⟩
    · rw [Call.stageAfter, if_neg h]
      exact ⟨hl, hf⟩
  | munmap addr length ret => exact ⟨rfl, hr⟩

section Returns

variable {w w' : World} {call : Call} {v : Value}

theorem Call.exec_ok (h : call.exec w = .ok v w') :
    v = call.answer ∧ At w (call.stageAfter w.stage) [call.forwarded] indentBound 0 indentBound w' :=
  (Call.exec_ensures w call).ok rfl h

theorem Call.exec_tracker (h : call.exec w = .ok v w') :
    w'.tracker = w.tracker.applyOption (call.trackEvent w.maliFd) := by
  have hs : w'.stage = call.stageAfter w.stage := (Call.exec_ok h).2.stage
  calc w'.tracker = w'.stage.tracker := rfl
    _ = (call.stageAfter w.stage).tracker := by rw [hs]
    _ = w.tracker.applyOption (call.trackEvent w.maliFd) := call.stageAfter_tracker w.stage

end Returns
end Panloader
