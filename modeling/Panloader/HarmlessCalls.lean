import Panloader.Interleavings
import Panloader.JobChains

/-! Calls that nothing under the mutex can end or hold up: those whose decoders check nothing and
whose name is known. Threads that make only such calls come to their end in every order. -/
namespace Panloader
open Effects LockedSections

set_option synthInstance.maxSize 4000

/-- The requests whose decoders check what they find, or count past the end: a submission, a sync
and a dump of the GPU's properties. -/
def checkedRequests : List U64 := [maliIoctlJobSubmit, maliIoctlSync, maliIoctlGpuPropsRegDump]

/-- The request is none of these, and its name is known or can be printed. -/
def Call.Harmless : Call → Prop
  | .ioctl _ request _ env =>
    Named request env ∧ ioctlCase (widenRequest request) ∉ checkedRequests.map ioctlCase
  | _ => True

section Returning

variable {α : Type}

def Anywhere (_ : World) : Prop := True

instance (priority := low) total_anywhere {m : Wrap α} [h : ∀ t mem, Total (Sees t mem) m] :
    Total Anywhere m where
  ensures w _ := (h w.tracker w.mem).ensures.mono (fun _ _ _ => trivial) (fun _ _ he => he) w
    (Sees.self w)

instance total_maliFd {I : World → Prop} : Total I maliFd := ⟨fun _ hw => hw⟩
instance total_setMaliFd (fd : ℤ) : Total Anywhere (setMaliFd fd) := ⟨fun _ _ => trivial⟩
instance total_setMem (mem : Memory) : Total Anywhere (setMem mem) := ⟨fun _ _ => trivial⟩
instance total_tracker : Total Anywhere tracker := ⟨fun _ _ => trivial⟩
instance total_setTracker (t : Tracker) : Total Anywhere (setTracker t) := ⟨fun _ _ => trivial⟩
instance total_unlock : Total Anywhere unlock := ⟨fun _ _ => trivial⟩

instance total_orig (call : RealCall) (ret : α) : Total Anywhere (orig call ret) :=
  ⟨fun _ _ => trivial⟩

instance total_panwrapFreezeTime : Total Anywhere panwrapFreezeTime where
  ensures := panwrapFreezeTime_keeps fun _ _ _ _ _ _ => trivial

instance total_panwrapUnfreezeTime : Total Anywhere panwrapUnfreezeTime where
  ensures := panwrapUnfreezeTime_keeps fun _ _ _ _ _ _ => trivial

instance total_panwrapTrackAllocation (gpuVa : U64) (flags : U32) :
    Total Anywhere (panwrapTrackAllocation gpuVa flags) := by
  unfold panwrapTrackAllocation
  infer_instance

theorem total_ioctlDecodePre {request : U64} (h : ioctlCase request ∉ checkedRequests.map ioctlCase)
    (ptr : U64) : Total Anywhere (ioctlDecodePre request ptr) := by
  simp only [checkedRequests, List.map_cons, List.map_nil, List.mem_cons, not_or] at h
  obtain ⟨hsubmit, hsync, -⟩ := h
  simp only [ioctlDecodePre, if_neg hsubmit, if_neg hsync]
  simp only [ioctlDecodePreMemAlloc, ioctlDecodePreMemImport, ioctlDecodePreMemCommit,
    ioctlDecodePreMemQuery, ioctlDecodePreMemFree, ioctlDecodePreMemFlagsChange,
    ioctlDecodePreMemAlias, ioctlDecodePreSetFlags, ioctlDecodePreStreamCreate]
  infer_instance

theorem total_ioctlDecodePost {request : U64}
    (h : ioctlCase request ∉ checkedRequests.map ioctlCase) (ptr : U64) :
    Total Anywhere (ioctlDecodePost request ptr) := by
  simp only [checkedRequests, List.map_cons, List.map_nil, List.mem_cons, not_or] at h
  obtain ⟨-, hsync, hprops, -⟩ := h
  simp only [ioctlDecodePost, if_neg hsync, if_neg hprops]
  simp only [ioctlDecodePostGetVersion, ioctlDecodePostMemAlloc, ioctlDecodePostMemImport,
    ioctlDecodePostMemCommit, ioctlDecodePostMemQuery, ioctlDecodePostMemAlias,
    ioctlDecodePostStreamCreate, ioctlDecodePostGetContextId]
  infer_instance

instance total_panwrapTrackMmap (gpuVa addr length : U64) (prot flags : U32) :
    Total Anywhere (panwrapTrackMmap gpuVa addr length prot flags) := by
  unfold panwrapTrackMmap
  have htrack (mem : Option PanwrapAllocatedMemory) (t : Tracker) :
      Total Anywhere (match mem with
        | none => logUntrackedMmap gpuVa addr prot flags
        | some mem => do
          setTracker (t.addMapping gpuVa (mem.mapped gpuVa addr length prot))
          panwrapLog "GPU VA 0x%lx mapped to %p - %p (length == %zu)\n"
            [.u64 (mem.mapped gpuVa addr length prot).gpuVa, .u64 addr, .u64 (addr + length),
              .u64 length]) := by
    cases mem <;> unfold logUntrackedMmap <;> infer_instance
  exact total_bind

instance total_untrackMunmap (addr : U64) (mem : Option PanwrapMappedMemory) :
    Total Anywhere (untrackMunmap addr mem) := by
  cases mem <;> unfold untrackMunmap <;> infer_instance

instance total_noteOpened (path : String) (ret : ℤ) : Total Anywhere (noteOpened path ret) := by
  unfold noteOpened
  infer_instance

instance total_noteClosed (fd : ℤ) : Total Anywhere (noteClosed fd) := by
  unfold noteClosed
  infer_instance

instance total_origIoctl (fd : ℤ) (request : U32) (ptr : U64) (env : IoctlEnv) :
    Total Anywhere (origIoctl fd request ptr env) := by
  unfold origIoctl
  infer_instance

instance total_ioctlNoArguments (fd : ℤ) (request : U32) (env : IoctlEnv) :
    Total Anywhere (ioctlNoArguments fd request env) := by
  unfold ioctlNoArguments
  infer_instance

theorem total_ioctlDecoded {request : U32}
    (h : ioctlCase (widenRequest request) ∉ checkedRequests.map ioctlCase) (fd : ℤ) (ptr : U64)
    (env : IoctlEnv) : Total Anywhere (ioctlDecoded fd request ptr env) := by
  have hpre := total_ioctlDecodePre h
  have hpost := total_ioctlDecodePost h
  unfold ioctlDecoded
  infer_instance

theorem total_lookUpName {request : U32} {env : IoctlEnv} (h : Named request env) :
    Total Anywhere (lookUpName request env) := by
  rw [lookUpName_named h]
  infer_instance

/-- What a harmless call does with the mutex comes to its end. -/
theorem Call.Harmless.underLock {call : Call} (h : call.Harmless) :
    Total Anywhere call.underLock := by
  cases call with
  | ioctl fd request arg env =>
    have hname := total_lookUpName h.1
    have hdecoded := total_ioctlDecoded h.2 fd (ioctlPtr request arg env.junk) env
    rw [Call.underLock]
    infer_instance
  | «open» | close | mmap | munmap =>
    rw [Call.underLock]
    infer_instance

def Unlocked (w : World) : Prop := w.locked = false

/-- What a function does from `LOCK()` on. -/
theorem returns_lock {m : Wrap α} [hm : Total Anywhere m] :
    Ensures Unlocked (do lock; m) (fun _ _ => True) (fun _ _ => False) := by
  intro w hw
  have hfree : ¬w.locked = true := by
    rw [show w.locked = false from hw]
    exact Bool.false_ne_true
  have hlock : lock w = .ok () { w with locked := true } := if_neg hfree
  rw [bind_ok hlock]
  exact hm.ensures.mono (fun _ _ _ => trivial) (fun _ _ he => he) _ trivial

theorem returns_total {m : Wrap α} [hm : Total Anywhere m] :
    Ensures Unlocked m (fun _ _ => True) (fun _ _ => False) :=
  fun w _ => hm.ensures.mono (fun _ _ _ => trivial) (fun _ _ he => he) w trivial

instance unlocked_orig (real : RealCall) (ret : α) : Total Unlocked (orig real ret) :=
  ⟨fun _ hw => hw⟩

instance unlocked_setMem (mem : Memory) : Total Unlocked (setMem mem) := ⟨fun _ hw => hw⟩

theorem returns_seq {β : Type} {m : Wrap β} [hm : Total Unlocked m] {f : β → Wrap α}
    (hf : ∀ a, Ensures Unlocked (f a) (fun _ _ => True) (fun _ _ => False)) :
    Ensures Unlocked (m >>= f) (fun _ _ => True) (fun _ _ => False) :=
  hm.ensures.bind hf

theorem returns_ite {c : Prop} [Decidable c] {m m' : Wrap α}
    (hm : Ensures Unlocked m (fun _ _ => True) (fun _ _ => False))
    (hm' : Ensures Unlocked m' (fun _ _ => True) (fun _ _ => False)) :
    Ensures Unlocked (if c then m else m') (fun _ _ => True) (fun _ _ => False) := by
  split
  · exact hm
  · exact hm'

/-- A harmless call returns from every state with the mutex free. -/
theorem Call.Harmless.returns {call : Call} (h : call.Harmless) :
    Ensures Unlocked call.exec (fun _ _ => True) (fun _ _ => False) := by
  cases call with
  | «open» symbol path flags mode ret =>
    apply Ensures.map
    exact returns_seq fun _ => returns_lock
  | close fd ret =>
    apply Ensures.map
    exact returns_seq fun mali => returns_ite returns_total returns_lock
  | ioctl fd request arg env =>
    have hname := total_lookUpName h.1
    have hdecoded := total_ioctlDecoded h.2 fd (ioctlPtr request arg env.junk) env
    apply Ensures.map
    refine returns_seq fun _ => returns_seq fun mali => returns_ite returns_total ?_
    exact returns_lock
  | mmap symbol addr length prot flags fd offset ret =>
    apply Ensures.map
    exact returns_seq fun mali => returns_ite returns_total returns_lock
  | munmap addr length ret =>
    apply Ensures.map
    exact returns_lock

end Returning

section Interleaved

variable {τ : Type} [DecidableEq τ] {w : World} {calls : τ → List Call}
  {m : Machine τ Halt World Call RealCall}

/-- Whatever ends the program, or never comes to an end, is a call that is not harmless. -/
theorem stopped_harmful (cut : Cut) (h : Reaches cut.steps (startThreads w calls) m)
    (hstop : m.stopped ≠ none) : ∃ t, ∃ call ∈ calls t, ¬call.Harmless := by
  obtain ⟨e, he⟩ := Option.ne_none_iff_exists'.mp hstop
  obtain ⟨before, last, u, hentered, -, hlast⟩ := Reaches.stopped_last h he
  rw [cut.run_steps] at hlast
  have hmem : last ∈ m.entered.map Prod.snd := by
    rw [hentered]
    exact List.mem_append_right _ List.mem_cons_self
  obtain ⟨⟨t, call⟩, hpair, rfl⟩ := List.mem_map.mp hmem
  refine ⟨t, call, ?_, fun hharmless => ?_⟩
  · apply (enteredBy_sublist cut h t).subset
    exact List.mem_map.mpr ⟨_, List.mem_filter.mpr ⟨hpair, decide_eq_true rfl⟩, rfl⟩
  · have hend := hharmless.underLock.ensures u trivial
    rw [hlast] at hend
    exact hend

/-- Threads that make only harmless calls are never stopped, nor held up in a loop or for the
mutex: no interleaving goes on forever, and in one that cannot go on all calls have returned, the
mutex is free and the wrapper at rest. -/
theorem harmless_interleavings_end [Fintype τ] (timestamps trimming : Bool) (clock : ℕ → Timespec)
    (cut : Cut) (hcalls : ∀ t, ∀ call ∈ calls t, call.Harmless) :
    (¬∃ run : ℕ → Machine τ Halt World Call RealCall,
      run 0 = startThreads (World.initial timestamps trimming clock) calls ∧
      ∀ n, LockedSections.Step cut.steps (run n) (run (n+1))) ∧
    ∀ m, Reaches cut.steps (startThreads (World.initial timestamps trimming clock) calls) m →
      m.stopped = none ∧ ((∀ m', ¬LockedSections.Step cut.steps m m') →
        m.holder = none ∧ (∀ t, m.thread t = .outside .finished) ∧ AtRest m.shared) := by
  constructor
  · rintro ⟨run, -, hstep⟩
    have hwf := wellFounded_step (τ := τ) (α := RealCall) cut.steps
    exact (wellFounded_iff_isEmpty_descending_chain.mp hwf).false ⟨run, hstep⟩
  · intro m h
    have hgo : m.stopped = none := by
      by_contra hstop
      obtain ⟨t, call, hcall, hharmful⟩ := stopped_harmful cut h hstop
      exact hharmful (hcalls t call hcall)
    refine ⟨hgo, fun hend => ?_⟩
    obtain ⟨hfree, hfinished⟩ := Reaches.final h hend hgo
    have hturn := Reaches.inTurn_free h hgo hfree
    rw [cut.inTurn] at hturn
    refine ⟨hfree, hfinished, ?_⟩
    exact inTurn_ok (fun _ _ _ hw hr => hw.underLock hr) (World.initial_atRest _ _ _) hturn

/-- One thread opens the device and allocates memory, the other unmaps a page. -/
def allocAndUnmap : Bool → List Call
  | true => [openMali, allocCookie]
  | false => [.munmap 4096 4096 0]

theorem harmless_interleavings_end_alloc :
    (¬∃ run : ℕ → Machine Bool Halt World Call RealCall,
      run 0 = startThreads World.plain allocAndUnmap ∧
      ∀ n, LockedSections.Step Cut.coarse.steps (run n) (run (n+1))) ∧
    ∀ m, Reaches Cut.coarse.steps (startThreads World.plain allocAndUnmap) m →
      m.stopped = none ∧ ((∀ m', ¬LockedSections.Step Cut.coarse.steps m m') →
        m.holder = none ∧ (∀ t, m.thread t = .outside .finished) ∧ AtRest m.shared) := by
  have halloc : allocCookie.Harmless := ⟨.inl (by decide), by decide⟩
  have hcalls : ∀ t, ∀ call ∈ allocAndUnmap t, call.Harmless := by
    intro t call hcall
    cases t with
    | true =>
      rcases List.mem_pair.mp hcall with rfl | rfl
      · trivial
      · exact halloc
    | false =>
      obtain rfl := List.mem_singleton.mp hcall
      trivial
  exact harmless_interleavings_end false true (fun _ => ⟨0, 0⟩) Cut.coarse hcalls

end Interleaved

end Panloader
