import Panloader.Provenance

/-! Whether the pending list matches the GPU objects the driver has handed out. The driver
hands out an address by `MEM_ALLOC`, `MEM_IMPORT` and `MEM_ALIAS` and takes it back by
`MEM_FREE`; the wrapper records the first kind only, and drops a record only when it is
mapped. -/
namespace Panloader
open FirstMatch

/-- What a successful call does to the objects of the driver. -/
inductive GpuCall
  | alloc (va : U64) (flags : U32)
  | share (va : U64) (flags : U32)
  | free (va : U64)
  | map (va : U64)

/-- The GPU addresses that were handed out and since then neither mapped nor freed, with the
flags of their objects. -/
abbrev Live := U64 → Option U32

def Live.set (live : Live) (va : U64) (flags : Option U32) : Live :=
  fun a => if a = va then flags else live a

def Live.after (live : Live) : Option GpuCall → Live
  | some (.alloc va flags) => live.set va (some flags)
  | some (.share va flags) => live.set va (some flags)
  | some (.free va) => live.set va none
  | some (.map va) => live.set va none
  | none => live

/-- The requests that hand out or take back an address, by where the argument at `ptr` holds
the address and the flags; `mem` is the memory after the call. -/
def gpuRequest (request : U64) (mem : Memory) (ptr : U64) : Option GpuCall :=
  if ioctlCase request = ioctlCase maliIoctlMemAlloc then
    some (.alloc (mem.read (ptr + 40) 8) ((mem.read (ptr + 32) 8).setWidth 32))
  else if ioctlCase request = ioctlCase maliIoctlMemImport then
    some (.share (mem.read (ptr + 32) 8) ((mem.read (ptr + 24) 8).setWidth 32))
  else if ioctlCase request = ioctlCase maliIoctlMemAlias then
    some (.share (mem.read (ptr + 40) 8) ((mem.read (ptr + 8) 8).setWidth 32))
  else if ioctlCase request = ioctlCase maliIoctlMemFree then
    some (.free (mem.read (ptr + 8) 8))
  else none

/-- A call on the Mali device that succeeded, as the driver sees it: an ioctl returns 0 with
`rc` 0 in its header, a mapping is not `MAP_FAILED`. -/
def Call.gpuCall (maliFd : ℤ) : Call → Option GpuCall
  | .ioctl fd request arg env =>
    let ptr := ioctlPtr request arg env.junk
    if fd = maliFd ∧ ptr ≠ 0 ∧ env.ret = 0 ∧ env.after.read ptr 4 = 0 then
      gpuRequest (widenRequest request) env.after ptr
    else none
  | .mmap _ _ _ _ _ fd offset ret =>
    if fd = maliFd ∧ ret ≠ mapFailed then some (.map offset) else none
  | _ => none

/-- An allocation or a mapping of the Mali device does not fail. -/
def Call.Succeeds (maliFd : ℤ) (call : Call) : Prop :=
  match call with
  | .ioctl _ request _ _ => IsMemAlloc request → (call.gpuCall maliFd).isSome
  | .mmap _ _ _ _ _ fd _ _ => fd = maliFd → (call.gpuCall maliFd).isSome
  | _ => True

instance (maliFd : ℤ) (call : Call) : Decidable (call.Succeeds maliFd) := by
  unfold Call.Succeeds
  split <;> infer_instance

/-- The addresses that are live after the steps of a run. -/
def liveAfter (steps : List Step) : Live :=
  steps.foldl (fun live s => live.after (s.call.gpuCall s.before.maliFd)) fun _ => none

/-- The flags of the records that are pending for an address, the newest first. -/
def Tracker.recordsOf (t : Tracker) (va : U64) : List U32 :=
  (t.allocations.filter fun mem => mem.gpuVa == va).map PanwrapAllocatedMemory.flags

/-- The list has one record for every live address, with the flags of the object, and none
for any other. -/
def Exact (live : Live) (t : Tracker) : Prop := ∀ va, t.recordsOf va = (live va).toList

/-- The call leaves an exact list exact: it allocates an address that is not live, frees one
that is not live, imports or aliases nothing new, and maps with a descriptor other than 0. -/
def KeepsExact (live : Live) (maliFd : ℤ) : Option GpuCall → Prop
  | some (.alloc va _) => live va = none
  | some (.share va flags) => live va = some flags
  | some (.free va) => live va = none
  | some (.map va) => maliFd ≠ 0 ∨ live va = none
  | none => True

instance (live : Live) (maliFd : ℤ) (g : Option GpuCall) : Decidable (KeepsExact live maliFd g) := by
  unfold KeepsExact
  split <;> infer_instance

section Records

variable {t : Tracker} {va : U64}

theorem Tracker.recordsOf_addAllocation (t : Tracker) (mem : PanwrapAllocatedMemory) (va : U64) :
    (t.addAllocation mem).recordsOf va =
      if va = mem.gpuVa then mem.flags :: t.recordsOf va else t.recordsOf va := by
  by_cases hva : va = mem.gpuVa
  · have hmatch : (mem.gpuVa == va) = true := beq_iff_eq.mpr hva.symm
    simp only [Tracker.recordsOf, Tracker.addAllocation, List.filter_cons, hmatch, if_true, if_pos hva,
      List.map_cons]
  · have hmatch : ¬(mem.gpuVa == va) = true := fun hc => hva (beq_iff_eq.mp hc).symm
    simp only [Tracker.recordsOf, Tracker.addAllocation, List.filter_cons, hmatch, if_neg hva]
    rfl

theorem Tracker.recordsOf_addMapping (t : Tracker) (gpuVa : U64) (m : PanwrapMappedMemory)
    (va : U64) :
    (t.addMapping gpuVa m).recordsOf va =
      if va = gpuVa then (t.recordsOf va).tail else t.recordsOf va := by
  unfold Tracker.recordsOf Tracker.addMapping
  by_cases hva : va = gpuVa
  · rw [if_pos hva, hva, filter_eraseP, List.map_tail]
  · rw [if_neg hva, filter_eraseP_of_disjoint]
    intro mem hmem hpos
    exact hva ((beq_iff_eq.mp hmem).symm.trans (beq_iff_eq.mp hpos))

/-- A mapping uses up the newest record of its address. -/
theorem Tracker.pendingAllocation_flags (t : Tracker) (va : U64) :
    (t.pendingAllocation va).map PanwrapAllocatedMemory.flags = (t.recordsOf va).head? := by
  rw [Tracker.recordsOf, List.head?_map, List.head?_filter]
  rfl

end Records

section Lists

variable {live : Live} {t : Tracker}

/-- Where the records of the other addresses stay, only those of `va` have to be looked at. -/
theorem Exact.set_iff (h : Exact live t) {t' : Tracker} {va : U64}
    (hother : ∀ a, a ≠ va → t'.recordsOf a = t.recordsOf a) (flags : Option U32) :
    Exact (live.set va flags) t' ↔ t'.recordsOf va = flags.toList := by
  constructor
  · intro hset
    have hva := hset va
    rwa [Live.set, if_pos rfl] at hva
  · intro hva a
    by_cases ha : a = va
    · rw [Live.set, if_pos ha, ha, hva]
    · rw [Live.set, if_neg ha, hother a ha, h a]

theorem Exact.set_none (h : Exact live t) (va : U64) :
    Exact (live.set va none) t ↔ live va = none := by
  rw [h.set_iff fun _ _ => rfl, h va]
  exact Option.toList_eq_nil_iff

theorem Exact.set_some (h : Exact live t) (va : U64) (flags : U32) :
    Exact (live.set va (some flags)) t ↔ live va = some flags := by
  rw [h.set_iff fun _ _ => rfl, h va]
  cases live va <;> simp

/-- A new record fits an address that was not live. -/
theorem Exact.addAllocation (h : Exact live t) (mem : PanwrapAllocatedMemory) :
    Exact (live.set mem.gpuVa (some mem.flags)) (t.addAllocation mem) ↔ live mem.gpuVa = none := by
  have hother (a : U64) (ha : a ≠ mem.gpuVa) : (t.addAllocation mem).recordsOf a = t.recordsOf a := by
    rw [t.recordsOf_addAllocation mem a, if_neg ha]
  rw [h.set_iff hother, t.recordsOf_addAllocation mem mem.gpuVa, if_pos rfl, h mem.gpuVa]
  cases live mem.gpuVa <;> simp

theorem Exact.pendingAllocation (h : Exact live t) (va : U64) :
    (t.pendingAllocation va).map PanwrapAllocatedMemory.flags = live va := by
  rw [t.pendingAllocation_flags va, h va]
  cases live va <;> rfl

/-- A mapping of a live address takes its one record. -/
theorem Exact.addMapping (h : Exact live t) (va : U64) (m : PanwrapMappedMemory) :
    Exact (live.set va none) (t.addMapping va m) := by
  have hother (a : U64) (ha : a ≠ va) : (t.addMapping va m).recordsOf a = t.recordsOf a := by
    rw [t.recordsOf_addMapping va m a, if_neg ha]
  rw [h.set_iff hother, t.recordsOf_addMapping va m va, if_pos rfl, h va]
  cases live va <;> rfl

theorem Exact.apply_map (h : Exact live t) (va addr length : U64) (prot : U32) :
    Exact (live.set va none) (t.apply (.map va addr length prot)) := by
  rw [Tracker.apply]
  have hflags := h.pendingAllocation va
  cases hp : t.pendingAllocation va with
  | none =>
    rw [hp] at hflags
    exact (h.set_none va).mpr hflags.symm
  | some mem => exact h.addMapping va _

/-- A mapping of an exact list serves a live address with its own flags, and no other. -/
theorem Exact.mapping_served (h : Exact live t) (va addr length : U64) (prot : U32) :
    (∀ flags, live va = some flags → (t.apply (.map va addr length prot)).mmaps =
      PanwrapAllocatedMemory.mapped ⟨va, flags⟩ va addr length prot :: t.mmaps) ∧
    (live va = none → t.apply (.map va addr length prot) = t) := by
  have hflags := h.pendingAllocation va
  rw [Tracker.apply]
  cases hp : t.pendingAllocation va with
  | none =>
    rw [hp] at hflags
    refine ⟨fun flags hlive => ?_, fun _ => rfl⟩
    rw [hlive] at hflags
    simp at hflags
  | some mem =>
    rw [hp] at hflags
    constructor
    · intro flags hlive
      rw [hlive] at hflags
      have hmem : mem = ⟨va, flags⟩ := by
        cases mem
        exact congrArg₂ _ (Tracker.pendingAllocation_some hp).2 (Option.some.inj hflags)
      rw [hmem]
      rfl
    · intro hlive
      rw [hlive] at hflags
      simp at hflags

end Lists

section Calls

variable {live : Live} {t : Tracker} {maliFd : ℤ}

/-- Where the tables stay as they are, the list stays exact if the live addresses do. -/
theorem Exact.not_tracked (h : Exact live t) {g : Option GpuCall}
    (halloc : ∀ va flags, g ≠ some (.alloc va flags)) (hmap : ∀ va, g ≠ some (.map va)) :
    Exact (live.after g) t ↔ KeepsExact live maliFd g := by
  rcases g with _ | ⟨va, flags⟩ | ⟨va, flags⟩ | va | va
  · exact iff_of_true h trivial
  · exact absurd rfl (halloc va flags)
  · exact h.set_some va flags
  · exact h.set_none va
  · exact absurd rfl (hmap va)

theorem gpuRequest_ne_map (request : U64) (mem : Memory) (ptr va : U64) :
    gpuRequest request mem ptr ≠ some (.map va) := by
  unfold gpuRequest
  split_ifs <;> simp

theorem gpuRequest_ne_alloc {request : U32} (h : ¬IsMemAlloc request) (mem : Memory)
    (ptr va : U64) (flags : U32) :
    gpuRequest (widenRequest request) mem ptr ≠ some (.alloc va flags) := by
  have hcase : ioctlCase (widenRequest request) ≠ ioctlCase maliIoctlMemAlloc := h
  unfold gpuRequest
  rw [if_neg hcase]
  split_ifs <;> simp

theorem Exact.ioctl (h : Exact live t) (fd : ℤ) (request : U32) (arg : Option U64)
    (env : IoctlEnv) (hs : (Call.ioctl fd request arg env).Succeeds maliFd) :
    Exact (live.after ((Call.ioctl fd request arg env).gpuCall maliFd))
        (t.applyOption ((Call.ioctl fd request arg env).trackEvent maliFd)) ↔
      KeepsExact live maliFd ((Call.ioctl fd request arg env).gpuCall maliFd) := by
  by_cases hreq : IsMemAlloc request
  · -- a successful allocation is decoded, and recorded as the driver made it
    have hcase : ioctlCase (widenRequest request) = ioctlCase maliIoctlMemAlloc := hreq
    have hsome := hs hreq
    rw [Call.gpuCall] at hsome ⊢
    by_cases hok : fd = maliFd ∧ ioctlPtr request arg env.junk ≠ 0 ∧ env.ret = 0 ∧
        env.after.read (ioctlPtr request arg env.junk) 4 = 0
    · have hpath : OnDecodingPath maliFd fd := fun hc => hc.2 hok.1
      rw [if_pos hok, Call.trackEvent, if_pos ⟨hpath, hok.2.1, hreq⟩, gpuRequest,
        if_pos hcase]
      exact h.addAllocation (memAllocRecord env.after (ioctlPtr request arg env.junk))
    · rw [if_neg hok] at hsome
      simp at hsome
  · have htrack : (Call.ioctl fd request arg env).trackEvent maliFd = none :=
      Call.trackEvent_eq_none hreq
    rw [htrack]
    apply h.not_tracked
    · intro va flags
      rw [Call.gpuCall]
      split_ifs
      · exact gpuRequest_ne_alloc hreq _ _ va flags
      · simp
    · intro va
      rw [Call.gpuCall]
      split_ifs
      · exact gpuRequest_ne_map _ _ _ va
      · simp

theorem Call.gpuCall_mmap {symbol : MmapSymbol} {addr length : U64} {prot flags : U32} {fd : ℤ}
    {offset ret : U64}
    (hs : (Call.mmap symbol addr length prot flags fd offset ret).Succeeds maliFd)
    (hfd : fd = maliFd) :
    (Call.mmap symbol addr length prot flags fd offset ret).gpuCall maliFd =
      some (.map offset) := by
  have hsome := hs hfd
  rw [Call.gpuCall] at hsome ⊢
  by_cases hok : fd = maliFd ∧ ret ≠ mapFailed
  · rw [if_pos hok]
  · rw [if_neg hok] at hsome
    simp at hsome

theorem Exact.mmap (h : Exact live t) (symbol : MmapSymbol) (addr length : U64)
    (prot flags : U32) (fd : ℤ) (offset ret : U64)
    (hs : (Call.mmap symbol addr length prot flags fd offset ret).Succeeds maliFd) :
    Exact (live.after ((Call.mmap symbol addr length prot flags fd offset ret).gpuCall maliFd))
        (t.applyOption
          ((Call.mmap symbol addr length prot flags fd offset ret).trackEvent maliFd)) ↔
      KeepsExact live maliFd
        ((Call.mmap symbol addr length prot flags fd offset ret).gpuCall maliFd) := by
  by_cases hfd : fd = maliFd
  · rw [Call.gpuCall_mmap hs hfd, Call.trackEvent]
    by_cases hopen : maliFd = 0
    · -- descriptor 0 counts as a closed device, so the record stays
      rw [if_neg fun hp : OnTrackingPath maliFd fd => hp (.inl hopen)]
      refine (h.set_none offset).trans ?_
      exact ⟨.inr, fun hk => hk.resolve_left (not_not.mpr hopen)⟩
    · have hpath : OnTrackingPath maliFd fd := fun hc => hc.elim hopen fun hne => hne hfd
      rw [if_pos hpath]
      exact iff_of_true (h.apply_map offset ret length prot) (.inl hopen)
  · have htrack : (Call.mmap symbol addr length prot flags fd offset ret).trackEvent maliFd =
        none := Call.trackEvent_eq_none hfd
    rw [htrack, Call.gpuCall, if_neg fun hc => hfd hc.1]
    exact iff_of_true h trivial

/-- A successful call keeps an exact list exact in just the cases of `KeepsExact`. -/
theorem Exact.step (h : Exact live t) (call : Call) (hs : call.Succeeds maliFd) :
    Exact (live.after (call.gpuCall maliFd)) (t.applyOption (call.trackEvent maliFd)) ↔
      KeepsExact live maliFd (call.gpuCall maliFd) := by
  cases call with
  | «open» symbol path flags mode ret => exact iff_of_true h trivial
  | close fd ret => exact iff_of_true h trivial
  | ioctl fd request arg env => exact h.ioctl fd request arg env hs
  | mmap symbol addr length prot flags fd offset ret =>
    exact h.mmap symbol addr length prot flags fd offset ret hs
  | munmap addr length ret => exact iff_of_true h trivial

end Calls

theorem liveAfter_snoc (steps : List Step) (s : Step) :
    liveAfter (steps ++ [s]) = (liveAfter steps).after (s.call.gpuCall s.before.maliFd) := by
  rw [liveAfter, List.foldl_append]
  rfl

/-- The list is exact in every state of a run if and only if every step keeps it so. -/
theorem Run.exact_iff {enableTimestamps enableHexdumpTrimming : Bool} {clock : ℕ → Timespec}
    {steps : List Step} {w : World}
    (hrun : Run (World.initial enableTimestamps enableHexdumpTrimming clock) steps w)
    (hsucceed : ∀ s ∈ steps, s.call.Succeeds s.before.maliFd) :
    Exact (liveAfter steps) w.tracker ∧
        AtEveryStep (fun before s => Exact (liveAfter before) s.before.tracker) steps ↔
      AtEveryStep (fun before s => KeepsExact (liveAfter before) s.before.maliFd
        (s.call.gpuCall s.before.maliFd)) steps := by
  induction hrun with
  | nil => exact iff_of_true ⟨fun _ => rfl, AtEveryStep.nil _⟩ (AtEveryStep.nil _)
  | @snoc steps w w' call value hrun hexec ih =>
    have hold := ih fun s hs => hsucceed s (List.mem_append_left _ hs)
    have hlast : call.Succeeds w.maliFd :=
      hsucceed ⟨w, call, value, w'⟩ (List.mem_append_right _ (List.mem_singleton.mpr rfl))
    -- the state after the old steps is the one before the new step
    rw [AtEveryStep.snoc_iff, AtEveryStep.snoc_iff, liveAfter_snoc, Call.exec_tracker hexec, ← hold]
    constructor
    · rintro ⟨hafter, hevery, hbefore⟩
      exact ⟨⟨hbefore, hevery⟩, (hbefore.step call hlast).mp hafter⟩
    · rintro ⟨⟨hbefore, hevery⟩, hkeeps⟩
      exact ⟨(hbefore.step call hlast).mpr hkeeps, hevery, hbefore⟩

/-- A mapping of the Mali device at a live address is tracked with the flags of that address's
object, and one at any other address is not tracked. -/
def MappingServed (live : Live) (s : Step) : Prop :=
  match s.call with
  | .mmap _ _ length prot _ fd offset ret => fd = s.before.maliFd →
    (∀ flags, live offset = some flags → s.after.tracker.mmaps =
      PanwrapAllocatedMemory.mapped ⟨offset, flags⟩ offset ret length prot ::
        s.before.tracker.mmaps) ∧
    (live offset = none → s.after.tracker = s.before.tracker)
  | _ => True

theorem Exact.mappingServed {live : Live} {s : Step} (h : Exact live s.before.tracker)
    (hexec : s.call.exec s.before = .ok s.value s.after)
    (hs : s.call.Succeeds s.before.maliFd)
    (hkeeps : KeepsExact live s.before.maliFd (s.call.gpuCall s.before.maliFd)) :
    MappingServed live s := by
  obtain ⟨w, call, v, w'⟩ := s
  have htracker : w'.tracker = w.tracker.applyOption (call.trackEvent w.maliFd) :=
    Call.exec_tracker hexec
  cases call with
  | «open» symbol path flags mode ret => trivial
  | close fd ret => trivial
  | ioctl fd request arg env => trivial
  | mmap symbol addr length prot flags fd offset ret =>
    intro hfd
    change w'.tracker = _ at htracker
    rw [Call.gpuCall_mmap hs hfd] at hkeeps
    rw [htracker, Call.trackEvent]
    by_cases hpath : OnTrackingPath w.maliFd fd
    · rw [if_pos hpath]
      exact h.mapping_served offset ret length prot
    -- the device has descriptor 0, so the address may not be live
    · rw [if_neg hpath]
      have hopen : ¬w.maliFd ≠ 0 :=
        fun hne => hpath fun hc => hc.elim hne fun hne => hne hfd
      have hlive : live offset = none := hkeeps.resolve_left hopen
      refine ⟨fun flags hsome => ?_, fun _ => rfl⟩
      rw [hlive] at hsome
      simp at hsome
  | munmap addr length ret => trivial

/-- In a run whose allocations and mappings succeed, the pending list is exact in every state
and every mapping is served, if and only if every step keeps the list exact. -/
theorem pending_list_exact_iff {enableTimestamps enableHexdumpTrimming : Bool}
    {clock : ℕ → Timespec} {steps : List Step} {w : World}
    (hrun : Run (World.initial enableTimestamps enableHexdumpTrimming clock) steps w)
    (hsucceed : ∀ s ∈ steps, s.call.Succeeds s.before.maliFd) :
    Exact (liveAfter steps) w.tracker ∧
        AtEveryStep (fun before s => Exact (liveAfter before) s.before.tracker ∧
          MappingServed (liveAfter before) s) steps ↔
      AtEveryStep (fun before s => KeepsExact (liveAfter before) s.before.maliFd
        (s.call.gpuCall s.before.maliFd)) steps := by
  constructor
  · rintro ⟨hlast, hevery⟩
    refine (hrun.exact_iff hsucceed).mp ⟨hlast, fun before s after hsplit => ?_⟩
    exact (hevery before s after hsplit).1
  · intro hkeeps
    obtain ⟨hlast, hevery⟩ := (hrun.exact_iff hsucceed).mpr hkeeps
    refine ⟨hlast, fun before s after hsplit => ?_⟩
    have hs : s ∈ steps := by simp [hsplit]
    have hexact := hevery before s after hsplit
    exact ⟨hexact, hexact.mappingServed (hrun.exec_of_mem hs) (hsucceed s hs)
      (hkeeps before s after hsplit)⟩

/-- A run that allocates and maps one page. -/
theorem pending_list_exact_of_mapped :
    ∃ steps w, Run World.plain steps w ∧ w.tracker.mmaps.length = 1 ∧
      Exact (liveAfter steps) w.tracker := by
  have hcalls : (World.plain.runCalls [openMali, allocCookie, mapCookie 0x7f0000000000]).map
      (fun r => decide (r.2.tracker.mmaps.length = 1 ∧
        (∀ s ∈ r.1, s.call.Succeeds s.before.maliFd) ∧
        AtEveryStep (fun before s => KeepsExact (liveAfter before) s.before.maliFd
          (s.call.gpuCall s.before.maliFd)) r.1)) = some true := by decide +kernel
  obtain ⟨steps, w, hrun, hok⟩ := Run.of_calls hcalls
  obtain ⟨hlen, hsucceed, hkeeps⟩ := of_decide_eq_true hok
  exact ⟨steps, w, hrun, hlen, ((pending_list_exact_iff hrun hsucceed).mpr hkeeps).1⟩

/-- A successful `MALI_IOCTL_MEM_FREE` of `gpu_addr` 0x1000. -/
def freeCookie : Call :=
  .ioctl 3 0xc0108204 (some 0x1000)
    ⟨fun _ => 0, fun a => if a = 0x1009 then 0x10 else 0, 0, 0, false⟩

/-- An allocation that is freed again leaves its record behind. -/
theorem freed_record_stays :
    ¬∀ (steps : List Step) (w : World), Run World.plain steps w →
      (∀ s ∈ steps, s.call.Succeeds s.before.maliFd) →
      Exact (liveAfter steps) w.tracker ∧
        AtEveryStep (fun before s => Exact (liveAfter before) s.before.tracker ∧
          MappingServed (liveAfter before) s) steps := by
  intro h
  have hcalls : (World.plain.runCalls [openMali, allocCookie, freeCookie]).map
      (fun r => decide (r.2.tracker.recordsOf 0x1000 = [0] ∧ liveAfter r.1 0x1000 = none ∧
        ∀ s ∈ r.1, s.call.Succeeds s.before.maliFd)) = some true := by decide +kernel
  obtain ⟨steps, w, hrun, hok⟩ := Run.of_calls hcalls
  obtain ⟨hrecords, hlive, hsucceed⟩ := of_decide_eq_true hok
  have hexact := (h steps w hrun hsucceed).1 0x1000
  rw [hrecords, hlive] at hexact
  exact nomatch hexact

end Panloader
