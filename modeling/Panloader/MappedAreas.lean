import Panloader.ForwardedCalls
import Panloader.LogReplay
import Panloader.TracedReads

/-! A program with threads beside the memory that the kernel has mapped. `munmap` takes the mutex
before the real call, and keeps it until the mapping has left the table. -/
namespace Panloader
open Effects LockedSections Relation

/-- Where an area of memory begins and how long it is. -/
abbrev Area := U64 × U64

def Area.Has (A : Area) (a : U64) : Prop := (a - A.1).toNat < A.2.toNat

def NoneEmpty (areas : Set Area) : Prop := ∀ A ∈ areas, A.2 ≠ 0

/-- Memory that is free. -/
def Fresh (areas : Set Area) (A : Area) : Prop :=
  A.2 ≠ 0 ∧ ∀ B ∈ areas, ∀ a, Area.Has A a → ¬Area.Has B a

/-- `MAP_FIXED` -/
def mapFixed : U32 := 0x10

/-- The area `A` is mapped over what was there. What is left of an area may be areas of its own. -/
structure Replaces (areas areas' : Set Area) (A : Area) : Prop where
  mem : A ∈ areas'
  noneEmpty : NoneEmpty areas'
  kept : ∀ B ∈ areas, (∀ a, Area.Has A a → ¬Area.Has B a) → B ∈ areas'
  covers : ∀ a, (∃ B ∈ areas', Area.Has B a) ↔ Area.Has A a ∨ ∃ B ∈ areas, Area.Has B a

/-- The kernel has mapped the area `A`: where the caller says, or in free memory. -/
def MapsArea (areas areas' : Set Area) (flags : U32) (A : Area) : Prop :=
  if flags &&& mapFixed ≠ 0 then Replaces areas areas' A
  else Fresh areas A ∧ areas' = insert A areas

/-- What a real call that gives this answer does to the mapped areas. A `munmap` is of an area as a
whole. -/
def RealCall.Remaps (areas areas' : Set Area) : RealCall → Value → Prop
  | .mmap _ _ length _ flags _ _, .ptr start => (start = mapFailed ∧ areas' = areas) ∨
      (start ≠ mapFailed ∧ MapsArea areas areas' flags (start, length))
  | .munmap addr length, .int ret => (ret = -1 ∧ areas' = areas) ∨
      (ret ≠ -1 ∧ (addr, length) ∈ areas ∧ areas' = areas \ {(addr, length)})
  | _, _ => areas' = areas

/-- The real calls of a step, all with one answer. -/
def KernelMaps (answer : Option Value) : List RealCall → Set Area → Set Area → Prop
  | [], areas, areas' => areas' = areas
  | a :: as, areas, areas' => ∃ v between, answer = some v ∧ a.Remaps areas between v ∧
      KernelMaps answer as between areas'

/-- What `panwrap_mmap_wrap` does after the real call. -/
def afterMmap (length : U64) (prot flags : U32) (offset ret : U64) : Wrap Unit := do
  panwrapFreezeTime
  panwrapTrackMmap offset ret length prot flags
  panwrapUnfreezeTime

/-- What `munmap` does after the real call. -/
def afterMunmap (addr : U64) : Wrap Unit := do
  panwrapFreezeTime
  let t ← tracker
  untrackMunmap addr (panwrapFindMappedMem t.mmaps addr)
  panwrapUnfreezeTime

/-- The real `mmap` and the real `munmap` are steps of their own. -/
def Cut.atReal : Cut where
  steps
    | .mmap symbol addr length prot flags fd offset ret =>
      .step (·.emit (.real (.mmap symbol addr length prot flags fd offset))) fun _ =>
        .atomic (afterMmap length prot flags offset ret)
    | .munmap addr length _ =>
      .step (·.emit (.real (.munmap addr length))) fun _ => .atomic (afterMunmap addr)
    | call => .atomic call.underLock
  run_steps call := by
    cases call with
    | «open» | close | ioctl => exact Section.run_atomic _
    | mmap symbol addr length prot flags fd offset ret =>
      funext w
      show (Section.atomic (afterMmap length prot flags offset ret)).run (w.emit _) = _
      rw [Section.run_atomic]
      rfl
    | munmap addr length ret =>
      funext w
      show (Section.atomic (afterMunmap addr)).run (w.emit _) = _
      rw [Section.run_atomic]
      rfl

/-- A program with threads and the areas of memory that are mapped. -/
structure Mapped (τ : Type) where
  machine : Machine τ Halt World Call RealCall
  areas : Set Area

section Steps

variable {τ : Type} [DecidableEq τ]

/-- The last call that took the mutex. -/
def underWay (m : Machine τ Halt World Call RealCall) : Option Call :=
  m.entered.getLast?.map Prod.snd

/-- A thread makes a real call without the mutex, whatever the answer, or goes on otherwise. The
real calls of a step under the mutex have the answer that the call under way brings with it. -/
inductive MappedStep : Mapped τ → Mapped τ → Prop
  | outside {p : Mapped τ} (t : τ) {a : RealCall} {next : WrapProgram} {v : Value}
      {areas' : Set Area} : p.machine.stopped = none →
      p.machine.thread t = .outside (.act a next) → a.Remaps p.areas areas' v →
      MappedStep p {
        machine := { p.machine.become t (.outside next) with
          acted := p.machine.acted ++ [(t, a)] }
        areas := areas' }
  | wrapper {p : Mapped τ} {m' : Machine τ Halt World Call RealCall} {areas' : Set Area} :
      LockedSections.Step Cut.atReal.steps p.machine m' → m'.acted = p.machine.acted →
      KernelMaps ((underWay p.machine).map Call.answer)
        (realCalls (newEvents p.machine.shared m'.shared)) p.areas areas' →
      MappedStep p { machine := m', areas := areas' }

abbrev MappedReaches : Mapped τ → Mapped τ → Prop := ReflTransGen MappedStep

/-- Without the areas, these are steps of the threads. -/
theorem MappedStep.machine {p p' : Mapped τ} (h : MappedStep p p') :
    LockedSections.Step Cut.atReal.steps p.machine p'.machine := by
  cases h with
  | outside t hgo ht _ => exact .act t hgo ht
  | wrapper hstep _ _ => exact hstep

theorem MappedReaches.machine {p p' : Mapped τ} (h : MappedReaches p p') :
    Reaches Cut.atReal.steps p.machine p'.machine := by
  induction h with
  | refl => exact .refl
  | tail _ hstep ih => exact ih.tail hstep.machine

end Steps

section Areas

variable {areas areas' : Set Area} {A B : Area}

theorem Area.has_start (hA : A.2 ≠ 0) : A.Has A.1 := by
  rw [Area.Has, BitVec.sub_self]
  exact Nat.pos_of_ne_zero fun h => hA (BitVec.eq_of_toNat_eq h)

theorem NoneEmpty.insert (h : NoneEmpty areas) (hA : Fresh areas A) :
    NoneEmpty (insert A areas) := by
  intro B hB
  obtain rfl | hB := hB
  · exact hA.1
  · exact h B hB

theorem MapsArea.noneEmpty {flags : U32} (h : MapsArea areas areas' flags A) (hareas : NoneEmpty areas) :
    NoneEmpty areas' := by
  unfold MapsArea at h
  split_ifs at h
  · exact h.noneEmpty
  · obtain ⟨hfresh, rfl⟩ := h
    exact hareas.insert hfresh

/-- Free memory does not begin where an area does. -/
theorem Fresh.start_ne (h : NoneEmpty areas) (hA : Fresh areas A) (hB : B ∈ areas) :
    B.1 ≠ A.1 := by
  intro hBA
  apply hA.2 B hB A.1 (Area.has_start hA.1)
  rw [← hBA]
  exact Area.has_start (h B hB)

theorem RealCall.Remaps.noneEmpty {a : RealCall} {v : Value} (h : a.Remaps areas areas' v)
    (hareas : NoneEmpty areas) : NoneEmpty areas' := by
  cases a with
  | «open» | close | ioctl =>
    obtain rfl : areas' = areas := h
    exact hareas
  | mmap symbol addr length prot flags fd offset =>
    cases v with
    | int n =>
      obtain rfl : areas' = areas := h
      exact hareas
    | ptr start =>
      obtain ⟨-, rfl⟩ | ⟨-, hmaps⟩ := h
      · exact hareas
      · exact hmaps.noneEmpty hareas
  | munmap addr length =>
    cases v with
    | int ret =>
      obtain ⟨-, rfl⟩ | ⟨-, -, rfl⟩ := h
      · exact hareas
      · exact fun A hA => hareas A hA.1
    | ptr start =>
      obtain rfl : areas' = areas := h
      exact hareas

/-- A call that may take memory away: a `munmap`, or an `mmap` over what is there. -/
def RealCall.takes : RealCall → Bool
  | .mmap _ _ _ _ flags _ _ => flags &&& mapFixed ≠ 0
  | .munmap _ _ => true
  | _ => false

theorem RealCall.Remaps.grows {a : RealCall} {v : Value} (h : a.Remaps areas areas' v)
    (ha : a.takes = false) : areas ⊆ areas' := by
  cases a with
  | «open» | close | ioctl =>
    obtain rfl : areas' = areas := h
    exact subset_rfl
  | mmap symbol addr length prot flags fd offset =>
    cases v with
    | int n =>
      obtain rfl : areas' = areas := h
      exact subset_rfl
    | ptr start =>
      obtain ⟨-, rfl⟩ | ⟨-, hmaps⟩ := h
      · exact subset_rfl
      · rw [MapsArea, if_neg (of_decide_eq_false ha)] at hmaps
        rw [hmaps.2]
        exact Set.subset_insert _ _
  | munmap addr length => cases ha

theorem KernelMaps.noneEmpty {answer : Option Value} {as : List RealCall}
    (h : KernelMaps answer as areas areas') (hareas : NoneEmpty areas) : NoneEmpty areas' := by
  induction as generalizing areas with
  | nil =>
    obtain rfl : areas' = areas := h
    exact hareas
  | cons a as ih =>
    obtain ⟨v, between, -, hremaps, hrest⟩ := h
    exact ih hrest (hremaps.noneEmpty hareas)

end Areas

section Table

variable {areas areas' : Set Area} {mmaps : List PanwrapMappedMemory} {t : Tracker}

/-- Every tracked mapping is an area of its own; where the allocation asks for it, the GPU has it
at the same address. -/
structure Backed (areas : Set Area) (mmaps : List PanwrapMappedMemory) : Prop where
  mapped : ∀ m ∈ mmaps, (m.addr, m.length) ∈ areas
  starts : mmaps.Pairwise fun m n => m.addr ≠ n.addr
  sameVa : ∀ m ∈ mmaps, m.flags &&& maliMemSameVa ≠ 0 → m.gpuVa = m.addr

theorem Backed.mono (h : Backed areas mmaps) (hsub : areas ⊆ areas') : Backed areas' mmaps :=
  { h with mapped := fun m hm => hsub (h.mapped m hm) }

/-- A new area is tracked, if an allocation is pending for it. -/
theorem Backed.map {gpuVa addr length : U64} {prot : U32} (h : Backed areas t.mmaps)
    (hnew : (addr, length) ∈ areas) (hstart : ∀ m ∈ t.mmaps, m.addr ≠ addr) :
    Backed areas (t.apply (.map gpuVa addr length prot)).mmaps := by
  rw [Tracker.apply]
  cases hpending : t.pendingAllocation gpuVa with
  | none => exact h
  | some mem =>
    constructor
    · intro m hm
      obtain rfl | hm := List.mem_cons.mp hm
      · exact hnew
      · exact h.mapped m hm
    · apply List.pairwise_cons.mpr
      exact ⟨fun m hm hsame => hstart m hm hsame.symm, h.starts⟩
    · intro m hm hflag
      obtain rfl | hm := List.mem_cons.mp hm
      · exact mem.mapped_sameVa gpuVa addr length prot hflag
      · exact h.sameVa m hm hflag

/-- Of mappings that begin at different addresses no second one is left at `addr`. -/
theorem addr_ne_of_mem_eraseP {addr : U64} {m : PanwrapMappedMemory}
    (hstarts : mmaps.Pairwise fun m n => m.addr ≠ n.addr)
    (hm : m ∈ mmaps.eraseP fun pos => pos.addr == addr) : m.addr ≠ addr := by
  induction mmaps with
  | nil => cases hm
  | cons n mmaps ih =>
    obtain ⟨hfirst, hrest⟩ := List.pairwise_cons.mp hstarts
    by_cases hn : n.addr = addr
    · rw [List.eraseP_cons_of_pos (by simpa using hn)] at hm
      rw [← hn]
      exact (hfirst m hm).symm
    · rw [List.eraseP_cons_of_neg (by simpa using hn)] at hm
      obtain rfl | hm := List.mem_cons.mp hm
      · exact hn
      · exact ih hrest hm

theorem Backed.erase (h : Backed areas mmaps) (addr : U64) :
    Backed areas (mmaps.eraseP fun pos => pos.addr == addr) where
  mapped m hm := h.mapped m (List.mem_of_mem_eraseP hm)
  starts := h.starts.sublist List.eraseP_sublist
  sameVa m hm := h.sameVa m (List.mem_of_mem_eraseP hm)

/-- Once an area is unmapped, all but the mapping that begins where it did are still areas. -/
theorem Backed.unmap (h : Backed areas mmaps) (addr length : U64) :
    Backed (areas \ {(addr, length)}) (mmaps.eraseP fun pos => pos.addr == addr) := by
  refine { h.erase addr with mapped := fun m hm => ⟨(h.erase addr).mapped m hm, fun hgone => ?_⟩ }
  exact addr_ne_of_mem_eraseP h.starts hm (congrArg Prod.fst hgone)

end Table

section UnderLock

variable {w w' : World} {areas areas' : Set Area}

theorem newEvents_self (w : World) : newEvents w w = [] := List.drop_length

/-- A step without events changes no areas. -/
theorem KernelMaps.still {answer : Option Value}
    (h : KernelMaps answer (realCalls (newEvents w w)) areas areas') : areas' = areas := by
  rw [newEvents_self] at h
  exact h

theorem At.newCalls {st : Stage} {calls : List RealCall} {top c r : ℕ}
    (h : At w st calls top c r w') : realCalls (newEvents w w') = calls := by
  obtain ⟨es, htrace, hcalls, -⟩ := h.since
  rw [newEvents, htrace, List.drop_left]
  exact hcalls

theorem realCalls_emit (a : RealCall) : realCalls (newEvents w (w.emit (.real a))) = [a] := by
  rw [newEvents, World.emit, List.drop_left]
  rfl

theorem afterMmap_ok {length offset ret : U64} {prot flags : U32}
    (h : afterMmap length prot flags offset ret w = .ok () w') :
    w'.tracker = w.tracker.apply (.map offset ret length prot) ∧
      realCalls (newEvents w w') = [] := by
  have hbody : Ensures (At w w.stage [] indentBound 0 indentBound)
      (afterMmap length prot flags offset ret)
      (fun _ w' => w'.tracker = w.tracker.apply (.map offset ret length prot) ∧
        realCalls (newEvents w w') = []) (fun _ => Stopped w indentBound) := by
    apply panwrapFreezeTime_ensures.bind
    intro _
    apply (panwrapTrackMmap_ensures offset ret length prot flags).bind
    intro _
    apply panwrapUnfreezeTime_ensures.mono
    · exact fun _ u hu => ⟨congrArg Stage.tracker hu.stage, hu.newCalls⟩
    · exact fun _ _ hu => hu
  exact hbody.ok (At.start w indentBound) h

theorem afterMunmap_ok {addr : U64} (h : afterMunmap addr w = .ok () w') :
    w'.tracker = w.tracker.delMapping addr ∧ realCalls (newEvents w w') = [] := by
  have hbody : Ensures (At w w.stage [] indentBound 0 indentBound) (afterMunmap addr)
      (fun _ w' => w'.tracker = w.tracker.delMapping addr ∧ realCalls (newEvents w w') = [])
      (fun _ => Stopped w indentBound) := by
    apply panwrapFreezeTime_ensures.bind
    intro _
    apply tracker_ensures.bind_eq
    apply (untrackMunmap_ensures addr).bind
    intro _
    apply panwrapUnfreezeTime_ensures.mono
    · exact fun _ u hu => ⟨congrArg Stage.tracker hu.stage, hu.newCalls⟩
    · exact fun _ _ hu => hu
  exact hbody.ok (At.start w indentBound) h

/-- If the call is an `mmap`, the kernel finds free memory for it. -/
def Call.MapsFree : Call → Prop
  | .mmap _ _ _ _ flags _ _ ret => flags &&& mapFixed = 0 ∧ ret ≠ mapFailed
  | _ => True

instance (call : Call) : Decidable call.MapsFree :=
  match call with
  | .mmap _ _ _ _ flags _ _ ret =>
    @instDecidableAnd _ _ (instDecidableEqBitVec (flags &&& mapFixed) 0)
      (@instDecidableNot _ (instDecidableEqBitVec ret mapFailed))
  | .open .. | .close .. | .ioctl .. | .munmap .. => isTrue trivial

/-- A call that neither maps nor unmaps. -/
def Call.Stays : Call → Prop
  | .mmap .. | .munmap .. => False
  | _ => True

theorem Call.Stays.underLock {call : Call} (hcall : call.Stays) {answer : Option Value}
    (h : call.underLock w = .ok () w')
    (hkernel : KernelMaps answer (realCalls (newEvents w w')) areas areas') :
    w'.tracker.mmaps = w.tracker.mmaps ∧ areas' = areas := by
  have hnew := ((Call.underLock_ensures w call).ok rfl h).newCalls
  have htracker := Call.underLock_tracker h
  rw [hnew] at hkernel
  cases call with
  | mmap | munmap => exact hcall.elim
  | «open» | close => exact ⟨congrArg Tracker.mmaps htracker, hkernel⟩
  | ioctl fd request arg env =>
    obtain ⟨v, between, -, hsame, hrest⟩ := hkernel
    obtain rfl : between = areas := hsame
    refine ⟨?_, hrest⟩
    rw [htracker]
    exact applyOption_lockedEvent_ioctl _ fd request arg env

/-- Such a call is over after its step, and neither the table nor the areas have changed, or it
ends everything. -/
theorem Call.Stays.step {call : Call} (hcall : call.Stays) {f : World → World}
    {rest : World → Section Halt World} {answer : Option Value}
    (hsection : .step f rest = Cut.atReal.steps call)
    (hkernel : KernelMaps answer (realCalls (newEvents w (f w))) areas areas') :
    ((f w).tracker.mmaps = w.tracker.mmaps ∧ areas' = areas ∧ rest w = .done) ∨
      ∃ e, rest w = .abort e := by
  have hatomic : .step f rest = Section.atomic call.underLock := by
    cases call with
    | mmap | munmap => exact hcall.elim
    | «open» | close | ioctl => exact hsection
  obtain ⟨hw, hrest⟩ | ⟨e, -, hrest⟩ := Section.atomic_step hatomic w
  · obtain ⟨hmmaps, hareas⟩ := hcall.underLock hw hkernel
    exact .inl ⟨hmmaps, hareas, hrest⟩
  · exact .inr ⟨e, hrest⟩

/-- How far a call under the mutex has come, and what is tracked there. -/
inductive Holding (areas : Set Area) (mmaps : List PanwrapMappedMemory) :
    Call → Section Halt World → Prop
  | starts {call : Call} : Backed areas mmaps → Holding areas mmaps call (Cut.atReal.steps call)
  | mapped {symbol : MmapSymbol} {addr length offset ret : U64} {prot flags : U32} {fd : ℤ} :
      Backed areas mmaps → (ret, length) ∈ areas → (∀ m ∈ mmaps, m.addr ≠ ret) →
      Holding areas mmaps (.mmap symbol addr length prot flags fd offset ret)
        (.atomic (afterMmap length prot flags offset ret))
  | unmapped {addr length : U64} {ret : ℤ} :
      Backed areas (mmaps.eraseP fun pos => pos.addr == addr) →
      Holding areas mmaps (.munmap addr length ret) (.atomic (afterMunmap addr))
  | done {call : Call} : Backed areas mmaps → Holding areas mmaps call .done
  | fails {call : Call} (e : Halt) : Holding areas mmaps call (.abort e)

theorem Holding.mono {mmaps : List PanwrapMappedMemory} {call : Call} {rest : Section Halt World}
    (h : Holding areas mmaps call rest) (hsub : areas ⊆ areas') :
    Holding areas' mmaps call rest := by
  cases h with
  | starts ht => exact .starts (ht.mono hsub)
  | mapped ht hnew hstart => exact .mapped (ht.mono hsub) (hsub hnew) hstart
  | unmapped ht => exact .unmapped (ht.mono hsub)
  | done ht => exact .done (ht.mono hsub)
  | fails e => exact .fails e

/-- A call gives the mutex back with a table whose mappings are areas. -/
theorem Holding.backed {mmaps : List PanwrapMappedMemory} {call : Call}
    (h : Holding areas mmaps call .done) : Backed areas mmaps := by
  generalize hsection : Section.done = x at h
  cases h with
  | starts ht | mapped ht | done ht => exact ht
  | unmapped | fails => cases hsection

/-- The first step of a call under the mutex. -/
theorem Holding.first {call : Call} {f : World → World} {rest : World → Section Halt World}
    (hareas : NoneEmpty areas) (hfree : call.MapsFree)
    (ht : Backed areas w.tracker.mmaps) (hsection : .step f rest = Cut.atReal.steps call)
    (hkernel : KernelMaps (some call.answer) (realCalls (newEvents w (f w))) areas areas') :
    Holding areas' (f w).tracker.mmaps call (rest w) := by
  have hstays (hcall : call.Stays) : Holding areas' (f w).tracker.mmaps call (rest w) := by
    obtain ⟨hmmaps, rfl, hrest⟩ | ⟨e, hrest⟩ := hcall.step hsection hkernel
    · rw [hrest, hmmaps]
      exact .done ht
    · rw [hrest]
      exact .fails e
  cases call with
  | «open» | close | ioctl => exact hstays trivial
  | mmap symbol addr length prot flags fd offset ret =>
    cases hsection
    rw [realCalls_emit] at hkernel
    obtain ⟨v, between, hv, hremaps, rfl⟩ := hkernel
    cases hv
    obtain ⟨hflags, hok⟩ := hfree
    obtain ⟨rfl, -⟩ | ⟨-, hmaps⟩ := hremaps
    · exact absurd rfl hok
    -- no tracked mapping begins in memory that was free
    · rw [MapsArea, if_neg (not_not.mpr hflags)] at hmaps
      obtain ⟨hfresh, rfl⟩ := hmaps
      refine .mapped (ht.mono (Set.subset_insert _ _)) (Set.mem_insert _ _) fun m hm => ?_
      exact hfresh.start_ne hareas (ht.mapped m hm)
  | munmap addr length ret =>
    cases hsection
    rw [realCalls_emit] at hkernel
    obtain ⟨v, between, hv, hremaps, rfl⟩ := hkernel
    cases hv
    obtain ⟨-, rfl⟩ | ⟨-, -, rfl⟩ := hremaps
    -- also where the kernel has refused, the mapping leaves the table
    · exact .unmapped (ht.erase addr)
    · exact .unmapped (ht.unmap addr length)

/-- What has begun of a call that neither maps nor unmaps is its only step. -/
theorem Holding.eq_steps {mmaps : List PanwrapMappedMemory} {call : Call} (hcall : call.Stays)
    {f : World → World} {rest : World → Section Halt World}
    (h : Holding areas mmaps call (.step f rest)) : .step f rest = Cut.atReal.steps call := by
  generalize hsection : Section.step f rest = x at h
  cases h with
  | starts => rfl
  | mapped | unmapped => exact hcall.elim
  | done | fails => cases hsection

/-- The step after the real call, in which nothing is asked of the kernel. -/
theorem Holding.last {call : Call} {m : Wrap Unit} {f : World → World}
    {rest : World → Section Halt World} {answer : Option Value}
    (hsection : .step f rest = Section.atomic m)
    (hm : ∀ w', m w = .ok () w' →
      Backed areas w'.tracker.mmaps ∧ realCalls (newEvents w w') = [])
    (hkernel : KernelMaps answer (realCalls (newEvents w (f w))) areas areas') :
    Holding areas' (f w).tracker.mmaps call (rest w) := by
  obtain ⟨hw, hrest⟩ | ⟨e, -, hrest⟩ := Section.atomic_step hsection w
  · obtain ⟨hbacked, hcalls⟩ := hm (f w) hw
    rw [hcalls] at hkernel
    obtain rfl : areas' = areas := hkernel
    rw [hrest]
    exact .done hbacked
  · rw [hrest]
    exact .fails e

theorem Holding.inner {call : Call} {f : World → World} {rest : World → Section Halt World}
    (hareas : NoneEmpty areas) (hfree : call.MapsFree)
    (h : Holding areas w.tracker.mmaps call (.step f rest))
    (hkernel : KernelMaps (some call.answer) (realCalls (newEvents w (f w))) areas areas') :
    Holding areas' (f w).tracker.mmaps call (rest w) := by
  generalize hsection : Section.step f rest = x at h
  cases h with
  | starts ht => exact Holding.first hareas hfree ht hsection hkernel
  | mapped ht hnew hstart =>
    refine Holding.last hsection (fun w' hw => ?_) hkernel
    obtain ⟨htracker, hcalls⟩ := afterMmap_ok hw
    rw [htracker]
    exact ⟨ht.map hnew hstart, hcalls⟩
  | unmapped ht =>
    refine Holding.last hsection (fun w' hw => ?_) hkernel
    obtain ⟨htracker, hcalls⟩ := afterMunmap_ok hw
    rw [htracker]
    exact ⟨ht, hcalls⟩
  | done | fails => cases hsection

end UnderLock

end Panloader
