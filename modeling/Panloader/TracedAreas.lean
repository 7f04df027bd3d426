import Panloader.MappedAreas

/-! Tracing while other threads map and unmap memory. Where a decoder runs, every tracked mapping
is memory that the kernel has mapped, and nothing is unmapped before the decoder is done. -/
namespace Panloader
open Effects LockedSections Relation

section Outside

/-- What a call does without the mutex takes no memory away. -/
theorem Call.program_takes_nothing {call : Call} (hcall : call.MapsFree) (next : WrapProgram) :
    (call.program next).Finishes fun _ as =>
      ∃ cs' as', next.Goes cs' as' .finished ∧ ∀ a ∈ as, a.takes = false ∨ a ∈ as' := by
  let R (as : List RealCall) : Prop :=
    ∃ cs' as', next.Goes cs' as' .finished ∧ ∀ a ∈ as, a.takes = false ∨ a ∈ as'
  have hnext : next.Finishes fun _ => R := fun cs as h => ⟨cs, as, h, fun a ha => .inr ha⟩
  have hact {a : RealCall} {p : WrapProgram} (ha : a.takes = false)
      (hp : p.Finishes fun _ => R) : (Program.act a p).Finishes fun _ => R := by
    apply Program.Finishes.act
    intro cs as h
    obtain ⟨cs', as', hgoes, has⟩ := hp cs as h
    refine ⟨cs', as', hgoes, fun b hb => ?_⟩
    obtain rfl | hb := List.mem_cons.mp hb
    · exact .inl ha
    · exact has b hb
  have hlocked {p : WrapProgram} (hp : p.Finishes fun _ => R) :
      (Program.locked call p).Finishes fun _ => R := .locked hp
  show (call.program next).Finishes fun _ => R
  cases call with
  | «open» => exact hact rfl (hlocked hnext)
  | close fd ret =>
    have hother := hact (a := .close fd) rfl hnext
    exact hother.ite (finishes_testMaliFd hother (hlocked hother))
  | ioctl => exact (hlocked hnext).ite (.peek fun _ => (hact rfl hnext).ite (hlocked hnext))
  | mmap =>
    refine finishes_testMaliFd (hact ?_ hnext) (hlocked hnext)
    exact decide_eq_false (not_not.mpr hcall.1)
  | munmap => exact hlocked hnext

theorem threadProgram_takes_nothing {calls cs : List Call} {as : List RealCall}
    (hcalls : ∀ call ∈ calls, call.MapsFree) (h : (threadProgram calls).Goes cs as .finished) :
    ∀ a ∈ as, a.takes = false := by
  induction calls generalizing cs as with
  | nil =>
    cases h
    exact fun a ha => absurd ha List.not_mem_nil
  | cons call calls ih =>
    obtain ⟨hcall, hlater⟩ := List.forall_mem_cons.mp hcalls
    obtain ⟨cs', as', hrest, has⟩ := Call.program_takes_nothing hcall _ cs as h
    intro a ha
    exact (has a ha).elim id (ih hlater hrest a)

variable {τ : Type} [DecidableEq τ] {w : World} {calls : τ → List Call} {cut : Cut}
  {m : Machine τ Halt World Call RealCall} {t : τ}

theorem outside_takes_nothing (hmaps : ∀ t, ∀ call ∈ calls t, call.MapsFree)
    (h : Reaches cut.steps (startThreads w calls) m) {a : RealCall} {next : WrapProgram}
    (ht : m.thread t = .outside (.act a next)) : a.takes = false := by
  have hway := Reaches.onTheWay h t
  rw [ht] at hway
  have hworld : Nonempty World := ⟨w⟩
  obtain ⟨cs, as, hrest⟩ := next.exists_goes
  apply threadProgram_takes_nothing (hmaps t) (hway.trans (.act hrest))
  exact List.mem_append_right _ List.mem_cons_self

/-- A call that has taken the mutex is one of the thread's calls. -/
theorem entered_mem (h : Reaches cut.steps (startThreads w calls) m) {call : Call}
    (hcall : underWay m = some call) : ∃ t, call ∈ calls t := by
  obtain ⟨⟨t, _⟩, hlast, rfl⟩ := Option.map_eq_some_iff.mp hcall
  refine ⟨t, (enteredBy_sublist cut h t).subset ?_⟩
  apply List.mem_map.mpr
  exact ⟨_, List.mem_filter.mpr ⟨List.mem_of_getLast? hlast, decide_eq_true rfl⟩, rfl⟩

end Outside

section Turns

variable {τ : Type} {p : Mapped τ} {m : Machine τ Halt World Call RealCall} {t : τ}
  {rest : Section Halt World} {next : WrapProgram} {call : Call}

/-- What holds between the table, the threads and the areas. -/
structure Mapped.Sound (p : Mapped τ) : Prop where
  noneEmpty : NoneEmpty p.areas
  free : p.machine.holder = none → Backed p.areas p.machine.shared.tracker.mmaps
  held : ∀ t rest next, p.machine.thread t = .inside rest next → ∃ call,
    underWay p.machine = some call ∧ Holding p.areas p.machine.shared.tracker.mmaps call rest

/-- The mutex is free or an `ioctl` has it, and no decoder has ended the program. -/
structure MayTrace (m : Machine τ Halt World Call RealCall) : Prop where
  ioctl : m.holder ≠ none → ∃ fd request arg env, underWay m = some (.ioctl fd request arg env)
  goes_on : ∀ t e next, m.thread t ≠ .inside (.abort e) next

/-- Whoever has the mutex unmaps nothing. -/
theorem MayTrace.stays (h : MayTrace m) (hexclusive : m.Exclusive)
    (ht : m.thread t = .inside rest next) (hcall : underWay m = some call) : call.Stays := by
  have hheld : m.holder ≠ none := by
    rw [hexclusive.holder ht]
    exact Option.some_ne_none t
  obtain ⟨fd, request, arg, env, hioctl⟩ := h.ioctl hheld
  rw [hioctl] at hcall
  cases hcall
  trivial

theorem Holding.backed_of_stays {areas : Set Area} {mmaps : List PanwrapMappedMemory}
    (hcall : call.Stays) (h : Holding areas mmaps call rest) (hgo : ∀ e, rest ≠ .abort e) :
    Backed areas mmaps := by
  cases h with
  | starts hbacked | done hbacked => exact hbacked
  | mapped | unmapped => exact hcall.elim
  | fails e => exact absurd rfl (hgo e)

theorem Mapped.Sound.backed (h : p.Sound) (hexclusive : p.machine.Exclusive)
    (hturn : MayTrace p.machine) : Backed p.areas p.machine.shared.tracker.mmaps := by
  cases hholder : p.machine.holder with
  | none => exact h.free hholder
  | some t =>
    obtain ⟨rest, next, ht⟩ := (hexclusive t).mp hholder
    obtain ⟨call, hcall, hholding⟩ := h.held t rest next ht
    apply hholding.backed_of_stays (hturn.stays hexclusive ht hcall)
    rintro e rfl
    exact hturn.goes_on t e next ht

end Turns

section Runs

variable {τ : Type} [DecidableEq τ] {w : World} {calls : τ → List Call} {p p' : Mapped τ}

/-- A thread that stays outside, while nothing is unmapped. -/
theorem Mapped.Sound.outside (h : p.Sound) {t : τ} {q : WrapProgram} {areas' : Set Area}
    {acted : List (τ × RealCall)} (hareas : NoneEmpty areas') (hgrows : p.areas ⊆ areas') :
    Mapped.Sound
      { machine := { p.machine.become t (.outside q) with acted := acted }, areas := areas' } where
  noneEmpty := hareas
  free hfree := (h.free hfree).mono hgrows
  held u rest next hu := by
    by_cases hut : u = t
    · subst hut
      have hself := hu.symm.trans (Machine.become_self (m := p.machine))
      cases hself
    · have hold : p.machine.thread u = .inside rest next :=
        (Machine.become_other hut).symm.trans hu
      obtain ⟨call, hcall, hholding⟩ := h.held u rest next hold
      exact ⟨call, hcall, hholding.mono hgrows⟩

/-- A step of the thread that has the mutex, or takes it. -/
theorem Mapped.Sound.inside {t : τ} {call : Call} {rest : Section Halt World}
    {next : WrapProgram} {m' : Machine τ Halt World Call RealCall} {areas' : Set Area}
    (hareas : NoneEmpty areas') (hothers : ∀ u ≠ t, ∀ r q, p.machine.thread u ≠ .inside r q)
    (hthread : m'.thread = Function.update p.machine.thread t (.inside rest next))
    (hholder : m'.holder = some t) (hcall : underWay m' = some call)
    (hholding : Holding areas' m'.shared.tracker.mmaps call rest) :
    Mapped.Sound { machine := m', areas := areas' } where
  noneEmpty := hareas
  free hfree := by
    rw [show m'.holder = none from hfree] at hholder
    cases hholder
  held u r q hu := by
    rw [show m'.thread u = _ from congrFun hthread u] at hu
    by_cases hut : u = t
    · subst hut
      rw [Function.update_self] at hu
      cases hu
      exact ⟨call, hcall, hholding⟩
    · rw [Function.update_of_ne hut] at hu
      exact absurd hu (hothers u hut r q)

theorem Mapped.Sound.step (hreach : Reaches Cut.atReal.steps (startThreads w calls) p.machine)
    (hmaps : ∀ t, ∀ call ∈ calls t, call.MapsFree) (h : p.Sound)
    (hstep : MappedStep p p') : p'.Sound := by
  have hexclusive := Reaches.exclusive hreach
  have hothers {t u : τ} (ht : p.machine.holder = some t) (hut : u ≠ t) :
      ∀ r q, p.machine.thread u ≠ .inside r q := by
    intro r q hu
    rw [hexclusive.holder hu] at ht
    exact hut (Option.some.inj ht)
  cases hstep with
  | outside t _ ht hremaps =>
    exact h.outside (hremaps.noneEmpty h.noneEmpty)
      (hremaps.grows (outside_takes_nothing hmaps hreach ht))
  | @wrapper m' areas' hstep hacted hkernel =>
    have hareas := hkernel.noneEmpty h.noneEmpty
    cases hstep with
    | peek t _ ht =>
      obtain rfl : areas' = p.areas := KernelMaps.still (w := p.machine.shared) hkernel
      exact h.outside hareas subset_rfl
    | act t _ ht => exact absurd hacted (by simp)
    | @enter t call next _ ht hfree =>
      obtain rfl : areas' = p.areas := KernelMaps.still (w := p.machine.shared) hkernel
      have hnone : ∀ u ≠ t, ∀ r q, p.machine.thread u ≠ .inside r q := by
        intro u _ r q hu
        rw [hexclusive.holder hu] at hfree
        cases hfree
      have hcall : (p.machine.entered ++ [(t, call)]).getLast?.map Prod.snd = some call := by
        rw [List.getLast?_append_of_ne_nil _ (List.cons_ne_nil _ _)]
        rfl
      exact Mapped.Sound.inside hareas hnone rfl rfl hcall (.starts (h.free hfree))
    | @inner t f rest next _ ht =>
      have hholder := hexclusive.holder ht
      obtain ⟨call, hcall, hholding⟩ := h.held t _ next ht
      obtain ⟨u, hu⟩ := entered_mem hreach hcall
      rw [hcall] at hkernel
      exact Mapped.Sound.inside hareas (fun u hu => hothers hholder hu) rfl hholder hcall
        (hholding.inner h.noneEmpty (hmaps u call hu) hkernel)
    | @leave t next _ ht =>
      obtain rfl : areas' = p.areas := KernelMaps.still (w := p.machine.shared) hkernel
      obtain ⟨call, -, hholding⟩ := h.held t _ next ht
      have hout : Mapped.Sound { p with machine := p.machine.become t (.outside next) } :=
        h.outside hareas subset_rfl
      exact { hout with free := fun _ => hholding.backed }
    | abort t _ ht =>
      obtain rfl : areas' = p.areas := KernelMaps.still (w := p.machine.shared) hkernel
      exact ⟨h.noneEmpty, h.free, h.held⟩

theorem Mapped.Sound.reaches {areas : Set Area} (hareas : NoneEmpty areas)
    (hbacked : Backed areas w.tracker.mmaps)
    (hmaps : ∀ t, ∀ call ∈ calls t, call.MapsFree)
    (h : MappedReaches { machine := startThreads w calls, areas := areas } p) : p.Sound := by
  induction h with
  | refl =>
    refine ⟨hareas, fun _ => hbacked, fun t rest next ht => ?_⟩
    cases ht
  | tail hreach hstep ih => exact ih.step (MappedReaches.machine hreach) hmaps hstep

/-- While there may be tracing nothing is unmapped. -/
theorem MappedStep.grows (hreach : Reaches Cut.atReal.steps (startThreads w calls) p.machine)
    (hmaps : ∀ t, ∀ call ∈ calls t, call.MapsFree) (h : p.Sound) (hturn : MayTrace p.machine)
    (hstep : MappedStep p p')
    (hstill : MayTrace p'.machine) : p.areas ⊆ p'.areas := by
  have hexclusive := Reaches.exclusive hreach
  cases hstep with
  | outside t _ ht hremaps => exact hremaps.grows (outside_takes_nothing hmaps hreach ht)
  | @wrapper m' areas' hstep hacted hkernel =>
    have hsame : areas' = p.areas := by
      cases hstep with
      | peek | enter | leave | abort => exact KernelMaps.still (w := p.machine.shared) hkernel
      | act => exact absurd hacted (by simp)
      | @inner t f rest next _ ht =>
        obtain ⟨call, hcall, hholding⟩ := h.held t _ next ht
        have hstays : call.Stays := hturn.stays hexclusive ht hcall
        obtain ⟨-, hsame, -⟩ | ⟨e, hrest⟩ := hstays.step (hholding.eq_steps hstays) hkernel
        · exact hsame
        · have hend := hstill.goes_on t e next
          rw [← hrest] at hend
          exact absurd (Machine.become_self (m := p.machine)) hend
    exact hsame.ge

end Runs

section Tracing

variable {τ : Type} [DecidableEq τ] {w : World} {calls : τ → List Call} {p : Mapped τ}

/-- Threads map and unmap memory while others make calls on the device. As long as each `munmap`
is of a whole area, no `mmap` fails and none is over memory that is mapped already, every tracked
mapping is memory that the kernel has mapped whenever an `ioctl` may be decoded, nothing is
unmapped meanwhile, and so tracing a job reads only mapped memory. -/
theorem traced_memory_is_mapped {areas : Set Area} (hareas : NoneEmpty areas)
    (hbacked : Backed areas w.tracker.mmaps)
    (hmaps : ∀ t, ∀ call ∈ calls t, call.MapsFree)
    (h : MappedReaches { machine := startThreads w calls, areas := areas } p)
    (hturn : MayTrace p.machine) :
    (∀ m ∈ p.machine.shared.tracker.mmaps, (m.addr, m.length) ∈ p.areas) ∧
    (∀ p', MappedStep p p' → MayTrace p'.machine → p.areas ⊆ p'.areas) ∧
    ∀ mem jc, (∀ m ∈ p.machine.shared.tracker.mmaps,
        m.flags &&& maliMemSameVa ≠ 0 ∨ m.Symmetric) →
      (∀ m ∈ p.machine.shared.tracker.mmaps, m.gpuVa.toNat + m.length.toNat ≤ 2^63) →
      (∀ attr, JobNames p.machine.shared.tracker mem jc attr →
        (mem.read (attr + 16) 8).toNat < 2^63) →
      ∀ a n, .load a n ∈ World.eventsOf { p.machine.shared with mem := mem }
          (panwrapTraceHwChain jc) →
        ∃ A ∈ p.areas, (a - A.1).toNat + n ≤ A.2.toNat := by
  have hsound := Mapped.Sound.reaches hareas hbacked hmaps h
  have hreach := MappedReaches.machine h
  have htable := hsound.backed (Reaches.exclusive hreach) hturn
  refine ⟨htable.mapped, fun p' hstep hstill => hstep.grows hreach hmaps hsound hturn hstill, ?_⟩
  intro mem jc hsame hlow hsizes a n hload
  have ht : p.machine.shared.tracker.Translates := by
    refine ⟨fun m hm => ?_, hlow⟩
    rcases hsame m hm with hflag | hsym
    · exact .inl (htable.sameVa m hm hflag)
    · exact hsym
  have hsees : Sees p.machine.shared.tracker mem { p.machine.shared with mem := mem } := ⟨rfl, rfl⟩
  obtain ⟨m, hm, hle⟩ := (confined_chain ht hsizes).eventsOf hsees _ hload
  exact ⟨_, htable.mapped m hm, hle⟩

/-- The device is open as descriptor 3, and the page at 0x1000 is tracked. -/
def lowWorld : World := { World.plain with maliFd := 3, tracker := ⟨[], [lowPage]⟩ }

/-- A submission without atoms. -/
def decodedCall : Call :=
  .ioctl 3 0xc018821c (some 0x2000) ⟨bareVertexJob, bareVertexJob, 0, 0, false⟩

/-- One thread makes a call that is decoded; the other maps a page and unmaps it. -/
def traceAndMap : Bool → List Call
  | true => [decodedCall]
  | false => [.mmap .mmap64 0 0x1000 3 2 7 0 0x5000, .munmap 0x5000 0x1000 0]

abbrev beforeMapping : Mapped Bool where
  machine := startThreads lowWorld traceAndMap
  areas := {(0x1000, 0x1000)}

/-- While the first thread has the mutex, the other has its page and waits to unmap it. -/
theorem traceAndMap_reaches : ∃ p : Mapped Bool, MappedReaches beforeMapping p ∧
    p.machine.shared = lowWorld ∧ underWay p.machine = some decodedCall ∧
    p.machine.thread true = .inside (Cut.atReal.steps decodedCall) .finished ∧
    p.machine.thread false = .outside (.locked (.munmap 0x5000 0x1000 0) .finished) ∧
    p.areas = {(0x5000, 0x1000), (0x1000, 0x1000)} := by
  have hfresh : Fresh {(0x1000, 0x1000)} (0x5000, 0x1000) := by
    refine ⟨by decide, fun B hB a hnew hold => ?_⟩
    obtain rfl : B = (0x1000, 0x1000) := hB
    rw [Area.Has, BitVec.toNat_sub] at hnew hold
    have ha := a.isLt
    simp at hnew hold
    omega
  have hseen : MappedReaches beforeMapping _ := .single (.wrapper (.peek true rfl rfl) rfl rfl)
  have hentered := hseen.tail (.wrapper (.enter true rfl rfl rfl) rfl rfl)
  have hlooked := hentered.tail (.wrapper (.peek false rfl rfl) rfl rfl)
  have htested := hlooked.tail (.wrapper (.peek false rfl rfl) rfl rfl)
  have hmaps : MapsArea {(0x1000, 0x1000)} {(0x5000, 0x1000), (0x1000, 0x1000)} 2 (0x5000, 0x1000) :=
    ⟨hfresh, rfl⟩
  have hmapped := htested.tail (.outside false rfl rfl (v := .ptr 0x5000)
    (.inr ⟨by decide, hmaps⟩))
  exact ⟨_, hmapped, rfl, rfl, rfl, rfl, rfl⟩

theorem traced_memory_is_mapped_waiting : ∃ p : Mapped Bool, MappedReaches beforeMapping p ∧
    p.machine.thread false = .outside (.locked (.munmap 0x5000 0x1000 0) .finished) ∧
    ∀ a n, .load a n ∈ World.eventsOf { p.machine.shared with mem := bareVertexJob }
        (panwrapTraceHwChain 0x1000) →
      ∃ A ∈ p.areas, (a - A.1).toNat + n ≤ A.2.toNat := by
  obtain ⟨p, hreach, hshared, hcall, htrue, hfalse, -⟩ := traceAndMap_reaches
  have hareas : NoneEmpty {((0x1000, 0x1000) : Area)} := by
    rintro A rfl
    decide
  have hlow {P : PanwrapMappedMemory → Prop} (hP : P lowPage) :
      ∀ m ∈ lowWorld.tracker.mmaps, P m := by
    intro m hm
    obtain rfl : m = lowPage := List.mem_singleton.mp hm
    exact hP
  have hbacked : Backed {((0x1000, 0x1000) : Area)} lowWorld.tracker.mmaps :=
    ⟨hlow rfl, List.pairwise_singleton _ _, hlow fun _ => rfl⟩
  have hmaps : ∀ t, ∀ call ∈ traceAndMap t, call.MapsFree := by decide
  have hturn : MayTrace p.machine := by
    refine ⟨fun _ => ⟨_, _, _, _, hcall⟩, fun t e next ht => ?_⟩
    cases t with
    | true =>
      rw [htrue] at ht
      cases ht
    | false =>
      rw [hfalse] at ht
      cases ht
  have hjob := (traced_memory_is_mapped hareas hbacked hmaps hreach hturn).2.2 bareVertexJob 0x1000
  rw [hshared] at hjob
  refine ⟨p, hreach, hfalse, ?_⟩
  rw [hshared]
  apply hjob (hlow (.inr (.inl rfl))) (hlow (by decide))
  exact fun attr hnames => absurd hnames (bareVertexJob_names attr)

end Tracing

end Panloader
