import Panloader.PanwrapThreads
import Panloader.Runs

/-! Calls of several threads. In whatever order their steps come, the parts that hold the mutex
act as if each were made at one go, in the order in which the mutex was taken. -/
namespace Panloader
open Effects LockedSections

section Alone

/-- The two runs end in the same way and in the same state, up to the program's memory. -/
def EndsAlike {α β : Type} : EStateM.Result Halt World α → EStateM.Result Halt World β → Prop
  | .ok _ w, .ok _ w' => w = { w' with mem := w.mem }
  | .error h w, .error h' w' => h = h' ∧ w = { w' with mem := w.mem }
  | _, _ => False

theorem EndsAlike.of_map {α β : Type} {m : Wrap α} {m' : Wrap β} (f : β → α) (h : m = f <$> m')
    (w : World) : EndsAlike (m w) (m' w) := by
  rw [h]
  change EndsAlike (EStateM.map f m' w) (m' w)
  unfold EStateM.map
  cases m' w with
  | ok a w' => rfl
  | error e w' => exact ⟨rfl, rfl⟩

theorem EndsAlike.value {α : Type} {r : EStateM.Result Halt World Unit} {m : Wrap α} {w : World}
    (f : α → Value) (h : EndsAlike r (m w)) : EndsAlike r ((f <$> m) w) := by
  change EndsAlike r (EStateM.map f m w)
  unfold EStateM.map
  cases hr : m w with
  | ok a w' =>
    rw [hr] at h
    cases r <;> exact h
  | error e w' =>
    rw [hr] at h
    cases r <;> exact h

theorem alone_peek (next : World → WrapProgram) (w : World) :
    alone (.peek next) w = alone (next w) w := rfl

/-- With no other thread in between, both reads of `mali_fd` give one value. -/
theorem alone_testMaliFd (fd : ℤ) (other mali : WrapProgram) (w : World) :
    alone (testMaliFd fd other mali) w =
      if w.maliFd = 0 ∨ fd ≠ w.maliFd then alone other w else alone mali w := by
  rw [testMaliFd, alone_peek]
  by_cases h0 : w.maliFd = 0
  · rw [if_pos h0, if_pos (.inl h0)]
  · rw [if_neg h0, alone_peek]
    by_cases hfd : fd ≠ w.maliFd
    · rw [if_pos hfd, if_pos (.inr hfd)]
    · rw [if_neg hfd, if_neg (not_or.mpr ⟨h0, hfd⟩)]

theorem alone_close (fd ret : ℤ) (w : World) :
    EndsAlike (alone ((Call.close fd ret).program .finished) w) (Panloader.close fd ret w) := by
  have hclose : Panloader.close fd ret w = (if fd ≤ 0 ∨ w.maliFd = 0 ∨ fd ≠ w.maliFd then
      orig (.close fd) ret
    else do
      lock
      noteClosed fd
      unlock
      orig (.close fd) ret : Wrap ℤ) w := rfl
  rw [hclose, Call.program]
  by_cases hfd : fd ≤ 0
  · rw [if_pos hfd, if_pos (.inl hfd)]
    rfl
  · rw [if_neg hfd, alone_testMaliFd]
    by_cases hmali : w.maliFd = 0 ∨ fd ≠ w.maliFd
    · rw [if_pos hmali, if_pos (.inr hmali)]
      rfl
    · rw [if_neg hmali, if_neg (not_or.mpr ⟨hfd, hmali⟩)]
      apply EndsAlike.of_map fun _ => ()
      simp only [alone, Call.underLock, map_bind]
      rfl

theorem alone_mmap (symbol : MmapSymbol) (addr length : U64) (prot flags : U32) (fd : ℤ)
    (offset ret : U64) (w : World) :
    EndsAlike (alone ((Call.mmap symbol addr length prot flags fd offset ret).program .finished) w)
      (panwrapMmapWrap symbol addr length prot flags fd offset ret w) := by
  have hmmap : panwrapMmapWrap symbol addr length prot flags fd offset ret w =
      (if w.maliFd = 0 ∨ fd ≠ w.maliFd then
        orig (.mmap symbol addr length prot flags fd offset) ret
      else do
        lock
        let ret ← orig (.mmap symbol addr length prot flags fd offset) ret
        panwrapFreezeTime
        panwrapTrackMmap offset ret length prot flags
        panwrapUnfreezeTime
        unlock
        pure ret : Wrap U64) w := rfl
  rw [hmmap, Call.program, alone_testMaliFd]
  by_cases hmali : w.maliFd = 0 ∨ fd ≠ w.maliFd
  · rw [if_pos hmali, if_pos hmali]
    rfl
  · rw [if_neg hmali, if_neg hmali]
    apply EndsAlike.of_map fun _ => ()
    simp only [alone, Call.underLock, map_bind, map_pure, bind_assoc]

theorem alone_ioctl (fd : ℤ) (request : U32) (arg : Option U64) (env : IoctlEnv) (w : World) :
    EndsAlike (alone ((Call.ioctl fd request arg env).program .finished) w)
      (Panloader.ioctl fd request arg env w) := by
  let before : World := { w with mem := env.before }
  let ptr := ioctlPtr request arg env.junk
  have hioctl : Panloader.ioctl fd request arg env w = (if fd ≠ 0 ∧ fd ≠ w.maliFd then
      origIoctl fd request ptr env
    else do
      lock
      panwrapFreezeTime
      lookUpName request env
      let ret ← (if ptr = 0 then ioctlNoArguments fd request env
        else ioctlDecoded fd request ptr env)
      panwrapUnfreezeTime
      unlock
      pure ret : Wrap ℤ) before := rfl
  have halone : alone ((Call.ioctl fd request arg env).program .finished) w =
      if fd ≠ 0 ∧ fd ≠ w.maliFd then alone (.act (.ioctl fd request ptr) .finished) w
      else alone (.locked (.ioctl fd request arg env) .finished) w := by
    rw [Call.program]
    by_cases h0 : fd = 0
    · rw [if_pos h0, if_neg fun h => h.1 h0]
    · rw [if_neg h0, alone_peek]
      by_cases hfd : fd ≠ w.maliFd
      · rw [if_pos hfd, if_pos ⟨h0, hfd⟩]
      · rw [if_neg hfd, if_neg fun h => hfd h.2]
  rw [hioctl, halone]
  by_cases hother : fd ≠ 0 ∧ fd ≠ w.maliFd
  · rw [if_pos hother, if_pos hother]
    rfl
  · rw [if_neg hother, if_neg hother]
    let body : Wrap ℤ := do
      panwrapFreezeTime
      lookUpName request env
      let ret ← (if ptr = 0 then ioctlNoArguments fd request env
        else ioctlDecoded fd request ptr env)
      panwrapUnfreezeTime
      unlock
      pure ret
    have hbody : (do
        panwrapFreezeTime
        lookUpName request env
        let _ ← (if ptr = 0 then ioctlNoArguments fd request env
          else ioctlDecoded fd request ptr env)
        panwrapUnfreezeTime
        unlock
        pure () : Wrap Unit) = (fun _ => ()) <$> body := by
      simp only [body, map_bind, map_pure]
    cases hlocked : w.locked with
    | true =>
      have hdeadlock (u : World) (hu : u.locked = true) : lock u = .error .deadlock u := if_pos hu
      rw [bind_error (hdeadlock before hlocked), alone, bind_error (hdeadlock w hlocked)]
      exact ⟨rfl, rfl⟩
    | false =>
      have htake (u : World) (hu : u.locked = false) :
          lock u = .ok () { u with locked := true } := if_neg (by rw [hu]; exact Bool.false_ne_true)
      have hset : setMem env.before { w with locked := true } =
          .ok () { before with locked := true } := rfl
      rw [bind_ok (htake before hlocked), alone, bind_ok (htake w hlocked), Call.underLock,
        bind_assoc, bind_ok hset]
      simp only [bind_assoc, alone]
      exact EndsAlike.of_map _ hbody _

/-- `alone` is the sequential model of a call. -/
theorem Call.alone_exec (call : Call) (w : World) :
    EndsAlike (alone (call.program .finished) w) (call.exec w) := by
  cases call with
  | «open» symbol path flags mode ret =>
    apply EndsAlike.of_map fun _ => ()
    simp only [Call.program, alone, Call.exec, panwrapOpenWrap, Call.underLock, map_bind, map_pure]
    rfl
  | close fd ret => exact (alone_close fd ret w).value Value.int
  | ioctl fd request arg env => exact (alone_ioctl fd request arg env w).value Value.int
  | mmap symbol addr length prot flags fd offset ret =>
    exact (alone_mmap symbol addr length prot flags fd offset ret w).value Value.ptr
  | munmap addr length ret =>
    apply EndsAlike.value Value.int
    apply EndsAlike.of_map fun _ => ()
    simp only [Call.program, alone, Panloader.munmap, Call.underLock, map_bind, map_pure,
      bind_assoc]

end Alone

section UnderLock

/-- What a call asks of the tracker once it has the mutex. -/
def Call.lockedEvent : Call → Option TrackEvent
  | .ioctl _ request arg env =>
    if ioctlPtr request arg env.junk ≠ 0 ∧ IsMemAlloc request then
      some (.record (memAllocRecord env.after (ioctlPtr request arg env.junk)))
    else none
  | .mmap _ _ length prot _ _ offset ret => some (.map offset ret length prot)
  | .munmap addr _ _ => some (.unmap addr)
  | _ => none

/-- The state in which a call leaves the wrapper when it gives the mutex back. -/
def Call.stageUnderLock (st : Stage) : Call → Stage
  | .open _ path _ _ ret =>
    { st with maliFd := if ret ≠ -1 ∧ path = "/dev/mali0" then ret else st.maliFd }
  | .close fd _ =>
    { st with maliFd := if st.maliFd ≠ 0 ∧ fd = st.maliFd then 0 else st.maliFd }
  | .ioctl fd request arg env =>
    { st with
      mem := env.after
      frozen := !st.timestamps && st.frozen
      tracker := st.tracker.applyOption (Call.ioctl fd request arg env).lockedEvent }
  | call =>
    { st with
      frozen := !st.timestamps && st.frozen
      tracker := st.tracker.applyOption call.lockedEvent }

/-- The real calls made with the mutex held. -/
def Call.callsUnderLock : Call → List RealCall
  | .open _ _ _ _ _ => []
  | .close _ _ => []
  | call => [call.forwarded]

/-- The real calls that a call makes without the mutex if it takes it. -/
def Call.callsOutside : Call → List RealCall
  | .open symbol path flags mode ret => [(Call.open symbol path flags mode ret).forwarded]
  | .close fd ret => [(Call.close fd ret).forwarded]
  | _ => []

theorem Call.underLock_ensures (w₀ : World) (call : Call) :
    Ensures (fun w => w = w₀) call.underLock
      (fun _ => At w₀ (call.stageUnderLock w₀.stage) call.callsUnderLock indentBound 0 indentBound)
      (fun _ => Stopped w₀ indentBound) := by
  rintro w rfl
  have hstart := At.start w indentBound
  cases call with
  | «open» symbol path flags mode ret =>
    rw [Call.underLock]
    by_cases hret : ret ≠ -1
    · rw [if_pos hret]
      simp only [Call.stageUnderLock, hret, true_and, ne_eq, not_false_eq_true]
      exact noteOpened_ensures path ret w hstart
    · rw [if_neg hret]
      simp only [Call.stageUnderLock, hret, false_and, if_false]
      exact hstart
  | close fd ret => exact noteClosed_ensures fd w hstart
  | ioctl fd request arg env =>
    have hbody : Ensures (At w w.stage [] indentBound 0 (0+8))
        (Call.ioctl fd request arg env).underLock
        (fun _ => At w ((Call.ioctl fd request arg env).stageUnderLock w.stage)
          (Call.ioctl fd request arg env).callsUnderLock indentBound 0 (0+8))
        (fun _ => Stopped w indentBound) := by
      apply (setMem_ensures env.before).bind
      intro _
      apply panwrapFreezeTime_ensures.bind
      intro _
      apply (lookUpName_ensures fun _ _ hw => ⟨_, hw.since⟩).bind
      intro _
      apply (ioctlBody_ensures fd request _ env).bind_eq
      apply panwrapUnfreezeTime_ensures.mono
      · intro _ u hu
        rw [unfrozen_again] at hu
        exact hu
      · exact fun _ _ hu => hu
    exact hbody w hstart
  | mmap symbol addr length prot flags fd offset ret =>
    have hbody : Ensures (At w w.stage [] indentBound 0 indentBound)
        (Call.mmap symbol addr length prot flags fd offset ret).underLock
        (fun _ => At w ((Call.mmap symbol addr length prot flags fd offset ret).stageUnderLock
          w.stage) (Call.mmap symbol addr length prot flags fd offset ret).callsUnderLock
          indentBound 0 indentBound) (fun _ => Stopped w indentBound) := by
      apply (orig_ensures _ ret).bind_eq
      apply panwrapFreezeTime_ensures.bind
      intro _
      apply (panwrapTrackMmap_ensures offset ret length prot flags).bind
      intro _
      apply panwrapUnfreezeTime_ensures.mono
      · intro _ u hu
        rw [unfrozen_once] at hu
        exact hu
      · exact fun _ _ hu => hu
    exact hbody w hstart
  | munmap addr length ret =>
    have hbody : Ensures (At w w.stage [] indentBound 0 indentBound)
        (Call.munmap addr length ret).underLock
        (fun _ => At w ((Call.munmap addr length ret).stageUnderLock w.stage)
          (Call.munmap addr length ret).callsUnderLock indentBound 0 indentBound)
        (fun _ => Stopped w indentBound) := by
      apply (orig_ensures _ ret).bind_eq
      apply panwrapFreezeTime_ensures.bind
      intro _
      apply tracker_ensures.bind_eq
      apply (untrackMunmap_ensures addr).bind
      intro _
      apply panwrapUnfreezeTime_ensures.mono
      · intro _ u hu
        simp only [unfrozen_once] at hu
        exact hu
      · exact fun _ _ hu => hu
    exact hbody w hstart

theorem Call.underLock_tracker {call : Call} {w w' : World} (h : call.underLock w = .ok () w') :
    w'.tracker = w.tracker.applyOption call.lockedEvent := by
  have hstage : w'.stage = call.stageUnderLock w.stage :=
    ((Call.underLock_ensures w call).ok rfl h).stage
  have htracker : (call.stageUnderLock w.stage).tracker =
      w.tracker.applyOption call.lockedEvent := by
    cases call <;> rfl
  exact (congrArg Stage.tracker hstage).trans htracker

theorem AtRest.underLock {call : Call} {w w' : World} (hw : AtRest w)
    (h : call.underLock w = .ok () w') : AtRest w' := by
  have hat := (Call.underLock_ensures w call).ok rfl h
  have hthaw : (!w.stage.timestamps && w.stage.frozen) = false := by
    rw [show w.stage.frozen = false from hw.thawed, Bool.and_false]
  have hlocked : (call.stageUnderLock w.stage).locked = w.locked := by
    cases call <;> rfl
  have hfrozen : (call.stageUnderLock w.stage).frozen = false := by
    cases call with
    | «open» | close => exact hw.thawed
    | ioctl | mmap | munmap => exact hthaw
  have hindent := hat.indent
  rw [hw.flush] at hindent
  refine ⟨?_, ?_, hindent⟩
  · exact (congrArg Stage.locked hat.stage).trans (hlocked.trans hw.unlocked)
  · exact (congrArg Stage.frozen hat.stage).trans hfrozen

theorem inTurn_tracker {calls : List Call} {w w' : World}
    (h : inTurn Call.underLock calls w = .ok () w') :
    w'.tracker = calls.foldl (fun t call => t.applyOption call.lockedEvent) w.tracker := by
  induction calls generalizing w with
  | nil =>
    cases h
    rfl
  | cons call calls ih =>
    obtain ⟨u, hcall, hrest⟩ := inTurn_cons h
    rw [ih hrest, List.foldl_cons, Call.underLock_tracker hcall]

end UnderLock

section Threads

variable {τ : Type} {w : World} {calls : τ → List Call}

/-- A call takes the mutex, or makes its real call without it; then `next` comes to its end. -/
def Call.Forwards (call : Call) (next : WrapProgram) (cs : List Call) (as : List RealCall) : Prop :=
  (∃ cs' as', cs = call :: cs' ∧ as = call.callsOutside ++ as' ∧ next.Goes cs' as' .finished) ∨
    ∃ as', as = call.forwarded :: as' ∧ next.Goes cs as' .finished

theorem finishes_testMaliFd {fd : ℤ} {R : List Call → List RealCall → Prop}
    {other mali : WrapProgram} (hother : other.Finishes R) (hmali : mali.Finishes R) :
    (testMaliFd fd other mali).Finishes R :=
  .peek fun _ => hother.ite (.peek fun _ => hother.ite hmali)

theorem Call.program_finishes (call : Call) (next : WrapProgram) :
    (call.program next).Finishes (call.Forwards next) := by
  have hother : (Program.act call.forwarded next).Finishes (call.Forwards next) :=
    .act fun _ as h => .inr ⟨as, rfl, h⟩
  cases call with
  | «open» symbol path flags mode ret =>
    exact .act (.locked fun cs as h => .inl ⟨cs, as, rfl, rfl, h⟩)
  | close fd ret =>
    exact hother.ite (finishes_testMaliFd hother
      (.locked (.act fun cs as h => .inl ⟨cs, as, rfl, rfl, h⟩)))
  | ioctl fd request arg env =>
    have hlocked : (Program.locked (.ioctl fd request arg env) next : WrapProgram).Finishes
        ((Call.ioctl fd request arg env).Forwards next) :=
      .locked fun cs as h => .inl ⟨cs, as, rfl, rfl, h⟩
    exact hlocked.ite (.peek fun _ => hother.ite hlocked)
  | mmap symbol addr length prot flags fd offset ret =>
    exact finishes_testMaliFd hother (.locked fun cs as h => .inl ⟨cs, as, rfl, rfl, h⟩)
  | munmap addr length ret => exact .locked fun cs as h => .inl ⟨cs, as, rfl, rfl, h⟩

/-- What a thread has entered at its end are some of its calls, in their order. -/
theorem threadProgram_sublist {calls cs : List Call} {as : List RealCall}
    (h : (threadProgram calls).Goes cs as .finished) : cs.Sublist calls := by
  induction calls generalizing cs as with
  | nil =>
    cases h
    exact List.Sublist.refl _
  | cons call calls ih =>
    obtain ⟨cs', as', rfl, -, hrest⟩ | ⟨as', -, hrest⟩ := call.program_finishes _ cs as h
    · exact (ih hrest).cons_cons call
    · exact (ih hrest).cons call

/-- The calls that test their descriptor before they wait for the mutex. -/
def Call.TestsDevice : Call → Prop
  | .open .. | .munmap .. => False
  | _ => True

/-- The test has been passed in these states. `ioctl` makes one read of `mali_fd`, and none for
descriptor 0; the others read it twice, and the second time it may have become 0. -/
def Call.SeesDevice : Call → List World → Prop
  | .ioctl fd _ _ _, seen => fd = 0 ∨ ∃ w, seen = [w] ∧ fd = w.maliFd
  | .close fd _, seen => 0 < fd ∧ ∃ u w, seen = [u, w] ∧ u.maliFd ≠ 0 ∧ fd = w.maliFd
  | .mmap _ _ _ _ _ fd _ _, seen => ∃ u w, seen = [u, w] ∧ u.maliFd ≠ 0 ∧ fd = w.maliFd
  | .open .., _ | .munmap .., _ => True

/-- What lets a call wait: a test since the call began. -/
def Call.Tested (begin : WrapProgram) (seen : List World) (call : Call) : Prop :=
  call.TestsDevice → (∃ after, begin = call.program after) ∧ call.SeesDevice seen

theorem guarded_testMaliFd {fd : ℤ} {begin other mali : WrapProgram}
    (hother : ∀ seen, other.Guarded Call.Tested begin seen)
    (hmali : ∀ u w : World, u.maliFd ≠ 0 → fd = w.maliFd →
      mali.Guarded Call.Tested begin [u, w]) :
    (testMaliFd fd other mali).Guarded Call.Tested begin [] := by
  intro u
  dsimp only
  split_ifs with h0
  · exact hother _
  · intro w
    dsimp only
    split_ifs with hfd
    · exact hother _
    · exact hmali u w h0 (Decidable.not_not.mp hfd)

theorem Call.program_guarded (call : Call) {next : WrapProgram}
    (hnext : next.Guarded Call.Tested next []) :
    (call.program next).Guarded Call.Tested (call.program next) [] := by
  suffices hfrom : ∀ begin, (∃ after, begin = call.program after) →
      (call.program next).Guarded Call.Tested begin [] from hfrom _ ⟨next, rfl⟩
  intro begin hbegin
  have hact (real : RealCall) (seen : List World) :
      (Program.act real next).Guarded Call.Tested begin seen := hnext
  cases call with
  | «open» symbol path flags mode ret => exact ⟨False.elim, hnext⟩
  | close fd ret =>
    rw [Call.program]
    split_ifs with hfd
    · exact hact (.close fd) []
    · apply guarded_testMaliFd (hact _)
      intro u w h0 hmali
      exact ⟨fun _ => ⟨hbegin, Int.not_le.mp hfd, u, w, rfl, h0, hmali⟩, hnext⟩
  | ioctl fd request arg env =>
    rw [Call.program]
    split_ifs with h0
    · exact ⟨fun _ => ⟨hbegin, .inl h0⟩, hnext⟩
    · intro w
      dsimp only
      split_ifs with hfd
      · exact hact (.ioctl fd request (ioctlPtr request arg env.junk)) [w]
      · exact ⟨fun _ => ⟨hbegin, .inr ⟨w, rfl, Decidable.not_not.mp hfd⟩⟩, hnext⟩
  | mmap symbol addr length prot flags fd offset ret =>
    apply guarded_testMaliFd (hact _)
    intro u w h0 hmali
    exact ⟨fun _ => ⟨hbegin, u, w, rfl, h0, hmali⟩, hnext⟩
  | munmap addr length ret => exact ⟨False.elim, hnext⟩

theorem threadProgram_guarded (calls : List Call) :
    (threadProgram calls).Guarded Call.Tested (threadProgram calls) [] := by
  induction calls with
  | nil => trivial
  | cons call calls ih => exact call.program_guarded ih

variable [DecidableEq τ] {m : Machine τ Halt World Call RealCall}

theorem Cut.inTurn (cut : Cut) :
    LockedSections.inTurn (fun call => (cut.steps call).run) =
      LockedSections.inTurn Call.underLock := by
  simp only [cut.run_steps]

/-- Each thread's calls took the mutex in the order in which that thread made them. -/
theorem enteredBy_sublist (cut : Cut) (h : Reaches cut.steps (startThreads w calls) m) (t : τ) :
    (m.enteredBy t).Sublist (calls t) := by
  have hway := Reaches.onTheWay h t
  -- what the thread has left to do can be brought to an end
  have hworld : Nonempty World := ⟨w⟩
  obtain ⟨cs, as, hrest⟩ := (m.thread t).left.exists_goes
  have hentered : (m.enteredBy t ++ cs).Sublist (calls t) :=
    threadProgram_sublist (hway.trans hrest)
  exact (List.sublist_append_left _ cs).trans hentered

/-- However the calls of any number of threads are interleaved, what the calls under the mutex
have done is what they do one after the other, in the order in which they took it; and each
thread's calls took it in the order in which that thread made them. -/
theorem interleavings_are_serial (cut : Cut)
    (h : Reaches cut.steps (startThreads w calls) m) :
    (m.stopped = none → m.holder = none →
      inTurn Call.underLock (m.entered.map Prod.snd) w = .ok () m.shared) ∧
    (∀ e, m.stopped = some e →
      inTurn Call.underLock (m.entered.map Prod.snd) w = .error e m.shared) ∧
    ∀ t, (m.enteredBy t).Sublist (calls t) := by
  refine ⟨fun hgo hfree => ?_, fun e hstop => ?_, enteredBy_sublist cut h⟩
  · rw [← cut.inTurn]
    exact Reaches.inTurn_free h hgo hfree
  · rw [← cut.inTurn]
    exact Reaches.inTurn_stopped h hstop

/-- One thread opens the device and the other unmaps a page. -/
def openAndUnmap : Bool → List Call
  | true => [openMali]
  | false => [.munmap 4096 4096 0]

/-- The real `open` returns, and before its thread has the mutex the other thread is done. -/
theorem openAndUnmap_reaches : ∃ m : Machine Bool Halt World Call RealCall,
    Reaches Cut.coarse.steps (startThreads World.plain openAndUnmap) m ∧ m.stopped = none ∧
      m.holder = none ∧ m.entered = [(false, .munmap 4096 4096 0), (true, openMali)] := by
  let start : Machine Bool Halt World Call RealCall := startThreads World.plain openAndUnmap
  have hopened : Reaches Cut.coarse.steps start _ := .single (.act true rfl rfl)
  have hentered := hopened.tail (.enter false rfl rfl rfl)
  have hunmapped := (hentered.tail (.inner false rfl rfl)).tail (.leave false rfl rfl)
  have hlocked := hunmapped.tail (.enter true rfl rfl rfl)
  have hnoted := (hlocked.tail (.inner true rfl rfl)).tail (.leave true rfl rfl)
  exact ⟨_, hnoted, rfl, rfl, rfl⟩

theorem interleavings_are_serial_two_threads :
    ∃ m : Machine Bool Halt World Call RealCall,
      Reaches Cut.coarse.steps (startThreads World.plain openAndUnmap) m ∧
      inTurn Call.underLock [.munmap 4096 4096 0, openMali] World.plain = .ok () m.shared ∧
      ∀ t, (m.enteredBy t).Sublist (openAndUnmap t) := by
  obtain ⟨m, hreach, hgo, hfree, hentered⟩ := openAndUnmap_reaches
  obtain ⟨hserial, -, horder⟩ := interleavings_are_serial Cut.coarse hreach
  have hturn := hserial hgo hfree
  rw [hentered] at hturn
  exact ⟨m, hreach, hturn, horder⟩

/-- No update of the tables is lost or made twice: between the calls under the mutex the tables
are what those calls make of empty ones, in the order in which they took it, and the wrapper is
at rest. -/
theorem tables_in_lock_order (timestamps trimming : Bool) (clock : ℕ → Timespec) (cut : Cut)
    (h : Reaches cut.steps (startThreads (World.initial timestamps trimming clock) calls) m)
    (hgo : m.stopped = none) (hfree : m.holder = none) :
    m.shared.tracker = (m.entered.map Prod.snd).foldl
      (fun t call => t.applyOption call.lockedEvent) ⟨[], []⟩ ∧ AtRest m.shared := by
  have hturn := Reaches.inTurn_free h hgo hfree
  rw [cut.inTurn] at hturn
  refine ⟨inTurn_tracker hturn, ?_⟩
  exact inTurn_ok (fun _ _ _ hw hr => hw.underLock hr) (World.initial_atRest _ _ _) hturn

theorem tables_in_lock_order_two_threads :
    ∃ m : Machine Bool Halt World Call RealCall,
      Reaches Cut.coarse.steps (startThreads World.plain openAndUnmap) m ∧
      m.shared.tracker = [.munmap 4096 4096 0, openMali].foldl
        (fun t call => t.applyOption (Call.lockedEvent call)) ⟨[], []⟩ ∧ AtRest m.shared := by
  obtain ⟨m, hreach, hgo, hfree, hentered⟩ := openAndUnmap_reaches
  have htables := tables_in_lock_order false true (fun _ => ⟨0, 0⟩) Cut.coarse hreach hgo hfree
  rw [hentered] at htables
  exact ⟨m, hreach, htables⟩

/-- A thread that waits for the mutex with a call that tests its descriptor has passed the test on
what it has read of `mali_fd` since it began with that call, whatever the other threads have made of
it by now. -/
theorem waiting_call_saw_device (cut : Cut) (h : Reaches cut.steps (startThreads w calls) m) {t : τ}
    {call : Call} {next : WrapProgram} (ht : m.thread t = .outside (.locked call next))
    (hcall : call.TestsDevice) :
    ∃ m₀ after seen, Reaches cut.steps (startThreads w calls) m₀ ∧
      m₀.thread t = .outside (call.program after) ∧ Idle t m₀ m ∧ Passes cut.steps t m₀ seen m ∧
      call.SeesDevice seen := by
  have hstart := fun t => threadProgram_guarded (calls t)
  obtain ⟨m₀, _, seen, hreach, hbegin, hidle, hpasses, htested⟩ := Reaches.allowed hstart h ht
  obtain ⟨⟨after, rfl⟩, hsees⟩ := htested hcall
  exact ⟨m₀, after, seen, hreach, hbegin, hidle, hpasses, hsees⟩

/-- Two threads close the device. One has taken the mutex and cleared `mali_fd` when the other is
still waiting for it. -/
theorem waiting_call_saw_device_closing_twice :
    ∃ m : Machine Bool Halt World Call RealCall, m.shared.maliFd = 0 ∧
      ∃ m₀ seen, Idle false m₀ m ∧ Passes Cut.coarse.steps false m₀ seen m ∧
        (Call.close 3 0).SeesDevice seen := by
  let start : Machine Bool Halt World Call RealCall :=
    startThreads { World.plain with maliFd := 3 } fun _ => [.close 3 0]
  have hfirst : Reaches Cut.coarse.steps start _ := .single (.peek true rfl rfl)
  have htested := hfirst.tail (.peek true rfl rfl)
  have hboth := (htested.tail (.peek false rfl rfl)).tail (.peek false rfl rfl)
  have hclosed := (hboth.tail (.enter true rfl rfl rfl)).tail (.inner true rfl rfl)
  obtain ⟨m₀, _, seen, -, -, hidle, hpasses, hsees⟩ :=
    waiting_call_saw_device Cut.coarse (t := false) hclosed rfl trivial
  exact ⟨_, rfl, m₀, seen, hidle, hpasses, hsees⟩

end Threads

end Panloader
