import Panloader.Interleavings
import Panloader.NestedDecoders

/-! The log as a forest. At the left margin stand one line for each traced `ioctl` and those of
the other calls, in the order in which the calls took the mutex; what a decoder prints is below
the line of its call. -/
namespace Panloader
open Effects LockedSections Outlines

set_option synthInstance.maxSize 4000

/-- The line of `ioctl` that its decoders' lines are below. -/
def ioctlHeadline (request : U32) (ptr : U64) (mem : Memory) : Line :=
  if ptr = 0 then
    ("<%-20s> (%02d) (%08x), has no arguments? Cannot decode :(\n",
      [ioctlName (widenRequest request), .int (iocNr (widenRequest request)).toNat, .u32 request])
  else
    ("<%-20s> (%02d) (%08x) (%04d) (%03d)\n",
      [ioctlName (widenRequest request), .int (iocNr (widenRequest request)).toNat, .u32 request,
        .int (iocSize (widenRequest request)).toNat, .u32 (mem.read ptr 4)])

def mmapHeadlines (t : Tracker) (gpuVa addr length : U64) (prot : U32) : List Line :=
  match t.pendingAllocation gpuVa with
  | none =>
    [("Error: Untracked gpu memory 0x%lx mapped to %p\n", [.u64 gpuVa, .u64 addr]),
      ("\tprot = ", []), ("\tflags = ", [])]
  | some mem =>
    [("GPU VA 0x%lx mapped to %p - %p (length == %zu)\n",
      [.u64 (mem.mapped gpuVa addr length prot).gpuVa, .u64 addr, .u64 (addr + length),
        .u64 length])]

def munmapHeadlines : Option PanwrapMappedMemory → List Line
  | none => []
  | some mem =>
    [if mem.gpuVa ≠ 0 then
      ("Unmapped GPU memory 0x%lx@%p\n", [.u64 mem.gpuVa, .u64 mem.addr])
    else ("Unmapped unknown memory %p\n", [.u64 mem.addr])]

/-- The lines at the left margin that a call with the mutex prints in the state `st`. -/
def Call.headlines (st : Stage) : Call → List Line
  | .open _ path _ _ ret =>
    if ret = -1 then []
    else if path = "/dev/mali0" then [("/dev/mali0 fd == %d\n", [.int ret])]
    else if containsDev path then
      [("Unknown device %s opened at fd %d\n", [.str path, .int ret])]
    else []
  | .close fd _ =>
    if st.maliFd ≠ 0 ∧ fd = st.maliFd then [("/dev/mali0 closed\n", [])] else []
  | .ioctl _ request arg env => [ioctlHeadline request (ioctlPtr request arg env.junk) env.before]
  | .mmap _ _ length prot _ _ offset ret => mmapHeadlines st.tracker offset ret length prot
  | .munmap addr _ _ => munmapHeadlines (panwrapFindMappedMem st.tracker.mmaps addr)

/-- The lines at the left margin of these calls, one after the other. -/
def headlines : Stage → List Call → List Line
  | _, [] => []
  | st, call :: calls => call.headlines st ++ headlines (call.stageUnderLock st) calls

/-- The lines of `w` are those of `start` and of a forest with these roots. -/
def Grown (start : List (ℤ × Line)) (roots : List Line) (w : World) : Prop :=
  ∃ f : Forest Line, logLines w.trace = start ++ indented (f.lines 0) ∧ f.roots = roots

section Margin

variable {st : Stage} {i : ℤ} {start ls : List (ℤ × Line)} {E : Halt → World → Prop}

/-- Lines that are all at the left margin. -/
def flat : List Line → Forest Line
  | [] => .nil
  | line :: lines => .cons line .nil (flat lines)

theorem flat_roots (lines : List Line) : (flat lines).roots = lines := by
  induction lines with
  | nil => rfl
  | cons line lines ih => rw [flat, Forest.roots, ih]

theorem flat_lines (lines : List Line) :
    indented ((flat lines).lines 0) = lines.map fun line => (0, line) := by
  induction lines with
  | nil => rfl
  | cons line lines ih =>
    rw [flat, Forest.lines, List.map_cons, ← ih]
    rfl

theorem Grown.of_flat {w : World} {lines : List Line}
    (h : logLines w.trace = start ++ lines.map fun line => (0, line)) : Grown start lines w :=
  ⟨flat lines, by rw [flat_lines, h], flat_roots lines⟩

theorem Grown.none {w : World} (h : logLines w.trace = start) : Grown start [] w :=
  Grown.of_flat (by rw [h, List.map_nil, List.append_nil])

theorem Logged.clock {w : World} {use : ClockUse} {now : Timespec} {time : TimeState} {ticks : ℕ}
    (hw : Logged st i ls w) :
    Logged st i ls { w.emit (.clock use now) with time := time, ticks := ticks } :=
  ⟨hw.maliFd, hw.tracker, hw.mem, hw.indent, (logLines_emit rfl).trans hw.lines⟩

theorem panwrapFreezeTime_logged :
    Ensures (Logged st i ls) panwrapFreezeTime (fun _ => Logged st i ls) E :=
  panwrapFreezeTime_keeps fun _ _ _ _ _ => Logged.clock

theorem panwrapUnfreezeTime_logged :
    Ensures (Logged st i ls) panwrapUnfreezeTime (fun _ => Logged st i ls) E :=
  panwrapUnfreezeTime_keeps fun _ _ _ _ _ => Logged.clock

theorem load_logged (n : ℕ) (a : U64) : Ensures (Logged st i ls) (load n a)
    (fun v w => v = st.mem.read a n ∧ Logged st i ls w) E := by
  intro w hw
  refine ⟨by rw [hw.mem], ?_⟩
  exact ⟨hw.maliFd, hw.tracker, hw.mem, hw.indent, (logLines_emit rfl).trans hw.lines⟩

theorem orig_logged {α : Type} (call : RealCall) (ret : α) : Ensures (Logged st i ls)
    (orig call ret) (fun v w => v = ret ∧ Logged st i ls w) E := by
  intro w hw
  exact ⟨rfl, hw.maliFd, hw.tracker, hw.mem, hw.indent, (logLines_emit rfl).trans hw.lines⟩

theorem origIoctl_logged (fd : ℤ) (request : U32) (ptr : U64) (env : IoctlEnv) :
    Ensures (Logged st i ls) (origIoctl fd request ptr env)
      (fun _ => Logged { st with mem := env.after } i ls) E :=
  fun _ hw => ⟨hw.maliFd, hw.tracker, rfl, hw.indent, (logLines_emit rfl).trans hw.lines⟩

theorem tracker_logged : Ensures (Logged st i ls) tracker
    (fun t w => t = st.tracker ∧ Logged st i ls w) E :=
  fun _ hw => ⟨hw.tracker, hw⟩

theorem maliFd_logged : Ensures (Logged st i ls) maliFd
    (fun fd w => fd = st.maliFd ∧ Logged st i ls w) E :=
  fun _ hw => ⟨hw.maliFd, hw⟩

theorem setTracker_logged (t : Tracker) : Ensures (Logged st i ls) (setTracker t)
    (fun _ => Logged { st with tracker := t } i ls) E :=
  fun _ hw => ⟨hw.maliFd, rfl, hw.mem, hw.indent, hw.lines⟩

theorem setMaliFd_logged (fd : ℤ) : Ensures (Logged st i ls) (setMaliFd fd)
    (fun _ => Logged { st with maliFd := fd } i ls) E :=
  fun _ hw => ⟨rfl, hw.tracker, hw.mem, hw.indent, hw.lines⟩

theorem setMem_logged (mem : Memory) : Ensures (Logged st i ls) (setMem mem)
    (fun _ => Logged { st with mem := mem } i ls) E :=
  fun _ hw => ⟨hw.maliFd, hw.tracker, rfl, hw.indent, hw.lines⟩

theorem panwrapLogCont_logged (format : String) (args : List Arg) :
    Ensures (Logged st i ls) (panwrapLogCont format args) (fun _ => Logged st i ls) E :=
  fun _ hw => ⟨hw.maliFd, hw.tracker, hw.mem, hw.indent, (logLines_emit rfl).trans hw.lines⟩

theorem panwrapLogDecodedFlags_logged (info : List PanwrapFlagInfo) (flags : U64) :
    Ensures (Logged st i ls) (panwrapLogDecodedFlags info flags) (fun _ => Logged st i ls) E := by
  have hnames (info : List PanwrapFlagInfo) (flags : U64) (found : Bool) :
      Ensures (Logged st i ls) (logFlagNames info flags found) (fun _ => Logged st i ls) E := by
    induction info generalizing flags found with
    | nil => exact Ensures.pure _
    | cons flag rest ih =>
      unfold logFlagNames
      by_cases hflag : flags &&& flag.flag ≠ flag.flag
      · rw [if_pos hflag]
        exact ih flags found
      · rw [if_neg hflag]
        apply (panwrapLogCont_logged _ _).bind
        intro _
        apply (panwrapLogCont_logged _ _).bind
        intro _
        exact ih _ true
  unfold panwrapLogDecodedFlags
  apply (panwrapLogCont_logged _ _).bind
  intro _
  apply (hnames info flags false).bind
  intro r
  split_ifs
  · exact (panwrapLogCont_logged _ _).bind fun _ => panwrapLogCont_logged _ _
  · exact panwrapLogCont_logged _ _
  · exact Ensures.pure ()

/-- The lines at the left margin that have been added. -/
theorem Logged.grown {lines : List Line} {w : World}
    (h : Logged st i (start ++ lines.map fun line => (0, line)) w) : Grown start lines w :=
  Grown.of_flat h.lines

theorem noteOpened_grown (path : String) (ret : ℤ) : Ensures (Logged st 0 start)
    (noteOpened path ret) (fun _ => Grown start
      (if path = "/dev/mali0" then [("/dev/mali0 fd == %d\n", [.int ret])]
        else if containsDev path then
          [("Unknown device %s opened at fd %d\n", [.str path, .int ret])]
        else [])) E := by
  unfold noteOpened
  split_ifs
  · apply (panwrapLog_logged _ _).bind
    intro _
    exact (setMaliFd_logged ret).mono (fun _ _ h => h.grown) fun _ _ h => h
  · exact (panwrapLog_logged _ _).mono (fun _ _ h => h.grown) fun _ _ h => h
  · exact fun _ hw => Grown.none hw.lines

theorem noteClosed_grown (fd : ℤ) : Ensures (Logged st 0 start) (noteClosed fd)
    (fun _ => Grown start (if st.maliFd ≠ 0 ∧ fd = st.maliFd then [("/dev/mali0 closed\n", [])]
      else [])) E := by
  apply maliFd_logged.bind_eq
  split_ifs
  · apply (panwrapLog_logged _ _).bind
    intro _
    exact (setMaliFd_logged 0).mono (fun _ _ h => h.grown) fun _ _ h => h
  · exact fun _ hw => Grown.none hw.lines

theorem panwrapTrackMmap_grown (gpuVa addr length : U64) (prot flags : U32) :
    Ensures (Logged st 0 start) (panwrapTrackMmap gpuVa addr length prot flags)
      (fun _ => Grown start (mmapHeadlines st.tracker gpuVa addr length prot)) E := by
  apply tracker_logged.bind_eq
  rw [mmapHeadlines]
  cases st.tracker.pendingAllocation gpuVa with
  | none =>
    apply (panwrapLog_logged _ _).bind
    intro _
    apply (panwrapLog_logged _ _).bind
    intro _
    apply (panwrapLogDecodedFlags_logged _ _).bind
    intro _
    apply (panwrapLogCont_logged _ _).bind
    intro _
    apply (panwrapLog_logged _ _).bind
    intro _
    apply (panwrapLogDecodedFlags_logged _ _).bind
    intro _
    apply (panwrapLogCont_logged _ _).mono
    · intro _ w hw
      simp only [List.append_assoc] at hw
      exact hw.grown
    · exact fun _ _ h => h
  | some mem =>
    apply (setTracker_logged _).bind
    intro _
    exact (panwrapLog_logged _ _).mono (fun _ _ h => h.grown) fun _ _ h => h

theorem untrackMunmap_grown (addr : U64) (mem : Option PanwrapMappedMemory) :
    Ensures (Logged st 0 start) (untrackMunmap addr mem)
      (fun _ => Grown start (munmapHeadlines mem)) E := by
  cases mem with
  | none => exact fun _ hw => Grown.none hw.lines
  | some mem =>
    have hlog : Ensures (Logged st 0 start)
        (if mem.gpuVa ≠ 0 then
          panwrapLog "Unmapped GPU memory 0x%lx@%p\n" [.u64 mem.gpuVa, .u64 mem.addr]
        else panwrapLog "Unmapped unknown memory %p\n" [.u64 mem.addr])
        (fun _ => Logged st 0 (start ++ (munmapHeadlines (some mem)).map fun line => (0, line)))
        E := by
      rw [munmapHeadlines]
      split_ifs
      · exact panwrapLog_logged _ _
      · exact panwrapLog_logged _ _
    apply hlog.bind
    intro _
    apply tracker_logged.bind_eq
    exact (setTracker_logged _).mono (fun _ _ h => h.grown) fun _ _ h => h

/-- A statement without lines. -/
theorem Grown.keep {α : Type} {m : Wrap α} {roots : List Line}
    (hm : ∀ st i ls, Ensures (Logged st i ls) m (fun _ => Logged st i ls) E) :
    Ensures (Grown start roots) m (fun _ => Grown start roots) E := by
  rintro w ⟨f, hf, hroots⟩
  apply (hm _ _ _).mono ?_ (fun _ _ h => h) w (Logged.self w)
  exact fun _ u hu => ⟨f, hu.lines.trans hf, hroots⟩

end Margin

section Ioctl

variable {mmaps : List PanwrapMappedMemory} {start : List (ℤ × Line)} {c : ℕ} {b : Bool}
  {base top : ℕ}

theorem Nested.of_logged {α : Type} {m : Wrap α}
    (h : ∀ st i ls, Ensures (Logged st i ls) m (fun _ => Logged st i ls) fun _ _ => False) :
    Nested mmaps c b c b m := by
  apply Nested.of_quiet
  intro w
  have hend := h _ _ _ w (Logged.self w)
  cases hr : m w with
  | ok a w' =>
    rw [hr] at hend
    exact ⟨a, w', rfl, congrArg Tracker.mmaps hend.tracker, hend.indent, hend.lines⟩
  | error e w' =>
    rw [hr] at hend
    exact hend.elim

instance nested_freeze : Nested mmaps c b c b panwrapFreezeTime :=
  .of_logged fun _ _ _ => panwrapFreezeTime_logged

instance nested_unfreeze : Nested mmaps c b c b panwrapUnfreezeTime :=
  .of_logged fun _ _ _ => panwrapUnfreezeTime_logged

instance nested_origIoctl (fd : ℤ) (request : U32) (ptr : U64) (env : IoctlEnv) :
    Nested mmaps c b c b (origIoctl fd request ptr env) :=
  .of_quiet fun _ => ⟨env.ret, _, rfl, rfl, rfl, logLines_emit rfl⟩

/-- What `ioctl` prints after its headline: below it, or a report. -/
def EndedBelow (mmaps : List PanwrapMappedMemory) (start : List (ℤ × Line)) (headline : Line)
    (h : Halt) (w : World) : Prop :=
  h ≠ .strayName ∧ ∃ below after : Forest Line,
    logLines w.trace = start ++ indented ((Forest.cons headline below after).lines 0) ∧
    if h = .derefMemErr then IsReport mmaps (after.lines 0) else after = .nil

theorem outline_accessReport (mem : Option PanwrapMappedMemory) (gpuVa size : U64) (line : ℕ)
    (filename : String) : Outline 0 (accessReport mem gpuVa size line filename) := by
  cases mem <;> simp [accessReport, Outline]

theorem Outlined.below {start : List (ℤ × Line)} {headline : Line} {next : ℕ} {w : World}
    (h : Outlined (start ++ [(0, headline)]) 1 1 next w) : Grown start [headline] w := by
  obtain ⟨ls, hls, hout, hbase, -⟩ := h
  obtain ⟨below, rfl⟩ := exists_lines hout hbase
  refine ⟨.cons headline below .nil, ?_, rfl⟩
  rw [hls, Forest.lines, Forest.lines, List.append_nil, List.append_assoc]
  rfl

theorem Ended.below {start : List (ℤ × Line)} {headline : Line} {h : Halt} {w : World}
    (hend : Ended mmaps (start ++ [(0, headline)]) 1 1 h w) :
    EndedBelow mmaps start headline h w := by
  obtain ⟨hname, ls, report, hls, hout, hbase, hreport⟩ := hend
  obtain ⟨below, rfl⟩ := exists_lines hout hbase
  have hafter : ∃ after : Forest Line, after.lines 0 = report := by
    apply exists_lines _ fun _ _ => Nat.zero_le _
    split_ifs at hreport
    · obtain ⟨mem, gpuVa, size, line, filename, -, -, rfl⟩ := hreport
      exact outline_accessReport _ gpuVa size line filename
    · rw [hreport]
      trivial
  obtain ⟨after, rfl⟩ := hafter
  refine ⟨hname, below, after, ?_, ?_⟩
  · rw [hls, Forest.lines, List.append_assoc]
    rfl
  · split_ifs at hreport ⊢
    · exact hreport
    · cases after with
      | nil => rfl
      | cons line below after => cases hreport

/-- A program that begins below the line that was just printed. -/
theorem ensures_below {α : Type} {st : Stage} {headline : Line} {m : Wrap α}
    {Q : α → World → Prop}
    (hm : Ensures (Below st.tracker.mmaps (start ++ [(0, headline)]) 1 1 0 false) m Q
      (Ended st.tracker.mmaps (start ++ [(0, headline)]) 1 1)) :
    Ensures (Logged st (0+1) (start ++ [(0, headline)])) m Q
      (EndedBelow st.tracker.mmaps start headline) := by
  intro w hw
  apply hm.mono (fun _ _ h => h) fun _ _ h => h.below
  refine ⟨congrArg Tracker.mmaps hw.tracker, hw.indent, [], ?_, trivial, ?_, Nat.le_refl 1⟩
  · rw [hw.lines]
    exact (List.append_nil _).symm
  · exact fun _ hline => absurd hline List.not_mem_nil

/-- One level up, at the end of what is below a headline. -/
theorem panwrapIndentDecr_below {headline : Line} {E : Halt → World → Prop} :
    Ensures (Below mmaps (start ++ [(0, headline)]) 1 1 c b) panwrapIndentDecr
      (fun _ => Grown start [headline]) E := by
  intro w hw
  obtain ⟨f, hf, hroots⟩ := hw.lines.below
  exact ⟨f, (logLines_emit rfl).trans hf, hroots⟩

theorem ioctlDecoded_grown {st : Stage} (fd : ℤ) (request : U32) {ptr : U64} (hptr : ptr ≠ 0)
    (env : IoctlEnv) : Ensures (Logged st 0 start) (ioctlDecoded fd request ptr env)
      (fun _ => Grown start [ioctlHeadline request ptr st.mem])
      (EndedBelow st.tracker.mmaps start (ioctlHeadline request ptr st.mem)) := by
  rw [ioctlHeadline, if_neg hptr]
  apply (load_logged 4 ptr).bind_eq
  apply (panwrapLog_logged _ _).bind
  intro _
  apply panwrapIndentIncr_logged.bind
  intro _
  apply ensures_below
  apply ((nested_ioctlDecodePre _ ptr).ensures _ 1 1).bind
  intro _
  apply (nested_unfreeze.ensures _ 1 1).bind
  intro _
  apply ((nested_origIoctl fd request ptr env).ensures _ 1 1).bind
  intro ret
  apply (nested_freeze.ensures _ 1 1).bind
  intro _
  apply ((nested_load32 ptr).ensures _ 1 1).bind
  intro _
  apply ((nested_log _ _).ensures _ 1 1).bind
  intro _
  apply ((nested_ioctlDecodePost _ ptr).ensures _ 1 1).bind
  intro _
  apply panwrapIndentDecr_below.bind
  intro _
  exact Ensures.pure ret

theorem ioctlNoArguments_grown {st : Stage} (fd : ℤ) (request : U32) (env : IoctlEnv) :
    Ensures (Logged st 0 start) (ioctlNoArguments fd request env)
      (fun _ => Grown start [ioctlHeadline request 0 st.mem])
      (EndedBelow st.tracker.mmaps start (ioctlHeadline request 0 st.mem)) := by
  rw [ioctlHeadline, if_pos rfl]
  apply (panwrapLog_logged _ _).bind
  intro _
  apply panwrapUnfreezeTime_logged.bind
  intro _
  apply (origIoctl_logged fd request 0 env).bind
  intro ret
  apply panwrapFreezeTime_logged.bind
  intro _
  apply panwrapIndentIncr_logged.bind
  intro _
  apply ensures_below
  apply ((nested_log _ _).ensures _ 1 1).bind
  intro _
  apply panwrapIndentDecr_below.bind
  intro _
  exact Ensures.pure ret

end Ioctl

section Calls

variable {st : Stage} {start : List (ℤ × Line)}

/-- An abrupt end of a call: it is an `ioctl` that could not look its name up, or has printed its
headline. -/
def Call.EndedBelow (call : Call) (mmaps : List PanwrapMappedMemory) (start : List (ℤ × Line))
    (h : Halt) (w : World) : Prop :=
  ∃ fd request arg env, call = .ioctl fd request arg env ∧
    if h = .strayName then ¬Named request env ∧ logLines w.trace = start
    else Panloader.EndedBelow mmaps start
      (ioctlHeadline request (ioctlPtr request arg env.junk) env.before) h w

theorem Call.underLock_grown (call : Call) : Ensures (Logged st 0 start) call.underLock
    (fun _ => Grown start (call.headlines st)) (call.EndedBelow st.tracker.mmaps start) := by
  cases call with
  | «open» symbol path flags mode ret =>
    rw [Call.underLock, Call.headlines]
    by_cases hret : ret = -1
    · rw [if_neg (not_not.mpr hret), if_pos hret]
      exact fun _ hw => Grown.none hw.lines
    · rw [if_pos hret, if_neg hret]
      exact noteOpened_grown path ret
  | close fd ret => exact noteClosed_grown fd
  | ioctl fd request arg env =>
    have hbody : Ensures (Logged { st with mem := env.before } 0 start)
        (if ioctlPtr request arg env.junk = 0 then ioctlNoArguments fd request env
          else ioctlDecoded fd request (ioctlPtr request arg env.junk) env)
        (fun _ => Grown start [ioctlHeadline request (ioctlPtr request arg env.junk) env.before])
        (Panloader.EndedBelow st.tracker.mmaps start
          (ioctlHeadline request (ioctlPtr request arg env.junk) env.before)) := by
      split_ifs with hptr
      · rw [hptr]
        exact ioctlNoArguments_grown fd request env
      · exact ioctlDecoded_grown fd request hptr env
    apply (setMem_logged env.before).bind
    intro _
    apply panwrapFreezeTime_logged.bind
    intro _
    apply Ensures.bind
    · apply lookUpName_ensures
      intro hname w hw
      exact ⟨fd, request, arg, env, rfl, (if_pos rfl).mpr ⟨hname, hw.lines⟩⟩
    intro _
    apply (hbody.mono_error fun _ _ h => ⟨fd, request, arg, env, rfl, (if_neg h.1).mpr h⟩).bind
    intro _
    exact Grown.keep fun _ _ _ => panwrapUnfreezeTime_logged
  | mmap symbol addr length prot flags fd offset ret =>
    apply (orig_logged _ ret).bind_eq
    apply panwrapFreezeTime_logged.bind
    intro _
    apply (panwrapTrackMmap_grown offset ret length prot flags).bind
    intro _
    exact Grown.keep fun _ _ _ => panwrapUnfreezeTime_logged
  | munmap addr length ret =>
    apply (orig_logged _ ret).bind_eq
    apply panwrapFreezeTime_logged.bind
    intro _
    apply tracker_logged.bind_eq
    apply (untrackMunmap_grown addr _).bind
    intro _
    exact Grown.keep fun _ _ _ => panwrapUnfreezeTime_logged

theorem Grown.trans {u w : World} {roots roots' : List Line} (h : Grown start roots u)
    (h' : Grown (logLines u.trace) roots' w) : Grown start (roots ++ roots') w := by
  obtain ⟨f, hf, rfl⟩ := h
  obtain ⟨g, hg, rfl⟩ := h'
  refine ⟨f.append g, ?_, f.roots_append⟩
  rw [hg, hf, Forest.lines_append, indented_append, List.append_assoc]

theorem Call.stage_underLock {call : Call} {w w' : World} (h : call.underLock w = .ok () w') :
    w'.stage = call.stageUnderLock w.stage :=
  ((Call.underLock_ensures w call).ok rfl h).stage

theorem AtRest.logged {w : World} (hw : AtRest w) : Logged w.stage 0 (logLines w.trace) w :=
  hw.flush ▸ Logged.self w

/-- Calls with the mutex, one after the other, add their headlines to the left margin. -/
theorem inTurn_grown {calls : List Call} {w w' : World} (hw : AtRest w)
    (h : inTurn Call.underLock calls w = .ok () w') :
    Grown (logLines w.trace) (headlines w.stage calls) w' := by
  induction calls generalizing w with
  | nil =>
    cases h
    exact Grown.none rfl
  | cons call calls ih =>
    obtain ⟨u, hcall, hlater⟩ := inTurn_cons h
    have hfirst := call.underLock_grown.ok hw.logged hcall
    have hrest := ih (hw.underLock hcall) hlater
    rw [Call.stage_underLock hcall] at hrest
    exact hfirst.trans hrest

end Calls

section Interleaved

variable {τ : Type} [DecidableEq τ] {calls : τ → List Call} {m : Machine τ Halt World Call RealCall}

/-- However the calls of any number of threads are interleaved, the lines of the log are those of
exactly one forest. Its roots are the headlines of the calls in the order in which they took the
mutex, so that what a decoder has printed is below the headline of its own `ioctl`. -/
theorem log_of_interleaving (timestamps trimming : Bool) (clock : ℕ → Timespec) (cut : Cut)
    (h : Reaches cut.steps (startThreads (World.initial timestamps trimming clock) calls) m)
    (hgo : m.stopped = none) (hfree : m.holder = none) :
    ∃ f : Forest Line, (∀ g : Forest Line, logLines m.shared.trace = indented (g.lines 0) ↔ g = f) ∧
      f.roots = headlines (World.initial timestamps trimming clock).stage
        (m.entered.map Prod.snd) := by
  have hturn := Reaches.inTurn_free h hgo hfree
  rw [cut.inTurn] at hturn
  obtain ⟨f, hf, hroots⟩ := inTurn_grown (World.initial_atRest _ _ _) hturn
  refine ⟨f, fun g => ?_, hroots⟩
  rw [hf]
  constructor
  · intro hg
    exact (Forest.lines_injective 0 (indented_injective hg)).symm
  · rintro rfl
    rfl

theorem log_of_interleaving_two_threads : ∃ m : Machine Bool Halt World Call RealCall,
    Reaches Cut.coarse.steps (startThreads World.plain openAndUnmap) m ∧
    ∃ f : Forest Line, logLines m.shared.trace = indented (f.lines 0) ∧
      f.roots = [("/dev/mali0 fd == %d\n", [.int 3])] := by
  obtain ⟨m, hreach, hgo, hfree, hentered⟩ := openAndUnmap_reaches
  obtain ⟨f, hf, hroots⟩ :=
    log_of_interleaving false true (fun _ => ⟨0, 0⟩) Cut.coarse hreach hgo hfree
  rw [hentered] at hroots
  exact ⟨m, hreach, f, (hf f).mpr rfl, hroots⟩

/-- Where a call has ended the traced program, it is the last one that took the mutex, and an
`ioctl`. If it could not look its name up, the log ends with the trees of the calls before it.
Otherwise it had printed its headline: after what is below that headline the log ends, with the
report of an access that the mappings in the table do not allow if that was the reason. -/
theorem log_of_stopped_interleaving (timestamps trimming : Bool) (clock : ℕ → Timespec) (cut : Cut)
    (h : Reaches cut.steps (startThreads (World.initial timestamps trimming clock) calls) m)
    {e : Halt} (hstop : m.stopped = some e) :
    ∃ before fd request arg env, m.entered.map Prod.snd = before ++ [.ioctl fd request arg env] ∧
      ∃ f : Forest Line,
        f.roots = headlines (World.initial timestamps trimming clock).stage before ∧
        if e = .strayName then
          ¬Named request env ∧ logLines m.shared.trace = indented (f.lines 0)
        else ∃ below after : Forest Line, logLines m.shared.trace = indented (f.lines 0 ++
            (Forest.cons (ioctlHeadline request (ioctlPtr request arg env.junk) env.before) below
              after).lines 0) ∧
          if e = .derefMemErr then
            IsReport (before.foldl (fun t call => t.applyOption (Call.lockedEvent call))
              (⟨[], []⟩ : Tracker)).mmaps (after.lines 0)
          else after = .nil := by
  obtain ⟨before, call, u, hentered, hbefore, hlast⟩ := Reaches.stopped_last h hstop
  rw [cut.inTurn] at hbefore
  rw [cut.run_steps] at hlast
  have hstart : AtRest (World.initial timestamps trimming clock) := World.initial_atRest _ _ _
  have hrest : AtRest u := inTurn_ok (fun _ _ _ hw hr => hw.underLock hr) hstart hbefore
  obtain ⟨f, hf, hroots⟩ := inTurn_grown hstart hbefore
  have htracker : u.tracker =
      before.foldl (fun t call => t.applyOption (Call.lockedEvent call)) ⟨[], []⟩ :=
    inTurn_tracker hbefore
  have hend := call.underLock_grown u hrest.logged
  rw [hlast] at hend
  obtain ⟨fd, request, arg, env, rfl, hlines⟩ := hend
  refine ⟨before, fd, request, arg, env, hentered, f, hroots, ?_⟩
  by_cases hname : e = .strayName
  · rw [if_pos hname] at hlines ⊢
    exact ⟨hlines.1, hlines.2.trans hf⟩
  · rw [if_neg hname] at hlines ⊢
    obtain ⟨-, below, after, hlines, hreport⟩ := hlines
    refine ⟨below, after, ?_, ?_⟩
    · rw [hlines, hf, indented_append]
      rfl
    · rw [← htracker]
      exact hreport

/-- A submission of one atom, whose job is in no mapping. -/
def submitUnmapped : Call :=
  let mem : Memory := fun a => if a = 0x1010 then 1 else if a = 0x1014 then 48 else 0
  .ioctl 0 0xc018821c (some 0x1000) ⟨mem, mem, 0, 0, false⟩

theorem submitUnmapped_reaches : ∃ m : Machine Unit Halt World Call RealCall,
    Reaches Cut.coarse.steps (startThreads World.plain fun _ => [submitUnmapped]) m ∧
      m.stopped = some .derefMemErr := by
  obtain ⟨w', hr⟩ : ∃ w', submitUnmapped.underLock World.plain = .error .derefMemErr w' := ⟨_, rfl⟩
  have hrun : (Cut.coarse.steps submitUnmapped).run World.plain = .error .derefMemErr w' := by
    rw [Cut.coarse.run_steps, hr]
  let start : Machine Unit Halt World Call RealCall :=
    startThreads World.plain fun _ => [submitUnmapped]
  let entered : Machine Unit Halt World Call RealCall :=
    { start.become () (.inside (Cut.coarse.steps submitUnmapped) .finished) with
      holder := some ()
      entered := [((), submitUnmapped)] }
  have hentered : Reaches Cut.coarse.steps start entered := .single (.enter () rfl rfl rfl)
  obtain ⟨m, hreach, hstop⟩ : ∃ m, Reaches Cut.coarse.steps entered m ∧
      m.stopped = some .derefMemErr :=
    Reaches.run_error rfl (show entered.thread () = .inside _ _ from rfl) hrun
  exact ⟨m, hentered.trans hreach, hstop⟩

theorem log_of_stopped_interleaving_submit : ∃ m : Machine Unit Halt World Call RealCall,
    Reaches Cut.coarse.steps (startThreads World.plain fun _ => [submitUnmapped]) m ∧
    ∃ (before : List Call) (ls : List (ℕ × Line)) (after : Forest Line),
      logLines m.shared.trace = indented (ls ++ after.lines 0) ∧
      IsReport (before.foldl (fun t call => t.applyOption (Call.lockedEvent call))
        (⟨[], []⟩ : Tracker)).mmaps (after.lines 0) := by
  obtain ⟨m, hreach, hstop⟩ := submitUnmapped_reaches
  obtain ⟨before, fd, request, arg, env, -, f, -, below, after, hlines, hreport⟩ :=
    log_of_stopped_interleaving false true (fun _ => ⟨0, 0⟩) Cut.coarse hreach hstop
  refine ⟨m, hreach, before, f.lines 0 ++ (0, ioctlHeadline request (ioctlPtr request arg env.junk)
    env.before) :: below.lines 1, after, ?_, hreport⟩
  rw [hlines, Forest.lines, List.append_assoc]
  rfl

end Interleaved

end Panloader
