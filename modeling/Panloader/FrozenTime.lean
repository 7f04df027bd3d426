import Panloader.Histories
import Panloader.PlainPrograms
import Panloader.Runs

/-! Timestamps. A stopwatch that stands still while time is frozen shows, in nanoseconds, the
stamp of every log line. -/
namespace Panloader
open Effects Histories

/-- A time in nanoseconds. -/
def Timespec.ns (t : Timespec) : ℤ := t.tvSec * 10^9 + t.tvNsec

def Timespec.Normalized (t : Timespec) : Prop := 0 ≤ t.tvNsec ∧ t.tvNsec < 10^9

/-- `counted` is how long it ran until the last reading of the clock, `last`. -/
structure Stopwatch where
  counted : ℤ
  last : ℤ
  frozen : Bool

def Stopwatch.read (s : Stopwatch) (now : ℤ) : Stopwatch :=
  { s with
    counted := if s.frozen then s.counted else s.counted + (now - s.last)
    last := now }

def Stopwatch.observe (s : Stopwatch) : Event → Stopwatch
  | .clock .freeze now => { s.read now.ns with frozen := true }
  | .clock .unfreeze now => { s.read now.ns with frozen := false }
  | .clock .stamp now => s.read now.ns
  | _ => s

/-- The stopwatch after the events `es`, started at `start`. -/
def stopwatch (start : Timespec) (es : List Event) : Stopwatch :=
  es.foldl Stopwatch.observe ⟨0, start.ns, false⟩

theorem stopwatch_snoc (start : Timespec) (es : List Event) (e : Event) :
    stopwatch start (es ++ [e]) = (stopwatch start es).observe e := by
  simp only [stopwatch, List.foldl_append, List.foldl_cons, List.foldl_nil]

section Arithmetic

variable {a b : Timespec}

theorem Timespec.subtract_spec (ha : a.Normalized) (hb : b.Normalized) :
    (a.subtract b).Normalized ∧ (a.subtract b).ns = a.ns - b.ns := by
  obtain ⟨ha0, ha1⟩ := ha
  obtain ⟨hb0, hb1⟩ := hb
  unfold Timespec.subtract
  -- a borrow takes one second for 10^9 nanoseconds
  by_cases h : a.tvNsec - b.tvNsec < 0
  · simp only [h, if_true, Timespec.Normalized, Timespec.ns]
    omega
  · simp only [h, if_false, Timespec.Normalized, Timespec.ns]
    omega

theorem Timespec.add_spec (ha : a.Normalized) (hb : b.Normalized) :
    (a.add b).Normalized ∧ (a.add b).ns = a.ns + b.ns := by
  obtain ⟨ha0, ha1⟩ := ha
  obtain ⟨hb0, hb1⟩ := hb
  unfold Timespec.add
  by_cases h : 10^9 ≤ a.tvNsec + b.tvNsec
  · simp only [h, if_true, Timespec.Normalized, Timespec.ns]
    omega
  · simp only [h, if_false, Timespec.Normalized, Timespec.ns]
    omega

end Arithmetic

/-- The static variables agree with the stopwatch. -/
structure Agrees (start : Timespec) (frozen : Bool) (t : TimeState) (s : Stopwatch) : Prop where
  timeFrozen : t.timeIsFrozen = frozen
  watchFrozen : s.frozen = frozen
  startTime : t.startTime = start
  total : t.totalTimeFrozen.Normalized
  -- what did not count was frozen: up to the last reading, or to the freeze that lasts
  thawed : frozen = false → t.totalTimeFrozen.ns = s.last - start.ns - s.counted
  since : frozen = true → t.startFreezeTime.Normalized ∧
    t.totalTimeFrozen.ns = t.startFreezeTime.ns - start.ns - s.counted
  cached : frozen = true → t.frozenTimestamp.Normalized ∧ t.frozenTimestamp.ns = s.counted

section Updates

variable {start now : Timespec} {t : TimeState} {s : Stopwatch}

/-- The stamp computed from a reading of the clock. -/
theorem Agrees.reading (h : Agrees start false t s) (hstart : start.Normalized)
    (hnow : now.Normalized) :
    ((now.subtract t.startTime).subtract t.totalTimeFrozen).Normalized ∧
      ((now.subtract t.startTime).subtract t.totalTimeFrozen).ns = (s.read now.ns).counted := by
  obtain ⟨hn, hns⟩ := Timespec.subtract_spec hnow (h.startTime ▸ hstart)
  obtain ⟨hn', hns'⟩ := Timespec.subtract_spec hn h.total
  refine ⟨hn', ?_⟩
  have hthawed := h.thawed rfl
  have hcounted : (s.read now.ns).counted = s.counted + (now.ns - s.last) := by
    simp only [Stopwatch.read, h.watchFrozen, Bool.false_eq_true, if_false]
  rw [hns', hns, hcounted, h.startTime]
  omega

theorem Agrees.stamp (h : Agrees start false t s) (now : Timespec) :
    Agrees start false t (s.observe (.clock .stamp now)) where
  timeFrozen := h.timeFrozen
  watchFrozen := h.watchFrozen
  startTime := h.startTime
  total := h.total
  thawed _ := by
    have hthawed := h.thawed rfl
    simp only [Stopwatch.observe, Stopwatch.read, h.watchFrozen, Bool.false_eq_true, if_false]
    omega
  since hf := nomatch hf
  cached hf := nomatch hf

theorem Agrees.freeze (h : Agrees start false t s) (hstart : start.Normalized)
    (hnow : now.Normalized) :
    Agrees start true (t.freeze now) (s.observe (.clock .freeze now)) where
  timeFrozen := rfl
  watchFrozen := rfl
  startTime := h.startTime
  total := h.total
  thawed hf := nomatch hf
  since _ := by
    refine ⟨hnow, ?_⟩
    have hthawed := h.thawed rfl
    simp only [TimeState.freeze, Stopwatch.observe, Stopwatch.read, h.watchFrozen,
      Bool.false_eq_true, if_false]
    omega
  cached _ := h.reading hstart hnow

theorem Agrees.unfreeze (h : Agrees start true t s) (hnow : now.Normalized) :
    Agrees start false (t.unfreeze now) (s.observe (.clock .unfreeze now)) := by
  obtain ⟨hfreeze, hsince⟩ := h.since rfl
  obtain ⟨hspent, hspentNs⟩ := Timespec.subtract_spec hnow hfreeze
  obtain ⟨htotal, htotalNs⟩ := Timespec.add_spec h.total hspent
  refine ⟨rfl, rfl, h.startTime, htotal, fun _ => ?_, fun hf => (nomatch hf),
    fun hf => (nomatch hf)⟩
  -- the interval since the freeze does not count
  have hcounted : (s.observe (.clock .unfreeze now)).counted = s.counted := by
    simp only [Stopwatch.observe, Stopwatch.read, h.watchFrozen, if_true]
  calc (t.totalTimeFrozen.add (now.subtract t.startFreezeTime)).ns
      = t.totalTimeFrozen.ns + (now.ns - t.startFreezeTime.ns) := by rw [htotalNs, hspentNs]
    _ = now.ns - start.ns - s.counted := by omega
    _ = (s.observe (.clock .unfreeze now)).last - start.ns -
          (s.observe (.clock .unfreeze now)).counted := by rw [hcounted]; rfl

end Updates

/-- A line carries a normalized stamp that says what the stopwatch shows. Where time is not
frozen the clock was read for it. -/
def LineStamped (start : Timespec) (before : List Event) (stamp : Option Timespec) : Prop :=
  ∃ tp, stamp = some tp ∧ tp.Normalized ∧ tp.ns = (stopwatch start before).counted ∧
    ((stopwatch start before).frozen = false →
      ∃ now, before.getLast? = some (.clock .stamp now))

/-- What holds of an event after the events `before`: lines are stamped, real calls are made
while time runs, and decoding goes on while it is frozen. -/
def EventTimed (start : Timespec) (enabled : Bool) (before : List Event) (e : Event) : Prop :=
  match e with
  | .log stamp _ _ _ => if enabled then LineStamped start before stamp else stamp = none
  | .real _ => (stopwatch start before).frozen = false
  | .load _ _ => enabled = true → (stopwatch start before).frozen = true
  | .cont _ _ => enabled = true → (stopwatch start before).frozen = true
  | .hexdump _ _ => enabled = true → (stopwatch start before).frozen = true
  | _ => True

/-- A moment at which time is frozen, if timestamps are enabled, or not. -/
structure Timed (start : Timespec) (enabled frozen : Bool) (w : World) : Prop where
  timestamps : w.time.enableTimestamps = enabled
  normalized : start.Normalized ∧ ∀ n, (w.clock n).Normalized
  events : AtEvery (EventTimed start enabled) w.trace
  agrees : enabled = true → Agrees start frozen w.time (stopwatch start w.trace)
  idle : enabled = false → w.time.timeIsFrozen = false ∧ (stopwatch start w.trace).frozen = false

section Statements

variable {start : Timespec} {enabled frozen : Bool} {w w' : World}

theorem Timed.congr (h : Timed start enabled frozen w) (htime : w'.time = w.time)
    (hclock : w'.clock = w.clock) (htrace : w'.trace = w.trace) :
    Timed start enabled frozen w' where
  timestamps := htime ▸ h.timestamps
  normalized := hclock ▸ h.normalized
  events := htrace ▸ h.events
  agrees he := by
    rw [htime, htrace]
    exact h.agrees he
  idle he := by
    rw [htime, htrace]
    exact h.idle he

/-- An event that does not read the clock. -/
theorem Timed.emit (h : Timed start enabled frozen w) (e : Event)
    (hwatch : ∀ s : Stopwatch, s.observe e = s) (he : EventTimed start enabled w.trace e) :
    Timed start enabled frozen (w.emit e) where
  timestamps := h.timestamps
  normalized := h.normalized
  events := AtEvery.snoc_iff.mpr ⟨h.events, he⟩
  agrees hen := by
    have hsame : stopwatch start (w.emit e).trace = stopwatch start w.trace :=
      (stopwatch_snoc start w.trace e).trans (hwatch _)
    rw [hsame]
    exact h.agrees hen
  idle hen := by
    have hsame : stopwatch start (w.emit e).trace = stopwatch start w.trace :=
      (stopwatch_snoc start w.trace e).trans (hwatch _)
    rw [hsame]
    exact h.idle hen

/-- The lines so far, wherever a call stopped. -/
def TimedLog (start : Timespec) (enabled : Bool) (w : World) : Prop :=
  AtEvery (EventTimed start enabled) w.trace

/-- The clock is read, with timestamps enabled, and the static variables follow. -/
theorem Timed.clock (h : Timed start true frozen w) (use : ClockUse) (f : TimeState → TimeState)
    {frozen' : Bool} (hf : (f w.time).enableTimestamps = true)
    (hagrees : Agrees start frozen' (f w.time)
      ((stopwatch start w.trace).observe (.clock use (w.clock w.ticks)))) :
    Timed start true frozen' { w.emit (.clock use (w.clock w.ticks)) with
      ticks := w.ticks+1, time := f w.time } where
  timestamps := hf
  normalized := h.normalized
  events := AtEvery.snoc_iff.mpr ⟨h.events, trivial⟩
  agrees _ := by
    rw [← stopwatch_snoc] at hagrees
    exact hagrees
  idle hen := nomatch hen

theorem panwrapFreezeTime_timed : Ensures (Timed start enabled false) panwrapFreezeTime
    (fun _ => Timed start enabled true) (fun _ => TimedLog start enabled) := by
  intro w hw
  unfold panwrapFreezeTime
  rw [hw.timestamps]
  cases enabled with
  | false => exact ⟨hw.timestamps, hw.normalized, hw.events, fun hen => (nomatch hen), hw.idle⟩
  | true =>
    have hfreeze := (hw.agrees rfl).freeze hw.normalized.1 (hw.normalized.2 w.ticks)
    exact hw.clock .freeze (·.freeze (w.clock w.ticks)) hw.timestamps hfreeze

theorem panwrapUnfreezeTime_timed : Ensures (Timed start enabled true) panwrapUnfreezeTime
    (fun _ => Timed start enabled false) (fun _ => TimedLog start enabled) := by
  intro w hw
  unfold panwrapUnfreezeTime
  rw [hw.timestamps]
  cases enabled with
  | false => exact ⟨hw.timestamps, hw.normalized, hw.events, fun hen => (nomatch hen), hw.idle⟩
  | true =>
    have hagrees := hw.agrees rfl
    have hunfreeze := hagrees.unfreeze (hw.normalized.2 w.ticks)
    rw [hagrees.timeFrozen]
    exact hw.clock .unfreeze (·.unfreeze (w.clock w.ticks)) hw.timestamps hunfreeze

theorem timestampGet_timed : Ensures (Timed start true frozen) timestampGet
    (fun tp w => LineStamped start w.trace (some tp) ∧ Timed start true frozen w)
    (fun _ => Timed start true frozen) := by
  intro w hw
  have hagrees := hw.agrees rfl
  unfold timestampGet
  rw [hagrees.timeFrozen]
  cases frozen with
  | false =>
    obtain ⟨htp, hns⟩ := hagrees.reading hw.normalized.1 (hw.normalized.2 w.ticks)
    have hread := hw.clock .stamp id hw.timestamps (hagrees.stamp _)
    refine ⟨⟨_, rfl, htp, ?_, fun _ => ⟨_, List.getLast?_concat⟩⟩, hread⟩
    have hsnoc := stopwatch_snoc start w.trace (.clock .stamp (w.clock w.ticks))
    exact hns.trans (congrArg Stopwatch.counted hsnoc.symm)
  | true =>
    -- the stamp is the one cached at the freeze
    obtain ⟨htp, hns⟩ := hagrees.cached rfl
    refine ⟨⟨_, rfl, htp, hns, fun hrun => ?_⟩, hw⟩
    rw [hagrees.watchFrozen] at hrun
    exact nomatch hrun

theorem logLine_timed (stamp : Option Timespec) (format : String) (args : List Arg) :
    Ensures (fun w => (if enabled then LineStamped start w.trace stamp else stamp = none) ∧
        Timed start enabled frozen w) (logLine stamp format args)
      (fun _ => Timed start enabled frozen) (fun _ => Timed start enabled frozen) :=
  fun _ hw => hw.2.emit _ (fun _ => rfl) hw.1

theorem panwrapLog_timed (format : String) (args : List Arg) :
    Ensures (Timed start enabled frozen) (panwrapLog format args)
      (fun _ => Timed start enabled frozen) (fun _ => Timed start enabled frozen) := by
  intro w hw
  unfold panwrapLog
  rw [hw.timestamps]
  cases enabled with
  | false => exact logLine_timed none format args w ⟨rfl, hw⟩
  | true =>
    have hline (tp : Timespec) :
        Ensures (fun w => LineStamped start w.trace (some tp) ∧ Timed start true frozen w)
          (logLine (some tp) format args) (fun _ => Timed start true frozen)
          (fun _ => Timed start true frozen) :=
      @logLine_timed start true frozen (some tp) format args
    exact timestampGet_timed.bind hline w hw

/-- What the decoders print and read, they do while time is frozen. -/
theorem stable_timed : Stable (Timed start enabled true) where
  emit w e he hw := by
    have hfrozen (hen : enabled = true) : (stopwatch start w.trace).frozen = true :=
      (hw.agrees hen).watchFrozen
    cases e with
    | cont format args => exact hw.emit _ (fun _ => rfl) hfrozen
    | load addr size => exact hw.emit _ (fun _ => rfl) hfrozen
    | hexdump data size => exact hw.emit _ (fun _ => rfl) hfrozen
    | clock | log | indent | real => exact nomatch he
  log := panwrapLog_timed
  indent w level hw := (hw.emit (.indent level) (fun _ => rfl) trivial).congr rfl rfl rfl
  tracker w t hw := hw.congr rfl rfl rfl

theorem Plain.timed {α : Type} {m : Wrap α} (hm : Plain m) :
    Ensures (Timed start enabled true) m (fun _ => Timed start enabled true)
      (fun _ => TimedLog start enabled) :=
  (hm.ensures stable_timed).mono_error fun _ _ hw => hw.events

/-- A real call, made while time runs. -/
theorem orig_timed {α : Type} (call : RealCall) (ret : α) :
    Ensures (Timed start enabled false) (orig call ret) (fun _ => Timed start enabled false)
      (fun _ => TimedLog start enabled) := by
  intro w hw
  refine hw.emit _ (fun _ => rfl) ?_
  cases enabled with
  | false => exact (hw.idle rfl).2
  | true => exact (hw.agrees rfl).watchFrozen

theorem maliFd_timed : Ensures (Timed start enabled frozen) maliFd
    (fun _ => Timed start enabled frozen) (fun _ => TimedLog start enabled) :=
  fun _ hw => hw

theorem setMaliFd_timed (fd : ℤ) : Ensures (Timed start enabled frozen) (setMaliFd fd)
    (fun _ => Timed start enabled frozen) (fun _ => TimedLog start enabled) :=
  fun _ hw => hw.congr rfl rfl rfl

theorem setMem_timed (mem : Memory) : Ensures (Timed start enabled frozen) (setMem mem)
    (fun _ => Timed start enabled frozen) (fun _ => TimedLog start enabled) :=
  fun _ hw => hw.congr rfl rfl rfl

theorem lock_timed : Ensures (Timed start enabled frozen) lock
    (fun _ => Timed start enabled frozen) (fun _ => TimedLog start enabled) := by
  intro w hw
  unfold lock
  cases w.locked with
  | false => exact hw.congr rfl rfl rfl
  | true => exact hw.events

theorem unlock_timed : Ensures (Timed start enabled frozen) unlock
    (fun _ => Timed start enabled frozen) (fun _ => TimedLog start enabled) :=
  fun _ hw => hw.congr rfl rfl rfl

end Statements

section Wrappers

variable {start : Timespec} {enabled : Bool}

theorem log_timed {frozen : Bool} (format : String) (args : List Arg) :
    Ensures (Timed start enabled frozen) (panwrapLog format args)
      (fun _ => Timed start enabled frozen) (fun _ => TimedLog start enabled) :=
  (panwrapLog_timed format args).mono_error fun _ _ hw => hw.events

theorem noteOpened_timed (path : String) (ret : ℤ) :
    Ensures (Timed start enabled false) (noteOpened path ret)
      (fun _ => Timed start enabled false) (fun _ => TimedLog start enabled) := by
  unfold noteOpened
  split_ifs
  · exact (log_timed _ _).bind fun _ => setMaliFd_timed ret
  · exact log_timed _ _
  · exact Ensures.pure ()

theorem panwrapOpenWrap_timed (symbol : OpenSymbol) (path : String) (flags mode : U32) (ret : ℤ) :
    Ensures (Timed start enabled false) (panwrapOpenWrap symbol path flags mode ret)
      (fun _ => Timed start enabled false) (fun _ => TimedLog start enabled) := by
  refine (orig_timed _ _).bind fun ret => lock_timed.bind fun _ => Ensures.bind ?_ fun _ =>
    unlock_timed.bind fun _ => Ensures.pure ret
  split_ifs
  · exact noteOpened_timed path ret
  · exact Ensures.pure ()

theorem close_timed (fd ret : ℤ) : Ensures (Timed start enabled false) (Panloader.close fd ret)
    (fun _ => Timed start enabled false) (fun _ => TimedLog start enabled) := by
  have hnote : Ensures (Timed start enabled false) (noteClosed fd)
      (fun _ => Timed start enabled false) (fun _ => TimedLog start enabled) := by
    refine maliFd_timed.bind fun mali => ?_
    split_ifs
    · exact (log_timed _ _).bind fun _ => setMaliFd_timed 0
    · exact Ensures.pure ()
  refine maliFd_timed.bind fun mali => ?_
  split_ifs
  · exact orig_timed _ _
  · exact lock_timed.bind fun _ => hnote.bind fun _ => unlock_timed.bind fun _ => orig_timed _ _

theorem origIoctl_timed (fd : ℤ) (request : U32) (ptr : U64) (env : IoctlEnv) :
    Ensures (Timed start enabled false) (origIoctl fd request ptr env)
      (fun _ => Timed start enabled false) (fun _ => TimedLog start enabled) :=
  (orig_timed _ _).bind fun ret => (setMem_timed _).bind fun _ => Ensures.pure ret

/-- Around the real `ioctl` time runs again. -/
theorem ioctlNoArguments_timed (fd : ℤ) (request : U32) (env : IoctlEnv) :
    Ensures (Timed start enabled true) (ioctlNoArguments fd request env)
      (fun _ => Timed start enabled true) (fun _ => TimedLog start enabled) := by
  refine (log_timed _ _).bind fun _ => panwrapUnfreezeTime_timed.bind fun _ =>
    (origIoctl_timed fd request 0 env).bind fun ret => panwrapFreezeTime_timed.bind fun _ =>
      Plain.timed ?_
  infer_instance

theorem ioctlDecoded_timed (fd : ℤ) (request : U32) (ptr : U64) (env : IoctlEnv) :
    Ensures (Timed start enabled true) (ioctlDecoded fd request ptr env)
      (fun _ => Timed start enabled true) (fun _ => TimedLog start enabled) := by
  refine (plain_load32 ptr).timed.bind fun func => (log_timed _ _).bind fun _ =>
    plain_indentIncr.timed.bind fun _ => (plain_ioctlDecodePre _ ptr).timed.bind fun _ =>
      panwrapUnfreezeTime_timed.bind fun _ => (origIoctl_timed fd request ptr env).bind fun ret =>
        panwrapFreezeTime_timed.bind fun _ => Plain.timed ?_
  infer_instance

theorem ioctl_timed (fd : ℤ) (request : U32) (arg : Option U64) (env : IoctlEnv) :
    Ensures (Timed start enabled false) (Panloader.ioctl fd request arg env)
      (fun _ => Timed start enabled false) (fun _ => TimedLog start enabled) := by
  refine (setMem_timed env.before).bind fun _ => maliFd_timed.bind fun mali => ?_
  split_ifs
  · exact origIoctl_timed fd request _ env
  · exact lock_timed.bind fun _ => panwrapFreezeTime_timed.bind fun _ =>
      (plain_lookUpName request env).timed.bind fun _ =>
        (ioctlNoArguments_timed fd request env).bind fun ret =>
          panwrapUnfreezeTime_timed.bind fun _ => unlock_timed.bind fun _ => Ensures.pure ret
  · exact lock_timed.bind fun _ => panwrapFreezeTime_timed.bind fun _ =>
      (plain_lookUpName request env).timed.bind fun _ =>
        (ioctlDecoded_timed fd request _ env).bind fun ret =>
          panwrapUnfreezeTime_timed.bind fun _ => unlock_timed.bind fun _ => Ensures.pure ret

theorem panwrapMmapWrap_timed (symbol : MmapSymbol) (addr length : U64) (prot flags : U32)
    (fd : ℤ) (offset ret : U64) :
    Ensures (Timed start enabled false)
      (panwrapMmapWrap symbol addr length prot flags fd offset ret)
      (fun _ => Timed start enabled false) (fun _ => TimedLog start enabled) := by
  refine maliFd_timed.bind fun mali => ?_
  split_ifs
  · exact orig_timed _ _
  · exact lock_timed.bind fun _ => (orig_timed _ _).bind fun ret =>
      panwrapFreezeTime_timed.bind fun _ =>
        (plain_panwrapTrackMmap offset ret length prot flags).timed.bind fun _ =>
          panwrapUnfreezeTime_timed.bind fun _ => unlock_timed.bind fun _ => Ensures.pure ret

theorem munmap_timed (addr length : U64) (ret : ℤ) :
    Ensures (Timed start enabled false) (Panloader.munmap addr length ret)
      (fun _ => Timed start enabled false) (fun _ => TimedLog start enabled) := by
  have huntrack (found : Option PanwrapMappedMemory) : Plain (untrackMunmap addr found) := by
    cases found <;> unfold untrackMunmap <;> infer_instance
  refine lock_timed.bind fun _ => (orig_timed _ _).bind fun ret =>
    panwrapFreezeTime_timed.bind fun _ => plain_tracker.timed.bind fun t =>
      (huntrack _).timed.bind fun _ => panwrapUnfreezeTime_timed.bind fun _ =>
        unlock_timed.bind fun _ => Ensures.pure ret

theorem Call.exec_timed (call : Call) : Ensures (Timed start enabled false) call.exec
    (fun _ => Timed start enabled false) (fun _ => TimedLog start enabled) := by
  cases call with
  | «open» symbol path flags mode ret =>
    exact (panwrapOpenWrap_timed symbol path flags mode ret).map Value.int
  | close fd ret => exact (close_timed fd ret).map Value.int
  | ioctl fd request arg env => exact (ioctl_timed fd request arg env).map Value.int
  | mmap symbol addr length prot flags fd offset ret =>
    exact (panwrapMmapWrap_timed symbol addr length prot flags fd offset ret).map Value.ptr
  | munmap addr length ret => exact (munmap_timed addr length ret).map Value.int

end Wrappers

theorem World.initial_timed (enableTimestamps enableHexdumpTrimming : Bool)
    {clock : ℕ → Timespec} (hclock : ∀ n, (clock n).Normalized) :
    Timed (clock 0) enableTimestamps false
      (World.initial enableTimestamps enableHexdumpTrimming clock) where
  timestamps := rfl
  normalized := ⟨hclock 0, hclock⟩
  events := AtEvery.nil _
  agrees hen := by
    have hzero : Timespec.Normalized ⟨0, 0⟩ := by simp [Timespec.Normalized]
    refine ⟨rfl, rfl, ?_, hzero, fun _ => ?_, fun hf => (nomatch hf), fun hf => (nomatch hf)⟩
    · simp only [World.initial, hen, if_true]
    · simp [World.initial, stopwatch, Timespec.ns]
  idle _ := ⟨rfl, rfl⟩

/-- In every run every line has the time that the stopwatch shows, which does not count what was
frozen, and so have the lines of a call that did not return. -/
theorem timestamps_skip_frozen_time (enableTimestamps enableHexdumpTrimming : Bool)
    {clock : ℕ → Timespec} (hclock : ∀ n, (clock n).Normalized) {steps : List Step} {w : World}
    (hrun : Run (World.initial enableTimestamps enableHexdumpTrimming clock) steps w) :
    TimedLog (clock 0) enableTimestamps w ∧
      ∀ call e w', Call.exec call w = .error e w' → TimedLog (clock 0) enableTimestamps w' := by
  obtain ⟨hw, -⟩ := hrun.invariant
    (World.initial_timed enableTimestamps enableHexdumpTrimming hclock)
    fun w call v w' hw hexec => (call.exec_timed).ok hw hexec
  refine ⟨hw.events, fun call e w' hexec => ?_⟩
  have herror := call.exec_timed w hw
  rwa [hexec] at herror

/-- The second between the freeze and the unfreeze of `munmap` does not count. -/
theorem timestamps_skip_frozen_time_after_munmap :
    ∃ steps w, Run (World.initial true true fun n => ⟨n, 0⟩) steps w ∧ steps.length = 2 ∧
      w.trace.getLast? = some (.log (some ⟨2, 0⟩) 0 "/dev/mali0 fd == %d\n" [.int 3]) ∧
      TimedLog ⟨0, 0⟩ true w := by
  have hmunmap : Call.exec (.munmap 4096 4096 0) (World.initial true true fun n => ⟨n, 0⟩) =
      .ok _ _ := rfl
  have hrun := (Run.snoc .nil hmunmap).snoc (show openMali.exec _ = .ok _ _ from rfl)
  have hclock (n : ℕ) : Timespec.Normalized ⟨n, 0⟩ := by simp [Timespec.Normalized]
  exact ⟨_, _, hrun, rfl, rfl, (timestamps_skip_frozen_time true true hclock hrun).1⟩

end Panloader
