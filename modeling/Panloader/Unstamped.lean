import Panloader.Erasure
import Panloader.PlainPrograms
import Panloader.Runs

/-! Timestamps and the rest of the wrapper. Without timestamps every call does what it does with
them, and logs the same lines without their stamps. -/
namespace Panloader
open Effects

set_option synthInstance.maxSize 4000

/-- An event of a log without timestamps: the clock is not read, and lines have no stamp. -/
def Event.unstamped : Event → Option Event
  | .clock _ _ => none
  | .log _ level format args => some (.log none level format args)
  | e => some e

/-- The state as it would be without timestamps. -/
def World.unstamped (w : World) : World :=
  { w with
    time := ⟨false, false, ⟨0, 0⟩, ⟨0, 0⟩, ⟨0, 0⟩, ⟨0, 0⟩⟩
    clock := fun _ => ⟨0, 0⟩
    ticks := 0
    trace := w.trace.filterMap Event.unstamped }

section Statements

variable {α : Type} {w : World}

theorem World.unstamped_emit {e e' : Event} (h : e.unstamped = some e') :
    (w.emit e).unstamped = w.unstamped.emit e' := by
  simp [World.emit, World.unstamped, h]

theorem World.unstamped_clock (use : ClockUse) (now : Timespec) (time : TimeState) (ticks : ℕ) :
    World.unstamped { w.emit (.clock use now) with time := time, ticks := ticks } =
      w.unstamped := by
  simp [World.emit, World.unstamped, Event.unstamped]

theorem Event.unstamped_plain {e : Event} (h : e.plain) : e.unstamped = some e := by
  cases e with
  | cont | load | hexdump => rfl
  | clock | log | indent | real => cases h

theorem World.unstamped_disabled (w : World) : ¬w.unstamped.time.enableTimestamps = true :=
  Bool.false_ne_true

theorem blind_panwrapLog (format : String) (args : List Arg) :
    Blind World.unstamped (panwrapLog format args) where
  erases w := by
    rw [panwrapLog_plain w.unstamped_disabled]
    by_cases ht : w.time.enableTimestamps = true
    · rw [panwrapLog_stamped ht]
      by_cases hf : w.time.timeIsFrozen = true
      · rw [bind_ok (timestampGet_frozen hf)]
        exact congrArg (EStateM.Result.ok ()) (World.unstamped_emit rfl)
      · rw [bind_ok (timestampGet_running hf)]
        refine congrArg (EStateM.Result.ok ()) ((World.unstamped_emit rfl).trans ?_)
        exact congrArg (World.emit · _) (World.unstamped_clock _ _ _ _)
    · rw [panwrapLog_plain ht]
      exact congrArg (EStateM.Result.ok ()) (World.unstamped_emit rfl)

theorem blind_setIndent (level : World → ℤ) (h : ∀ w, level w.unstamped = level w) :
    Blind World.unstamped (fun w => .ok () (w.setIndent (level w)) : Wrap Unit) where
  erases w := by
    change EStateM.Result.ok () _ = EStateM.Result.ok () _
    simp [World.setIndent, World.unstamped, Event.unstamped, ← h w]

theorem blind_emit {e : Event} (h : e.unstamped = some e) : Blind World.unstamped (emit e) where
  erases _ := congrArg (EStateM.Result.ok ()) (World.unstamped_emit h)

/-- Nothing that decoders are put together from depends on timestamps. -/
theorem Plain.blind {m : Wrap α} (hm : Plain m) : Blind World.unstamped m := by
  induction hm with
  | pure a => exact blind_pure a
  | bind hm hf ihm ihf => exact blind_bind
  | halt h => exact ⟨fun _ => rfl⟩
  | emit e he => exact blind_emit (Event.unstamped_plain he)
  | load n a => exact ⟨fun w => congrArg (EStateM.Result.ok _) (World.unstamped_emit rfl)⟩
  | log format args => exact blind_panwrapLog format args
  | indentIncr => exact blind_setIndent (·.panwrapIndent + 1) fun _ => rfl
  | indentDecr => exact blind_setIndent (·.panwrapIndent - 1) fun _ => rfl
  | indentReset => exact blind_setIndent (fun _ => 0) fun _ => rfl
  | tracker => exact ⟨fun _ => rfl⟩
  | setTracker t => exact ⟨fun _ => rfl⟩
  | trimming => exact ⟨fun _ => rfl⟩

instance (priority := low) blind_plain {m : Wrap α} [hm : Plain m] : Blind World.unstamped m :=
  hm.blind

instance blind_maliFd : Blind World.unstamped maliFd := ⟨fun _ => rfl⟩
instance blind_setMaliFd (fd : ℤ) : Blind World.unstamped (setMaliFd fd) := ⟨fun _ => rfl⟩
instance blind_setMem (mem : Memory) : Blind World.unstamped (setMem mem) := ⟨fun _ => rfl⟩
instance blind_unlock : Blind World.unstamped unlock := ⟨fun _ => rfl⟩

instance blind_lock : Blind World.unstamped lock where
  erases w := by
    change erase _ (if w.locked = true then _ else _) = if w.locked = true then _ else _
    split_ifs
    · rfl
    · rfl

instance blind_orig (call : RealCall) (ret : α) : Blind World.unstamped (orig call ret) where
  erases _ := congrArg (EStateM.Result.ok ret) (World.unstamped_emit rfl)

instance blind_panwrapFreezeTime : Blind World.unstamped panwrapFreezeTime where
  erases w := by
    rw [panwrapFreezeTime_disabled w.unstamped_disabled]
    by_cases ht : w.time.enableTimestamps = true
    · rw [panwrapFreezeTime_enabled ht]
      exact congrArg (EStateM.Result.ok ()) (World.unstamped_clock _ _ _ _)
    · rw [panwrapFreezeTime_disabled ht]
      rfl

instance blind_panwrapUnfreezeTime : Blind World.unstamped panwrapUnfreezeTime where
  erases w := by
    rw [panwrapUnfreezeTime_skipped (w := w.unstamped) rfl]
    by_cases ht : (!w.time.enableTimestamps || !w.time.timeIsFrozen) = true
    · rw [panwrapUnfreezeTime_skipped ht]
      rfl
    · rw [panwrapUnfreezeTime_frozen ht]
      exact congrArg (EStateM.Result.ok ()) (World.unstamped_clock _ _ _ _)

end Statements

section Calls

instance blind_noteOpened (path : String) (ret : ℤ) :
    Blind World.unstamped (noteOpened path ret) := by
  unfold noteOpened
  infer_instance

instance blind_noteClosed (fd : ℤ) : Blind World.unstamped (noteClosed fd) := by
  unfold noteClosed
  infer_instance

instance blind_origIoctl (fd : ℤ) (request : U32) (ptr : U64) (env : IoctlEnv) :
    Blind World.unstamped (origIoctl fd request ptr env) := by
  unfold origIoctl
  infer_instance

instance blind_ioctlNoArguments (fd : ℤ) (request : U32) (env : IoctlEnv) :
    Blind World.unstamped (ioctlNoArguments fd request env) := by
  unfold ioctlNoArguments
  infer_instance

instance blind_ioctlDecoded (fd : ℤ) (request : U32) (ptr : U64) (env : IoctlEnv) :
    Blind World.unstamped (ioctlDecoded fd request ptr env) := by
  unfold ioctlDecoded
  infer_instance

instance blind_ioctl (fd : ℤ) (request : U32) (arg : Option U64) (env : IoctlEnv) :
    Blind World.unstamped (Panloader.ioctl fd request arg env) := by
  unfold Panloader.ioctl
  infer_instance

instance blind_untrackMunmap (addr : U64) (mem : Option PanwrapMappedMemory) :
    Blind World.unstamped (untrackMunmap addr mem) := by
  cases mem <;> unfold untrackMunmap <;> infer_instance

/-- Every overridden function does without timestamps what it does with them. -/
instance blind_exec (call : Call) : Blind World.unstamped call.exec := by
  cases call with
  | «open» | close | ioctl | mmap | munmap =>
    unfold Call.exec
    simp only [panwrapOpenWrap, Panloader.close, panwrapMmapWrap, Panloader.munmap]
    infer_instance

end Calls

section Runs

variable {start w : World} {steps : List Step}

def Step.unstamped (s : Step) : Step := ⟨s.before.unstamped, s.call, s.value, s.after.unstamped⟩

theorem World.initial_unstamped (enableTimestamps trimming : Bool) (clock : ℕ → Timespec) :
    (World.initial enableTimestamps trimming clock).unstamped =
      World.initial false trimming fun _ => ⟨0, 0⟩ := rfl

theorem Run.unstamped (h : Run start steps w) :
    Run start.unstamped (steps.map Step.unstamped) w.unstamped := by
  induction h with
  | nil => exact .nil
  | @snoc steps w w' call value _ hexec ih =>
    rw [List.map_append]
    exact ih.snoc ((blind_exec call).ok hexec)

/-- A run without timestamps is what is left of a run with them. -/
theorem Run.stamped (start : World) {steps : List Step} {w : World}
    (h : Run start.unstamped steps w) :
    ∃ steps' w', Run start steps' w' ∧ steps'.map Step.unstamped = steps ∧ w'.unstamped = w := by
  induction h with
  | nil => exact ⟨[], start, .nil, rfl, rfl⟩
  | @snoc steps w w' call value _ hexec ih =>
    obtain ⟨steps', u, hrun, rfl, rfl⟩ := ih
    obtain ⟨u', hu', rfl⟩ := (blind_exec call).lift hexec
    refine ⟨_, u', hrun.snoc hu', ?_, rfl⟩
    rw [List.map_append]
    rfl

/-- Runs with timestamps and runs without them are the same, whatever the clock shows: the same
calls get the same answers, and the log differs in the stamps only. A call that does not return
ends in the same way in both. -/
theorem timestamps_only_stamp (trimming : Bool) (clock : ℕ → Timespec) :
    (∀ steps w, Run (World.initial true trimming clock) steps w →
      Run (World.initial false trimming fun _ => ⟨0, 0⟩) (steps.map Step.unstamped) w.unstamped ∧
      ∀ call e w', Call.exec call w = .error e w' →
        call.exec w.unstamped = .error e w'.unstamped) ∧
    ∀ steps w, Run (World.initial false trimming fun _ => ⟨0, 0⟩) steps w →
      ∃ steps' w', Run (World.initial true trimming clock) steps' w' ∧
        steps'.map Step.unstamped = steps ∧ w'.unstamped = w := by
  constructor
  · intro steps w h
    have hrun := h.unstamped
    rw [World.initial_unstamped] at hrun
    exact ⟨hrun, fun call _ _ hexec => (blind_exec call).error hexec⟩
  · intro steps w h
    rw [← World.initial_unstamped true trimming clock] at h
    exact Run.stamped _ h

end Runs
end Panloader
