import Panloader.Histories
import Panloader.WrapperSpecs

/-! Runs of intercepted calls: invariants of the states between calls, and the state the
wrapper is at rest in. -/
namespace Panloader
open Effects

/-- A start without timestamps. -/
def World.plain : World := World.initial false true fun _ => ⟨0, 0⟩

def World.withMmaps (w : World) (mmaps : List PanwrapMappedMemory) : World :=
  { w with tracker := { w.tracker with mmaps := mmaps } }

section Invariants

variable {start w : World} {steps : List Step}

/-- What holds at the start and survives every call that returns holds around every call. -/
theorem Run.invariant {I : World → Prop} (hrun : Run start steps w) (hstart : I start)
    (hstep : ∀ w call v w', I w → Call.exec call w = .ok v w' → I w') :
    I w ∧ ∀ s ∈ steps, I s.before ∧ I s.after ∧ s.call.exec s.before = .ok s.value s.after := by
  induction hrun with
  | nil => exact ⟨hstart, fun _ hs => absurd hs List.not_mem_nil⟩
  | @snoc steps w w' call value hrun hexec ih =>
    have hw' : I w' := hstep w call value w' ih.1 hexec
    refine ⟨hw', fun s hs => ?_⟩
    -- an earlier step, or the last one
    rcases List.mem_append.mp hs with hs | hs
    · exact ih.2 s hs
    · rw [List.mem_singleton.mp hs]
      exact ⟨ih.1, hw', hexec⟩

theorem Run.exec_of_mem (hrun : Run start steps w) {s : Step} (hs : s ∈ steps) :
    s.call.exec s.before = .ok s.value s.after :=
  ((hrun.invariant (I := fun _ => True) trivial fun _ _ _ _ _ _ => trivial).2 s hs).2.2

end Invariants

/-- The steps of `calls` and the state they lead to, where all of them return. -/
def World.runCalls (w : World) : List Call → Option (List Step × World)
  | [] => some ([], w)
  | call :: calls =>
    match call.exec w with
    | .ok v w' => (w'.runCalls calls).map fun r => (⟨w, call, v, w'⟩ :: r.1, r.2)
    | .error _ _ => none

/-- The tracker after `calls`. -/
def World.trackerAfter (w : World) (calls : List Call) : Option Tracker :=
  (w.runCalls calls).map fun r => r.2.tracker

theorem Run.append_calls {start w : World} {steps : List Step} (hrun : Run start steps w)
    {calls : List Call} {r : List Step × World} (h : w.runCalls calls = some r) :
    Run start (steps ++ r.1) r.2 := by
  induction calls generalizing w steps r with
  | nil =>
    rw [← Option.some.inj h, List.append_nil]
    exact hrun
  | cons call calls ih =>
    unfold World.runCalls at h
    cases hexec : call.exec w with
    | error e v =>
      rw [hexec] at h
      exact nomatch h
    | ok v u =>
      rw [hexec] at h
      obtain ⟨r', hr', rfl⟩ := Option.map_eq_some_iff.mp h
      have hrun' := ih (hrun.snoc hexec) hr'
      rwa [List.append_assoc] at hrun'

theorem World.runCalls_calls {w : World} {calls : List Call} {r : List Step × World}
    (h : w.runCalls calls = some r) : r.1.map Step.call = calls := by
  induction calls generalizing w r with
  | nil =>
    cases h
    rfl
  | cons call calls ih =>
    rw [World.runCalls] at h
    cases hexec : call.exec w with
    | error e v =>
      rw [hexec] at h
      exact nomatch h
    | ok v u =>
      rw [hexec] at h
      obtain ⟨r', hr', rfl⟩ := Option.map_eq_some_iff.mp h
      rw [List.map_cons, ih hr']

/-- Calls that all return make a run, of which `f` can be computed. -/
theorem Run.of_calls {α : Type} {start : World} {calls : List Call} {f : List Step × World → α}
    {x : α} (h : (start.runCalls calls).map f = some x) :
    ∃ steps w, Run start steps w ∧ f (steps, w) = x := by
  obtain ⟨r, hr, hx⟩ := Option.map_eq_some_iff.mp h
  exact ⟨r.1, r.2, Run.append_calls .nil hr, hx⟩

theorem World.runCalls_snoc {w w' : World} {calls : List Call} {call : Call} {steps : List Step}
    (h : w.runCalls (calls ++ [call]) = some (steps, w')) :
    ∃ steps' v u, w.runCalls calls = some (steps', u) ∧ call.exec u = .ok v w' := by
  induction calls generalizing w steps with
  | nil =>
    rw [List.nil_append, World.runCalls] at h
    cases hexec : call.exec w with
    | ok v u =>
      rw [hexec] at h
      obtain ⟨-, rfl⟩ := Prod.mk.inj (Option.some.inj h)
      exact ⟨[], v, w, rfl, hexec⟩
    | error e u =>
      rw [hexec] at h
      exact nomatch h
  | cons first calls ih =>
    rw [List.cons_append, World.runCalls] at h
    cases hexec : first.exec w with
    | ok v u =>
      rw [hexec] at h
      obtain ⟨⟨rest, u'⟩, hrest, hr⟩ := Option.map_eq_some_iff.mp h
      obtain ⟨-, rfl⟩ := Prod.mk.inj hr
      obtain ⟨steps', v', u'', hcalls, hlast⟩ := ih hrest
      refine ⟨⟨w, first, v, u⟩ :: steps', v', u'', ?_, hlast⟩
      rw [World.runCalls, hexec]
      exact congrArg (Option.map _) hcalls
    | error e u =>
      rw [hexec] at h
      exact nomatch h

/-- One more call after a run, with the trackers around it. -/
theorem Run.of_trackers {start : World} {calls : List Call} {call : Call} {t t' : Tracker}
    (h : start.trackerAfter calls = some t) (h' : start.trackerAfter (calls ++ [call]) = some t') :
    ∃ steps w v w', Run start steps w ∧ call.exec w = .ok v w' ∧ w.tracker = t ∧
      w'.tracker = t' := by
  obtain ⟨⟨steps, w⟩, hw, ht⟩ := Option.map_eq_some_iff.mp h
  obtain ⟨⟨steps', w'⟩, hw', ht'⟩ := Option.map_eq_some_iff.mp h'
  obtain ⟨steps'', v, u, hu, hexec⟩ := World.runCalls_snoc hw'
  obtain ⟨-, rfl⟩ := Prod.mk.inj (Option.some.inj (hw.symm.trans hu))
  exact ⟨steps, w, v, w', Run.append_calls .nil hw, hexec, ht, ht'⟩

/-- The Mali device is opened as descriptor 3. -/
def openMali : Call := .open .open "/dev/mali0" 2 0 3

/-- A successful `MALI_IOCTL_MEM_ALLOC` whose argument, at 0x1000, comes back with `gpu_va`
0x1000 and no flags. -/
def allocCookie : Call :=
  .ioctl 3 0xc0388200 (some 0x1000)
    ⟨fun _ => 0, fun a => if a = 0x1029 then 0x10 else 0, 0, 0, false⟩

/-- A page is mapped for the cookie, at a CPU address of the kernel's choice. -/
def mapCookie (ret : U64) : Call := .mmap .mmap64 0 0x1000 3 1 3 0x1000 ret

/-- `P` holds of every step, with the steps before it. -/
def AtEveryStep (P : List Step → Step → Prop) (steps : List Step) : Prop :=
  ∀ before s after, steps = before ++ s :: after → P before s

theorem atEveryStep_iff {P : List Step → Step → Prop} {steps : List Step} :
    AtEveryStep P steps ↔ ∀ i : Fin steps.length, P (steps.take i) (steps.get i) := by
  constructor
  · intro h i
    refine h (steps.take i) (steps.get i) (steps.drop (i+1)) ?_
    rw [List.get_eq_getElem, List.getElem_cons_drop, List.take_append_drop]
  · rintro h before s after rfl
    have hi : before.length < (before ++ s :: after).length := by simp
    simpa using h ⟨before.length, hi⟩

instance (P : List Step → Step → Prop) [∀ before s, Decidable (P before s)] (steps : List Step) :
    Decidable (AtEveryStep P steps) :=
  decidable_of_iff _ atEveryStep_iff.symm

theorem AtEveryStep.nil (P : List Step → Step → Prop) : AtEveryStep P [] :=
  Histories.AtEvery.nil P

theorem AtEveryStep.snoc_iff {P : List Step → Step → Prop} {steps : List Step} {s : Step} :
    AtEveryStep P (steps ++ [s]) ↔ AtEveryStep P steps ∧ P steps s :=
  Histories.AtEvery.snoc_iff

/-- The wrapper between two calls. -/
structure AtRest (w : World) : Prop where
  unlocked : w.locked = false
  thawed : w.time.timeIsFrozen = false
  flush : w.panwrapIndent = 0

/-- Every value that `panwrap_indent` was given from `w` on is at least 0 and below
`bound`. -/
def IndentStays (bound : ℕ) (w w' : World) : Prop :=
  ∃ es, w'.trace = w.trace ++ es ∧ ∀ v ∈ levels es, 0 ≤ v ∧ v < bound

theorem World.initial_atRest (enableTimestamps enableHexdumpTrimming : Bool)
    (clock : ℕ → Timespec) :
    AtRest (World.initial enableTimestamps enableHexdumpTrimming clock) :=
  ⟨rfl, rfl, rfl⟩

theorem Since.indentStays {w w' : World} {calls : List RealCall} (h : Since w calls indentBound w')
    (hw : w.panwrapIndent = 0) : IndentStays (indentBound+1) w w' := by
  obtain ⟨es, htrace, -, hlevels⟩ := h
  refine ⟨es, htrace, fun v hv => ?_⟩
  have hb := hlevels (by omega) v hv
  rw [hw] at hb
  omega

/-- A call that returns leaves the wrapper at rest again. -/
theorem AtRest.exec {w w' : World} {call : Call} {v : Value} (hw : AtRest w)
    (h : call.exec w = .ok v w') : AtRest w' ∧ IndentStays (indentBound+1) w w' := by
  have hat := (Call.exec_ok h).2
  have hstage : w'.stage.locked = false ∧ w'.stage.frozen = false := by
    rw [hat.stage]
    exact call.stageAfter_released hw.unlocked hw.thawed
  have hindent : w'.panwrapIndent = 0 := by
    have hi := hat.indent
    rw [hw.flush] at hi
    exact hi
  exact ⟨⟨hstage.1, hstage.2, hindent⟩, hat.since.indentStays hw.flush⟩

/-- A call that does not return has kept the indent within bounds until it stopped. -/
theorem AtRest.exec_error {w w' : World} {call : Call} {e : Halt} (hw : AtRest w)
    (h : call.exec w = .error e w') : IndentStays (indentBound+1) w w' := by
  have hs := Call.exec_ensures w call w rfl
  rw [h] at hs
  obtain ⟨calls, hsince⟩ := hs
  exact hsince.indentStays hw.flush

/-- In every run the wrapper is at rest before and after each call that returned, with the
same indent, which stays between 0 and a fixed bound within every call, returning or not. -/
theorem wrapper_at_rest (enableTimestamps enableHexdumpTrimming : Bool) (clock : ℕ → Timespec)
    {steps : List Step} {w : World}
    (hrun : Run (World.initial enableTimestamps enableHexdumpTrimming clock) steps w) :
    AtRest w ∧
      (∀ s ∈ steps, AtRest s.after ∧ s.after.panwrapIndent = s.before.panwrapIndent ∧
        IndentStays (indentBound+1) s.before s.after) ∧
      ∀ call e w', Call.exec call w = .error e w' → IndentStays (indentBound+1) w w' := by
  obtain ⟨hw, hsteps⟩ := hrun.invariant (World.initial_atRest _ _ clock)
    fun _ _ _ _ hw h => (hw.exec h).1
  refine ⟨hw, fun s hs => ?_, fun call e w' h => hw.exec_error h⟩
  obtain ⟨hbefore, hafter, hexec⟩ := hsteps s hs
  have hsame : s.after.panwrapIndent = s.before.panwrapIndent := by
    rw [hafter.flush, hbefore.flush]
  exact ⟨hafter, hsame, (hbefore.exec hexec).2⟩

/-- One atom, at 0x3000, whose job chain is the page that was mapped at 0x5000: a job that sets a
value. -/
def submitMapped : Call :=
  let mem : Memory := fun a =>
    if a = 0x2009 then 0x30 else if a = 0x2010 then 1 else if a = 0x2014 then 48
    else if a = 0x3001 then 0x10 else if a = 0x5010 then 4 else 0
  .ioctl 3 0xc018821c (some 0x2000) ⟨mem, mem, 0, 0, false⟩

/-- The device is opened, a page is mapped, and a job in it is submitted and decoded. -/
theorem wrapper_at_rest_after_submit :
    ∃ steps w, Run (World.initial true true fun n => ⟨n, 0⟩) steps w ∧
      steps.map Step.call = [openMali, allocCookie, mapCookie 0x5000, submitMapped] ∧
      AtRest w := by
  have hreturn : ((World.initial true true fun n => ⟨n, 0⟩).runCalls
      [openMali, allocCookie, mapCookie 0x5000, submitMapped]).map
        (fun r => r.1.length) = some 4 := by decide +kernel
  obtain ⟨⟨steps, w⟩, hcalls, -⟩ := Option.map_eq_some_iff.mp hreturn
  have hrun : Run (World.initial true true fun n => ⟨n, 0⟩) steps w := Run.append_calls .nil hcalls
  exact ⟨steps, w, hrun, World.runCalls_calls hcalls,
    (wrapper_at_rest true true (fun n => ⟨n, 0⟩) hrun).1⟩

end Panloader
