import Mathlib.Algebra.GroupWithZero.Nat
import Panloader.FrozenTime

/-! The stamps of log lines never run backwards, in whatever order time is frozen, unfrozen and
lines are logged. -/
namespace Panloader
open Effects

inductive LogCall
  | freeze
  | unfreeze
  | log (format : String) (args : List Arg)

def LogCall.exec : LogCall → Wrap Unit
  | .freeze => panwrapFreezeTime
  | .unfreeze => panwrapUnfreezeTime
  | .log format args => panwrapLog format args

def logCalls : List LogCall → Wrap Unit
  | [] => pure ()
  | call :: calls => do
    call.exec
    logCalls calls

def LogCall.lines : LogCall → ℕ
  | .log _ _ => 1
  | _ => 0

def Event.stamp? : Event → Option Timespec
  | .log stamp _ _ _ => stamp
  | _ => none

def stamps (es : List Event) : List Timespec := es.filterMap Event.stamp?

/-- What a stamp would show, in nanoseconds, if the clock read `last`. While time is frozen this
is what it showed at the last freeze. -/
def TimeState.shown (t : TimeState) (last : ℤ) : ℤ :=
  (if t.timeIsFrozen then t.startFreezeTime.ns else last) - t.startTime.ns - t.totalTimeFrozen.ns

/-- After a reading `last` of the clock, no stamp will show less than `low`. -/
structure Steady (t : TimeState) (last low : ℤ) : Prop where
  start : t.startTime.Normalized
  total : t.totalTimeFrozen.Normalized
  low_le : low ≤ t.shown last
  since : t.timeIsFrozen = true → t.startFreezeTime.Normalized ∧ t.startFreezeTime.ns ≤ last
  cached : t.timeIsFrozen = true →
    t.frozenTimestamp.Normalized ∧ t.frozenTimestamp.ns = t.shown last

section Updates

variable {t : TimeState} {last low : ℤ} {now : Timespec}

theorem TimeState.shown_of_frozen (h : t.timeIsFrozen = true) :
    t.shown last = t.startFreezeTime.ns - t.startTime.ns - t.totalTimeFrozen.ns := by
  rw [TimeState.shown, h, if_pos rfl]

theorem TimeState.shown_of_running (h : t.timeIsFrozen = false) :
    t.shown last = last - t.startTime.ns - t.totalTimeFrozen.ns := by
  rw [TimeState.shown, h, if_neg Bool.false_ne_true]

/-- The stamp computed from a reading of the clock. -/
theorem Steady.stamp (h : Steady t last low) (hnow : now.Normalized) :
    ((now.subtract t.startTime).subtract t.totalTimeFrozen).Normalized ∧
      ((now.subtract t.startTime).subtract t.totalTimeFrozen).ns =
        now.ns - t.startTime.ns - t.totalTimeFrozen.ns := by
  obtain ⟨hn, hns⟩ := Timespec.subtract_spec hnow h.start
  obtain ⟨hn', hns'⟩ := Timespec.subtract_spec hn h.total
  refine ⟨hn', ?_⟩
  rw [hns', hns]

/-- What is shown does not decrease from one reading to the next. -/
theorem Steady.low_le_reading (h : Steady t last low) (hlast : last ≤ now.ns) :
    low ≤ now.ns - t.startTime.ns - t.totalTimeFrozen.ns := by
  have hlow := h.low_le
  cases hf : t.timeIsFrozen with
  | false =>
    rw [TimeState.shown_of_running hf] at hlow
    omega
  | true =>
    -- the freeze came before the last reading
    have hsince := (h.since hf).2
    rw [TimeState.shown_of_frozen hf] at hlow
    omega

/-- A freeze, also one while time is frozen. -/
theorem Steady.freeze (h : Steady t last low) (hnow : now.Normalized) (hlast : last ≤ now.ns) :
    Steady (t.freeze now) now.ns low where
  start := h.start
  total := h.total
  low_le := h.low_le_reading hlast
  since _ := ⟨hnow, Int.le_refl _⟩
  cached _ := h.stamp hnow

theorem Steady.unfreeze (h : Steady t last low) (hf : t.timeIsFrozen = true)
    (hnow : now.Normalized) : Steady (t.unfreeze now) now.ns low := by
  obtain ⟨hfreeze, hsince⟩ := h.since hf
  obtain ⟨hspent, hspentNs⟩ := Timespec.subtract_spec hnow hfreeze
  obtain ⟨htotal, htotalNs⟩ := Timespec.add_spec h.total hspent
  refine ⟨h.start, htotal, ?_, fun hrun => (nomatch hrun), fun hrun => (nomatch hrun)⟩
  -- the time since the freeze is taken off
  have hlow := h.low_le
  rw [TimeState.shown_of_frozen hf] at hlow
  rw [TimeState.shown_of_running rfl]
  show low ≤ now.ns - t.startTime.ns - (t.totalTimeFrozen.add (now.subtract t.startFreezeTime)).ns
  omega

theorem Steady.reading (h : Steady t last low) (hf : t.timeIsFrozen = false) (now : Timespec) :
    Steady t now.ns (now.ns - t.startTime.ns - t.totalTimeFrozen.ns) where
  start := h.start
  total := h.total
  low_le := Int.le_of_eq (TimeState.shown_of_running hf).symm
  since hfrozen := nomatch hf.symm.trans hfrozen
  cached hfrozen := nomatch hf.symm.trans hfrozen

end Updates

/-- The clock never runs backwards, and the stamps so far are in order and not above `low`. -/
structure StampsSteady (last low : ℤ) (w : World) : Prop where
  normalized : ∀ n, (w.clock n).Normalized
  ordered : ∀ n, (w.clock n).ns ≤ (w.clock (n+1)).ns
  ahead : last ≤ (w.clock w.ticks).ns
  time : w.time.enableTimestamps = true → Steady w.time last low
  each : ∀ s ∈ stamps w.trace, s.Normalized ∧ 0 ≤ s.ns ∧ s.ns ≤ low
  nonneg : 0 ≤ low
  sorted : (stamps w.trace).Pairwise fun s s' => s.ns ≤ s'.ns

section Calls

variable {last low : ℤ} {w w' : World}

/-- The clock is read, and no line is logged. -/
theorem StampsSteady.read (h : StampsSteady last low w) (use : ClockUse) {t : TimeState}
    (ht : Steady t (w.clock w.ticks).ns low) :
    StampsSteady (w.clock w.ticks).ns low { w.emit (.clock use (w.clock w.ticks)) with
      ticks := w.ticks+1, time := t } := by
  have hstamps : stamps (w.trace ++ [.clock use (w.clock w.ticks)]) = stamps w.trace := by
    simp [stamps, Event.stamp?]
  exact ⟨h.normalized, h.ordered, h.ordered w.ticks, fun _ => ht, hstamps ▸ h.each, h.nonneg,
    hstamps ▸ h.sorted⟩

/-- A line whose stamp is not below the ones before it. -/
theorem StampsSteady.line (h : StampsSteady last low w) {s : Timespec} (hs : s.Normalized)
    (hlow : low ≤ s.ns) (ht : Steady w.time last s.ns) (indent : ℤ) (format : String)
    (args : List Arg) :
    StampsSteady last s.ns (w.emit (.log (some s) indent format args)) := by
  have hstamps : stamps (w.trace ++ [.log (some s) indent format args]) =
      stamps w.trace ++ [s] := by
    simp [stamps, Event.stamp?]
  refine ⟨h.normalized, h.ordered, h.ahead, fun _ => ht, ?_, Int.le_trans h.nonneg hlow, ?_⟩
  · show ∀ s' ∈ stamps (w.trace ++ _), _
    rw [hstamps]
    intro s' hs'
    obtain hold | hnew := List.mem_append.mp hs'
    · obtain ⟨hn, h0, hle⟩ := h.each s' hold
      exact ⟨hn, h0, Int.le_trans hle hlow⟩
    · rw [List.mem_singleton.mp hnew]
      exact ⟨hs, Int.le_trans h.nonneg hlow, Int.le_refl _⟩
  · show (stamps (w.trace ++ _)).Pairwise _
    rw [hstamps]
    refine List.pairwise_append.mpr ⟨h.sorted, List.pairwise_singleton _ _, ?_⟩
    intro s' hs' s'' hs''
    rw [List.mem_singleton.mp hs'']
    exact Int.le_trans (h.each s' hs').2.2 hlow

/-- Without timestamps a line has no stamp. -/
theorem StampsSteady.plainLine (h : StampsSteady last low w) (indent : ℤ) (format : String)
    (args : List Arg) : StampsSteady last low (w.emit (.log none indent format args)) := by
  have hstamps : stamps (w.trace ++ [.log none indent format args]) = stamps w.trace := by
    simp [stamps, Event.stamp?]
  exact ⟨h.normalized, h.ordered, h.ahead, h.time, hstamps ▸ h.each, h.nonneg, hstamps ▸ h.sorted⟩

/-- The stamp that the cached value gives while time is frozen. -/
theorem StampsSteady.frozenLine (h : StampsSteady last low w) (ht : w.time.enableTimestamps = true)
    (hf : w.time.timeIsFrozen = true) (indent : ℤ) (format : String) (args : List Arg) :
    StampsSteady last w.time.frozenTimestamp.ns
      (w.emit (.log (some w.time.frozenTimestamp) indent format args)) := by
  have hsteady := h.time ht
  obtain ⟨hcached, hns⟩ := hsteady.cached hf
  apply h.line hcached
  · rw [hns]
    exact hsteady.low_le
  · exact ⟨hsteady.start, hsteady.total, Int.le_of_eq hns, hsteady.since, hsteady.cached⟩

theorem StampsSteady.runningLine (h : StampsSteady last low w)
    (ht : w.time.enableTimestamps = true) (hf : w.time.timeIsFrozen = false) (indent : ℤ)
    (format : String) (args : List Arg) :
    ∃ low', StampsSteady (w.clock w.ticks).ns low'
      ({ w.emit (.clock .stamp (w.clock w.ticks)) with ticks := w.ticks+1 }.emit
        (.log (some (((w.clock w.ticks).subtract w.time.startTime).subtract
          w.time.totalTimeFrozen)) indent format args)) := by
  have hsteady := h.time ht
  obtain ⟨hstamp, hns⟩ := hsteady.stamp (h.normalized w.ticks)
  have hlow := hsteady.low_le_reading h.ahead
  have hreading := hsteady.reading hf (w.clock w.ticks)
  have hsame : Steady w.time (w.clock w.ticks).ns low :=
    ⟨hsteady.start, hsteady.total, Int.le_trans hlow hreading.low_le, hreading.since,
      hreading.cached⟩
  refine ⟨_, (h.read .stamp hsame).line hstamp ?_ ?_ indent format args⟩
  · rw [hns]
    exact hlow
  · rw [hns]
    exact hreading

theorem panwrapLog_steady (h : StampsSteady last low w) (format : String) (args : List Arg) :
    ∃ w' last' low', panwrapLog format args w = .ok () w' ∧ StampsSteady last' low' w' ∧
      w'.time.enableTimestamps = w.time.enableTimestamps ∧
      (w.time.enableTimestamps = true →
        (stamps w'.trace).length = (stamps w.trace).length + 1) := by
  have hcount (es : List Event) (s : Timespec) (indent : ℤ) (hes : stamps es = []) :
      (stamps (w.trace ++ (es ++ [.log (some s) indent format args]))).length =
        (stamps w.trace).length + 1 := by
    unfold stamps at hes ⊢
    rw [List.filterMap_append, List.filterMap_append, hes]
    simp [Event.stamp?]
  by_cases ht : w.time.enableTimestamps = true
  · rw [panwrapLog_stamped ht]
    by_cases hf : w.time.timeIsFrozen = true
    · rw [bind_ok (timestampGet_frozen hf)]
      exact ⟨_, _, _, rfl, h.frozenLine ht hf _ _ _, rfl, fun _ => hcount [] _ _ rfl⟩
    · obtain ⟨low', hline⟩ :=
        h.runningLine ht (Bool.eq_false_iff.mpr hf) w.panwrapIndent format args
      rw [bind_ok (timestampGet_running hf)]
      refine ⟨_, _, low', rfl, hline, rfl, fun _ => ?_⟩
      have hclock := hcount [.clock .stamp (w.clock w.ticks)] (((w.clock w.ticks).subtract
        w.time.startTime).subtract w.time.totalTimeFrozen) w.panwrapIndent rfl
      rw [← List.append_assoc] at hclock
      exact hclock
  · exact ⟨_, last, low, panwrapLog_plain ht, h.plainLine _ _ _, rfl, fun hon => absurd hon ht⟩

theorem panwrapFreezeTime_steady (h : StampsSteady last low w) :
    ∃ w' last' low', panwrapFreezeTime w = .ok () w' ∧ StampsSteady last' low' w' ∧
      w'.time.enableTimestamps = w.time.enableTimestamps ∧
      (stamps w'.trace).length = (stamps w.trace).length := by
  by_cases ht : w.time.enableTimestamps = true
  · have hsteady := (h.time ht).freeze (h.normalized w.ticks) h.ahead
    refine ⟨_, _, _, panwrapFreezeTime_enabled ht, h.read .freeze hsteady, rfl, ?_⟩
    simp [World.emit, stamps, Event.stamp?]
  · exact ⟨w, last, low, panwrapFreezeTime_disabled ht, h, rfl, rfl⟩

theorem panwrapUnfreezeTime_steady (h : StampsSteady last low w) :
    ∃ w' last' low', panwrapUnfreezeTime w = .ok () w' ∧ StampsSteady last' low' w' ∧
      w'.time.enableTimestamps = w.time.enableTimestamps ∧
      (stamps w'.trace).length = (stamps w.trace).length := by
  by_cases ht : (!w.time.enableTimestamps || !w.time.timeIsFrozen) = true
  · exact ⟨w, last, low, panwrapUnfreezeTime_skipped ht, h, rfl, rfl⟩
  · have hread := panwrapUnfreezeTime_frozen ht
    simp only [Bool.or_eq_true, Bool.not_eq_true', not_or, Bool.not_eq_false] at ht
    have hsteady := (h.time ht.1).unfreeze ht.2 (h.normalized w.ticks)
    refine ⟨_, _, _, hread, h.read .unfreeze hsteady, rfl, ?_⟩
    simp [World.emit, stamps, Event.stamp?]

/-- What one call keeps, and the lines it adds. -/
theorem LogCall.exec_steady (call : LogCall) (h : StampsSteady last low w) :
    ∃ w' last' low', call.exec w = .ok () w' ∧ StampsSteady last' low' w' ∧
      w'.time.enableTimestamps = w.time.enableTimestamps ∧
      (w.time.enableTimestamps = true →
        (stamps w'.trace).length = (stamps w.trace).length + call.lines) := by
  cases call with
  | freeze =>
    obtain ⟨w', last', low', hr, hw', hon, hlines⟩ := panwrapFreezeTime_steady h
    exact ⟨w', last', low', hr, hw', hon, fun _ => hlines⟩
  | unfreeze =>
    obtain ⟨w', last', low', hr, hw', hon, hlines⟩ := panwrapUnfreezeTime_steady h
    exact ⟨w', last', low', hr, hw', hon, fun _ => hlines⟩
  | log format args => exact panwrapLog_steady h format args

theorem logCalls_steady (calls : List LogCall) (h : StampsSteady last low w) :
    ∃ w' last' low', logCalls calls w = .ok () w' ∧ StampsSteady last' low' w' ∧
      (w.time.enableTimestamps = true →
        (stamps w'.trace).length = (stamps w.trace).length + (calls.map LogCall.lines).sum) := by
  induction calls generalizing last low w with
  | nil => exact ⟨w, last, low, rfl, h, fun _ => rfl⟩
  | cons call calls ih =>
    obtain ⟨u, last', low', hcall, hu, henabled, hlines⟩ := call.exec_steady h
    obtain ⟨v, last'', low'', hcalls, hv, hmore⟩ := ih hu
    refine ⟨v, last'', low'', (bind_ok hcall).trans hcalls, hv, fun ht => ?_⟩
    rw [hmore (henabled.trans ht), hlines ht, List.map_cons, List.sum_cons, Nat.add_assoc]

end Calls

theorem World.initial_stampsSteady {clock : ℕ → Timespec} (timestamps trimming : Bool)
    (hclock : ∀ n, (clock n).Normalized) (hordered : ∀ n, (clock n).ns ≤ (clock (n+1)).ns) :
    StampsSteady (clock 0).ns 0 (World.initial timestamps trimming clock) where
  normalized := hclock
  ordered := hordered
  ahead := by
    cases timestamps with
    | false => exact Int.le_refl _
    | true => exact hordered 0
  time ht := by
    obtain rfl : timestamps = true := ht
    have hzero : (⟨0, 0⟩ : Timespec).Normalized := ⟨Int.le_refl 0, by decide⟩
    refine ⟨hclock 0, hzero, ?_, fun hf => (nomatch hf), fun hf => (nomatch hf)⟩
    rw [TimeState.shown_of_running rfl]
    show 0 ≤ (clock 0).ns - (clock 0).ns - (⟨0, 0⟩ : Timespec).ns
    simp [Timespec.ns]
  each s hs := absurd hs List.not_mem_nil
  nonneg := Int.le_refl 0
  sorted := List.Pairwise.nil

/-- However time is frozen and unfrozen, every line that is logged with timestamps enabled has a
stamp, and the stamps are normalized, not negative and not decreasing. -/
theorem timestamps_never_run_backwards (timestamps trimming : Bool) (clock : ℕ → Timespec)
    (hclock : ∀ n, (clock n).Normalized) (hordered : ∀ n, (clock n).ns ≤ (clock (n+1)).ns)
    (calls : List LogCall) :
    ∃ w', logCalls calls (World.initial timestamps trimming clock) = .ok () w' ∧
      (timestamps = true → (stamps w'.trace).length = (calls.map LogCall.lines).sum) ∧
      (∀ s ∈ stamps w'.trace, s.Normalized ∧ 0 ≤ s.tvSec) ∧
      (stamps w'.trace).Pairwise fun s s' => s.ns ≤ s'.ns := by
  obtain ⟨w', last, low, hr, hsteady, hlines⟩ :=
    logCalls_steady calls (World.initial_stampsSteady timestamps trimming hclock hordered)
  refine ⟨w', hr, fun ht => (hlines ht).trans (Nat.zero_add _), fun s hs => ?_, hsteady.sorted⟩
  obtain ⟨hs, h0, -⟩ := hsteady.each s hs
  refine ⟨hs, ?_⟩
  -- less than a second is left beside the seconds
  have hnsec := hs.2
  unfold Timespec.ns at h0
  omega

/-- A freeze in a freeze, and an unfreeze that matches none. -/
theorem timestamps_never_run_backwards_nested :
    ∃ w', logCalls [.freeze, .log "" [], .freeze, .log "" [], .unfreeze, .unfreeze, .log "" []]
        (World.initial true true fun n => ⟨n, 0⟩) = .ok () w' ∧
      (true = true → (stamps w'.trace).length = 3) ∧
      (∀ s ∈ stamps w'.trace, s.Normalized ∧ 0 ≤ s.tvSec) ∧
      (stamps w'.trace).Pairwise fun s s' => s.ns ≤ s'.ns :=
  timestamps_never_run_backwards true true (fun n => ⟨n, 0⟩)
    (fun _ => ⟨Int.le_refl 0, by simp⟩) (fun n => by simp only [Timespec.ns]; omega) _

end Panloader
