import Panloader.LockedParts
import Panloader.LogStamps

/-! The stamps in the log of a program with threads. Only the parts of calls that hold the mutex
read the clock, so the stamps are in lock order. -/
namespace Panloader
open Effects LockedSections

theorem phases_timed (start : Timespec) (enabled : Bool) :
    DevicePhases (Timed start enabled false) (Timed start enabled true)
      (TimedLog start enabled) where
  freeze := panwrapFreezeTime_timed
  unfreeze := panwrapUnfreezeTime_timed
  decode := stable_timed
  left _ hw := hw.events
  log := log_timed
  real w call hw := orig_timed call () w hw
  device w fd hw := setMaliFd_timed fd w hw
  memory w mem hw := setMem_timed mem w hw

/-- The stamps so far are in order, and the next one will not be below them. -/
def InOrderSoFar (w : World) : Prop := ∃ last low, StampsSteady last low w

theorem StampsSteady.quiet {last low : ℤ} {w w' : World} (h : StampsSteady last low w)
    (htime : w'.time = w.time) (hclock : w'.clock = w.clock) (hticks : w'.ticks = w.ticks)
    (hstamps : stamps w'.trace = stamps w.trace) : StampsSteady last low w' where
  normalized := hclock ▸ h.normalized
  ordered := hclock ▸ h.ordered
  ahead := by
    rw [hclock, hticks]
    exact h.ahead
  time ht := by
    rw [htime] at ht ⊢
    exact h.time ht
  each := hstamps ▸ h.each
  nonneg := h.nonneg
  sorted := hstamps ▸ h.sorted

theorem InOrderSoFar.emit {w : World} (h : InOrderSoFar w) (e : Event) (he : e.stamp? = none) :
    InOrderSoFar (w.emit e) := by
  obtain ⟨last, low, h⟩ := h
  have hstamps : stamps (w.emit e).trace = stamps w.trace := by
    simp [World.emit, stamps, he]
  exact ⟨last, low, h.quiet rfl rfl rfl hstamps⟩

theorem phases_inOrder : DevicePhases InOrderSoFar InOrderSoFar InOrderSoFar := by
  have hlog (format : String) (args : List Arg) :
      Ensures InOrderSoFar (panwrapLog format args) (fun _ => InOrderSoFar)
        (fun _ => InOrderSoFar) := by
    rintro w ⟨last, low, hw⟩
    obtain ⟨w', last', low', hr, hw', -⟩ := panwrapLog_steady hw format args
    rw [hr]
    exact ⟨last', low', hw'⟩
  have hfreeze : Ensures InOrderSoFar panwrapFreezeTime (fun _ => InOrderSoFar)
      (fun _ => InOrderSoFar) := by
    rintro w ⟨last, low, hw⟩
    obtain ⟨w', last', low', hr, hw', -⟩ := panwrapFreezeTime_steady hw
    rw [hr]
    exact ⟨last', low', hw'⟩
  have hunfreeze : Ensures InOrderSoFar panwrapUnfreezeTime (fun _ => InOrderSoFar)
      (fun _ => InOrderSoFar) := by
    rintro w ⟨last, low, hw⟩
    obtain ⟨w', last', low', hr, hw', -⟩ := panwrapUnfreezeTime_steady hw
    rw [hr]
    exact ⟨last', low', hw'⟩
  have hdecode : Stable InOrderSoFar := by
    refine ⟨fun w e he hw => hw.emit e ?_, hlog, fun w level hw => ?_, fun w t hw => ?_⟩
    · cases e with
      | log => exact nomatch he
      | _ => rfl
    · obtain ⟨last, low, h⟩ := hw.emit (.indent level) rfl
      exact ⟨last, low, h.quiet rfl rfl rfl rfl⟩
    · obtain ⟨last, low, h⟩ := hw
      exact ⟨last, low, h.quiet rfl rfl rfl rfl⟩
  refine ⟨⟨hfreeze, hunfreeze, hdecode, fun _ hw => hw, fun w call hw => hw.emit _ rfl, ?_⟩,
    hlog, ?_⟩
  · rintro w mem ⟨last, low, h⟩
    exact ⟨last, low, h.quiet rfl rfl rfl rfl⟩
  · rintro w fd ⟨last, low, h⟩
    exact ⟨last, low, h.quiet rfl rfl rfl rfl⟩

section Interleavings

variable {τ : Type} [DecidableEq τ]

/-- In every interleaving, whenever the mutex is free or a call has ended everything, each line of
the log, of whichever thread, has the time that one stopwatch shows, which does not count what was
frozen; and the stamps do not decrease from line to line. -/
theorem log_times_of_interleaving (timestamps trimming : Bool) {clock : ℕ → Timespec}
    (hclock : ∀ n, (clock n).Normalized) (hordered : ∀ n, (clock n).ns ≤ (clock (n+1)).ns)
    (cut : Cut) {calls : τ → List Call} {m : Machine τ Halt World Call RealCall}
    (h : Reaches cut.steps (startThreads (World.initial timestamps trimming clock) calls) m)
    (hrest : m.stopped = none → m.holder = none) :
    TimedLog (clock 0) timestamps m.shared ∧
    (stamps m.shared.trace).Pairwise (fun s s' => s.ns ≤ s'.ns) ∧
    ∀ s ∈ stamps m.shared.trace, s.Normalized ∧ 0 ≤ s.ns := by
  have htimed := (phases_timed (clock 0) timestamps).interleaving
    (World.initial_timed timestamps trimming hclock) h
  have hinitial : InOrderSoFar (World.initial timestamps trimming clock) :=
    ⟨_, _, World.initial_stampsSteady timestamps trimming hclock hordered⟩
  have hsteady := phases_inOrder.interleaving hinitial h
  have hboth : TimedLog (clock 0) timestamps m.shared ∧ InOrderSoFar m.shared := by
    by_cases hgo : m.stopped = none
    · exact ⟨(htimed.1 hgo (hrest hgo)).events, hsteady.1 hgo (hrest hgo)⟩
    · exact ⟨htimed.2 hgo, hsteady.2 hgo⟩
  obtain ⟨hlog, last, low, hstamps⟩ := hboth
  refine ⟨hlog, hstamps.sorted, fun s hs => ?_⟩
  obtain ⟨hs, h0, -⟩ := hstamps.each s hs
  exact ⟨hs, h0⟩

/-- Another thread unmaps a page between the real `open` and the line about it. The second for
which that thread has frozen time is not in the line's stamp. -/
theorem log_times_of_interleaving_two_threads : ∃ m : Machine Bool Halt World Call RealCall,
    Reaches Cut.coarse.steps (startThreads (World.initial true true fun n => ⟨n, 0⟩)
      openAndUnmap) m ∧ stamps m.shared.trace = [⟨2, 0⟩] ∧ TimedLog ⟨0, 0⟩ true m.shared := by
  let start : Machine Bool Halt World Call RealCall :=
    startThreads (World.initial true true fun n => ⟨n, 0⟩) openAndUnmap
  have hopened : Reaches Cut.coarse.steps start _ := .single (.act true rfl rfl)
  have hentered := hopened.tail (.enter false rfl rfl rfl)
  have hunmapped := (hentered.tail (.inner false rfl rfl)).tail (.leave false rfl rfl)
  have hlocked := hunmapped.tail (.enter true rfl rfl rfl)
  have hnoted := (hlocked.tail (.inner true rfl rfl)).tail (.leave true rfl rfl)
  have hclock (n : ℕ) : Timespec.Normalized ⟨n, 0⟩ := by simp [Timespec.Normalized]
  have hordered (n : ℕ) : Timespec.ns ⟨n, 0⟩ ≤ Timespec.ns ⟨(n+1 : ℕ), 0⟩ := by
    simp only [Timespec.ns]
    omega
  exact ⟨_, hnoted, rfl,
    (log_times_of_interleaving true true hclock hordered Cut.coarse hnoted fun _ => rfl).1⟩

end Interleavings
end Panloader
