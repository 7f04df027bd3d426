import Panloader.DecoderOutcome
import Panloader.IoctlDecode

/-! What a decoder that returns has printed and read. An observer goes through the events and
keeps what a statement is about; the decoder is evaluated with it, line by line. -/
namespace Panloader
open Effects

/-- What to do at a log line, at its continuation, at a read of memory and where the indent
changes. -/
structure Observer (S : Type) where
  line : S → String → List Arg → S
  cont : S → String → List Arg → S
  load : S → U64 → ℕ → S
  indent : S → S := id

/-- Stamps and the levels of indents are not looked at. -/
def Observer.step {S : Type} (o : Observer S) (s : S) : Event → S
  | .log _ _ format args => o.line s format args
  | .cont format args => o.cont s format args
  | .load addr size => o.load s addr size
  | .indent _ => o.indent s
  | _ => s

/-- The state in which a call ends, whatever its end. -/
def World.after {α : Type} (w : World) (m : Wrap α) : World :=
  match m w with
  | .ok _ w' => w'
  | .error _ w' => w'

/-- The events of a call. -/
def World.eventsOf {α : Type} (w : World) (m : Wrap α) : List Event :=
  (w.after m).trace.drop w.trace.length

theorem World.eventsOf_eq {α : Type} {w : World} {m : Wrap α} {es : List Event}
    (h : (w.after m).trace = w.trace ++ es) : w.eventsOf m = es := by
  rw [World.eventsOf, h, List.drop_left]

theorem World.after_of_ensures {α : Type} {w : World} {m : Wrap α} {Q : World → Prop}
    (h : Ensures (fun u => u = w) m (fun _ => Q) (fun _ => Q)) : Q (w.after m) := by
  have hend := h w rfl
  unfold World.after
  cases hr : m w with
  | ok a u =>
    rw [hr] at hend
    exact hend
  | error e u =>
    rw [hr] at hend
    exact hend

/-- If `m` returns from a state with the tracker `t` and the memory `mem`, its value is `v`, and
an observer in state `s` has gone on to `s'`. -/
def Shows {S α : Type} (o : Observer S) (t : Tracker) (mem : Memory) (s : S) (m : Wrap α) (v : α)
    (s' : S) : Prop :=
  ∀ w a w', Sees t mem w → m w = .ok a w' →
    a = v ∧ Sees t mem w' ∧ ∃ es, w'.trace = w.trace ++ es ∧ es.foldl o.step s = s'

section Rules

variable {S α β : Type} {o : Observer S} {t : Tracker} {mem : Memory} {s s' s'' : S}

/-- What an observer makes of the events of a call that has returned. -/
theorem Shows.folds {m : Wrap α} {v a : α} {w w' : World} {es : List Event}
    (h : Shows o w.tracker w.mem s m v s') (hr : m w = .ok a w') (htrace : w'.trace = w.trace ++ es) :
    es.foldl o.step s = s' := by
  obtain ⟨-, -, es', htrace', hseen⟩ := h w a w' (Sees.self w) hr
  obtain rfl : es = es' := List.append_cancel_left (htrace.symm.trans htrace')
  exact hseen

theorem Shows.pure (v : α) : Shows o t mem s (pure v) v s := by
  intro w a w' hw h
  cases h
  exact ⟨rfl, hw, [], (List.append_nil _).symm, rfl⟩

theorem Shows.bind {m : Wrap α} {f : α → Wrap β} {v : α} {u : β} (hm : Shows o t mem s m v s')
    (hf : Shows o t mem s' (f v) u s'') : Shows o t mem s (m >>= f) u s'' := by
  intro w b w'' hw h
  cases hr : m w with
  | error e w' =>
    rw [bind_error hr] at h
    exact nomatch h
  | ok a w' =>
    rw [bind_ok hr] at h
    obtain ⟨rfl, hw', es, htrace, rfl⟩ := hm w a w' hw hr
    obtain ⟨hb, hw'', es', htrace', rfl⟩ := hf w' b w'' hw' h
    refine ⟨hb, hw'', es ++ es', ?_, List.foldl_append⟩
    rw [htrace', htrace, List.append_assoc]

theorem Shows.halt (h : Halt) (v : α) : Shows o t mem s (Panloader.halt h : Wrap α) v s' := by
  intro w a w' _ hr
  exact nomatch hr

theorem Shows.ite {c : Prop} [Decidable c] {m m' : Wrap α} {u v : α}
    (hm : Shows o t mem s m u s') (hm' : Shows o t mem s m' v s') :
    Shows o t mem s (if c then m else m') (if c then u else v) s' := by
  by_cases hc : c
  · rwa [if_pos hc, if_pos hc]
  · rwa [if_neg hc, if_neg hc]

theorem Shows.load (n : ℕ) (a : U64) :
    Shows o t mem s (load n a) (mem.read a n) (o.load s a n) := by
  intro w v w' hw h
  cases h
  exact ⟨by rw [hw.mem], ⟨hw.tracker, hw.mem⟩, [.load a n], rfl, rfl⟩

theorem Shows.cont (format : String) (args : List Arg) :
    Shows o t mem s (panwrapLogCont format args) () (o.cont s format args) := by
  intro w a w' hw h
  cases h
  exact ⟨rfl, ⟨hw.tracker, hw.mem⟩, [.cont format args], rfl, rfl⟩

/-- A call whose events are known. -/
theorem Shows.emits {m : Wrap α} {v : α} {es : List Event} (h : ∀ w, m w = .ok v (w.emitAll es)) :
    Shows o t mem s m v (es.foldl o.step s) := by
  intro w a w' hw hr
  obtain ⟨rfl, rfl⟩ := EStateM.Result.ok.inj ((h w).symm.trans hr)
  exact ⟨rfl, ⟨hw.tracker, hw.mem⟩, es, rfl, rfl⟩

/-- The stamp of a line leaves at most a reading of the clock. -/
theorem timestampGet_run (w : World) : ∃ tp w', timestampGet w = .ok tp w' ∧
    w'.tracker = w.tracker ∧ w'.mem = w.mem ∧ w'.panwrapIndent = w.panwrapIndent ∧
    ∃ es, w'.trace = w.trace ++ es ∧ ∀ e ∈ es, ∃ now, e = .clock .stamp now := by
  by_cases hf : w.time.timeIsFrozen = true
  · exact ⟨_, w, timestampGet_frozen hf, rfl, rfl, rfl, [], (List.append_nil _).symm, by simp⟩
  · exact ⟨_, _, timestampGet_running hf, rfl, rfl, rfl, [.clock .stamp (w.clock w.ticks)], rfl,
      by simp⟩

/-- Events that an observer does not look at. -/
theorem Observer.foldl_ignored {es : List Event} (h : ∀ e ∈ es, o.step s e = s) :
    es.foldl o.step s = s := by
  induction es with
  | nil => rfl
  | cons e es ih =>
    rw [List.foldl_cons, h e List.mem_cons_self]
    exact ih fun e he => h e (List.mem_cons_of_mem _ he)

theorem Observer.foldl_clock {es : List Event} (h : ∀ e ∈ es, ∃ now, e = .clock .stamp now) :
    es.foldl o.step s = s := by
  apply Observer.foldl_ignored
  intro e he
  obtain ⟨now, rfl⟩ := h e he
  rfl

/-- A line, after the clock was read for it or not. -/
theorem panwrapLog_run (format : String) (args : List Arg) (w : World) :
    ∃ w' stamp clocks, panwrapLog format args w = .ok () w' ∧ w'.tracker = w.tracker ∧
      w'.mem = w.mem ∧ w'.trace = w.trace ++ (clocks ++ [.log stamp w.panwrapIndent format args]) ∧
      ∀ e ∈ clocks, ∃ now, e = .clock .stamp now := by
  by_cases ht : w.time.enableTimestamps = true
  · obtain ⟨tp, u, hu, htracker, hmem, hindent, clocks, htrace, hclocks⟩ := timestampGet_run w
    rw [panwrapLog_stamped ht, bind_ok hu]
    refine ⟨_, some tp, clocks, rfl, htracker, hmem, ?_, hclocks⟩
    show u.trace ++ [_] = _
    rw [htrace, hindent, List.append_assoc]
  · exact ⟨_, none, [], panwrapLog_plain ht, rfl, rfl, rfl, by simp⟩

theorem Shows.log (format : String) (args : List Arg) :
    Shows o t mem s (panwrapLog format args) () (o.line s format args) := by
  intro w a w' hw h
  obtain ⟨u, stamp, clocks, hu, htracker, hmem, htrace, hclocks⟩ := panwrapLog_run format args w
  obtain ⟨-, rfl⟩ := EStateM.Result.ok.inj (hu.symm.trans h)
  refine ⟨rfl, ⟨htracker.trans hw.tracker, hmem.trans hw.mem⟩, _, htrace, ?_⟩
  rw [List.foldl_append, Observer.foldl_clock hclocks]
  rfl

theorem Shows.indentIncr : Shows o t mem s panwrapIndentIncr () (o.indent s) := by
  intro w a w' hw h
  cases h
  exact ⟨rfl, ⟨hw.tracker, hw.mem⟩, [.indent _], rfl, rfl⟩

theorem Shows.indentDecr : Shows o t mem s panwrapIndentDecr () (o.indent s) := by
  intro w a w' hw h
  cases h
  exact ⟨rfl, ⟨hw.tracker, hw.mem⟩, [.indent _], rfl, rfl⟩

theorem Shows.findContaining (addr : U64) :
    Shows o t mem s (findContaining addr) (panwrapFindMappedGpuMemContaining t.mmaps addr) s := by
  intro w a w' hw h
  cases h
  exact ⟨by rw [hw.tracker], hw, [], (List.append_nil _).symm, rfl⟩

/-- A pointer that is followed if it is accepted. -/
theorem Shows.deref {m : Option PanwrapMappedMemory} {gpuVa size : U64} {line : ℕ}
    {filename : String} {f : U64 → Wrap α} {v : α}
    (hf : ∀ p, derefGpuMem t.mmaps m gpuVa size = some p → Shows o t mem s (f p) v s') :
    Shows o t mem s (panwrapDerefGpuMem m gpuVa size line filename >>= f) v s' := by
  intro w a w' hw h
  have hderef := @panwrapDerefGpuMem_ensures t mem m gpuVa size line filename w hw
  cases hr : panwrapDerefGpuMem m gpuVa size line filename w with
  | error e u =>
    rw [bind_error hr] at h
    exact nomatch h
  | ok p u =>
    rw [hr] at hderef
    have hp : derefGpuMem w.tracker.mmaps m gpuVa size = some p := by
      rw [hw.tracker]
      exact hderef.1
    -- a pointer that is returned leaves no event
    rw [panwrapDerefGpuMem_some line filename hp] at hr
    obtain ⟨-, rfl⟩ := EStateM.Result.ok.inj hr
    rw [bind_ok (panwrapDerefGpuMem_some line filename hp)] at h
    exact hf p hderef.1 w a w' hw h

theorem Shows.udiv {a b : U64} {f : U64 → Wrap α} {v : α}
    (hf : b ≠ 0 → Shows o t mem s (f (a / b)) v s') :
    Shows o t mem s (udiv a b >>= f) v s' := by
  unfold Panloader.udiv
  by_cases hb : b = 0
  · rw [if_pos hb]
    intro w a w' _ h
    have hstop : (Panloader.halt .divByZero >>= f) w = .error .divByZero w := rfl
    exact nomatch hstop.symm.trans h
  · rw [if_neg hb]
    exact (Shows.pure (a / b)).bind (hf hb)

/-- A loop that takes the observer from `states i` to `states (i+1)` in turn `i`. -/
theorem Shows.countFrom {body : ℕ → Wrap Unit} {states : ℕ → S}
    (hbody : ∀ i, Shows o t mem (states i) (body i) () (states (i+1))) (i n : ℕ) :
    Shows o t mem (states i) (Effects.countFrom body i n) () (states (i+n)) := by
  induction n generalizing i with
  | zero => exact Shows.pure ()
  | succ n ih =>
    have hend : i+1+n = i+(n+1) := by omega
    have hrest := ih (i+1)
    rw [hend] at hrest
    exact (hbody i).bind hrest

theorem Shows.forInt {body : ℕ → Wrap Unit} {states : ℕ → S}
    (hbody : ∀ i, Shows o t mem (states i) (body i) () (states (i+1))) (n : ℕ) :
    Shows o t mem (states 0) (forInt n body) () (states n) := by
  have hturn (i : ℕ) : Shows o t mem (states i) (do
      body i
      if i = intMax then Panloader.halt .intOverflow else Pure.pure () : Wrap Unit) ()
      (states (i+1)) := by
    apply (hbody i).bind
    split_ifs
    · exact Shows.halt .intOverflow ()
    · exact Shows.pure ()
  have hloop := Shows.countFrom hturn 0 n
  rwa [Nat.zero_add] at hloop

end Rules

end Panloader
