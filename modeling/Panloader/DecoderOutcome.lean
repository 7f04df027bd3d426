import Panloader.Decides
import Panloader.QuietDecoders

/-! When the decoders return. What a decoder of job chains does depends on the tracker and the
program's memory only, and neither changes while it runs. -/
namespace Panloader
open Effects

/-- A state with the tracker `t` and the memory `mem`. -/
structure Sees (t : Tracker) (mem : Memory) (w : World) : Prop where
  tracker : w.tracker = t
  mem : w.mem = mem

section Statements

variable {t : Tracker} {mem : Memory} {P : Prop} {α β : Type}

theorem Sees.self (w : World) : Sees w.tracker w.mem w := ⟨rfl, rfl⟩

instance total_emit (e : Event) : Total (Sees t mem) (emit e) where
  ensures _ hw := ⟨hw.tracker, hw.mem⟩

theorem load_ensures (n : ℕ) (a : U64) : Ensures (Sees t mem) (load n a)
    (fun v w => v = mem.read a n ∧ Sees t mem w) (fun _ _ => False) :=
  fun _ hw => ⟨by rw [← hw.mem], hw.tracker, hw.mem⟩

theorem total_load (n : ℕ) (a : U64) : Total (Sees t mem) (load n a) where
  ensures := (load_ensures n a).mono (fun _ _ hw => hw.2) fun _ _ he => he

instance total_load8 (a : U64) : Total (Sees t mem) (load8 a) := total_load 1 a
instance total_load16 (a : U64) : Total (Sees t mem) (load16 a) := total_load 2 a
instance total_load32 (a : U64) : Total (Sees t mem) (load32 a) := total_load 4 a
instance total_load64 (a : U64) : Total (Sees t mem) (load64 a) := total_load 8 a

theorem Decides.load8 {a : U64} {f : U8 → Wrap β} (hf : Decides (Sees t mem) (f (mem.read a 1)) P) :
    Decides (Sees t mem) (load8 a >>= f) P :=
  Decides.seq_value (load_ensures 1 a) hf

theorem Decides.load32 {a : U64} {f : U32 → Wrap β}
    (hf : Decides (Sees t mem) (f (mem.read a 4)) P) :
    Decides (Sees t mem) (load32 a >>= f) P :=
  Decides.seq_value (load_ensures 4 a) hf

theorem Decides.load64 {a : U64} {f : U64 → Wrap β}
    (hf : Decides (Sees t mem) (f (mem.read a 8)) P) :
    Decides (Sees t mem) (load64 a >>= f) P :=
  Decides.seq_value (load_ensures 8 a) hf

theorem Decides.findContaining {a : U64} {f : Option PanwrapMappedMemory → Wrap β}
    (hf : Decides (Sees t mem) (f (panwrapFindMappedGpuMemContaining t.mmaps a)) P) :
    Decides (Sees t mem) (findContaining a >>= f) P := by
  refine Decides.seq_value (fun w hw => ?_) hf
  exact ⟨by rw [← hw.tracker], hw⟩

theorem Decides.halt (h : Halt) : Decides (Sees t mem) (Panloader.halt h : Wrap α) False :=
  fun _ _ hf => hf

theorem Decides.udiv {a b : U64} {f : U64 → Wrap β} (hf : Decides (Sees t mem) (f (a / b)) P) :
    Decides (Sees t mem) (udiv a b >>= f) (b ≠ 0 ∧ P) := by
  have hdiv : Ensures (Sees t mem) (Panloader.udiv a b)
      (fun v w => (if b = 0 then none else some (a / b)) = some v ∧ Sees t mem w)
      (fun _ _ => (if b = 0 then none else some (a / b)) = none) := by
    unfold Panloader.udiv
    by_cases hb : b = 0
    · rw [if_pos hb, if_pos hb]
      exact fun _ _ => rfl
    · rw [if_neg hb, if_neg hb]
      exact fun _ hw => ⟨rfl, hw⟩
  refine (Decides.seq_option (R := fun _ => P) hdiv fun v hv => ?_).congr ?_
  · by_cases hb : b = 0
    · rw [if_pos hb] at hv
      exact nomatch hv
    · rw [if_neg hb] at hv
      exact Option.some.inj hv ▸ hf
  · by_cases hb : b = 0 <;> simp [hb]

theorem panwrapDerefGpuMem_ensures {m : Option PanwrapMappedMemory} {gpuVa size : U64} {line : ℕ}
    {filename : String} :
    Ensures (Sees t mem) (panwrapDerefGpuMem m gpuVa size line filename)
      (fun p w => derefGpuMem t.mmaps m gpuVa size = some p ∧ Sees t mem w)
      (fun _ _ => derefGpuMem t.mmaps m gpuVa size = none) := by
  intro w hw
  rw [← hw.tracker]
  cases h : derefGpuMem w.tracker.mmaps m gpuVa size with
  | none =>
    obtain ⟨e, u, hstop⟩ := panwrapDerefMemErr_error (α := U64)
      (usedMapping w.tracker.mmaps m gpuVa) gpuVa size line filename w
    rw [panwrapDerefGpuMem_none line filename h, hstop]
  | some p =>
    rw [panwrapDerefGpuMem_some line filename h]
    exact ⟨rfl, rfl, hw.mem⟩

theorem Decides.deref {m : Option PanwrapMappedMemory} {gpuVa size : U64} {line : ℕ}
    {filename : String} {f : U64 → Wrap β} {R : U64 → Prop}
    (hf : ∀ p, Decides (Sees t mem) (f p) (R p)) :
    Decides (Sees t mem) (panwrapDerefGpuMem m gpuVa size line filename >>= f)
      (∃ p, derefGpuMem t.mmaps m gpuVa size = some p ∧ R p) :=
  Decides.seq_option panwrapDerefGpuMem_ensures fun p _ => hf p

/-- A loop whose counter is an `int`: it must not run past `INT_MAX`. -/
theorem Decides.forInt {body : ℕ → Wrap Unit} {R : ℕ → Prop}
    (hbody : ∀ i, Decides (Sees t mem) (body i) (R i)) (n : ℕ) :
    Decides (Sees t mem) (forInt n body) (n ≤ intMax ∧ ∀ i < n, R i) := by
  have hturn (i : ℕ) : Decides (Sees t mem) (do
      body i
      if i = intMax then Panloader.halt .intOverflow else pure () : Wrap Unit)
      (R i ∧ if i = intMax then False else True) :=
    (hbody i).bind fun _ => (Decides.halt _).ite Decides.of_total
  refine (Decides.countFrom hturn 0 n).congr ?_
  constructor
  · intro h
    refine ⟨Nat.le_of_not_lt fun hlt => ?_, fun i hi => (h i (Nat.zero_le i) (by omega)).1⟩
    -- a longer loop gets to the turn after which the counter overflows
    have hlast := (h intMax (Nat.zero_le _) (by omega)).2
    rwa [if_pos rfl] at hlast
  · rintro ⟨hn, hall⟩ i - hi
    have hne : i ≠ intMax := by omega
    exact ⟨hall i (by omega), by rw [if_neg hne]; trivial⟩

theorem total_of_decides {m : Wrap α} (h : Decides (Sees t mem) m P) (hP : P) :
    Total (Sees t mem) m where
  ensures := Ensures.mono h (fun _ _ ha => ha.2) fun _ _ he => he hP

theorem total_forInt {n : ℕ} (hn : n ≤ intMax) (body : ℕ → Wrap Unit)
    [∀ i, Total (Sees t mem) (body i)] : Total (Sees t mem) (forInt n body) :=
  total_of_decides (Decides.forInt (fun _ => Decides.of_total) n) ⟨hn, fun _ _ => trivial⟩

end Statements

section Logging

variable {t : Tracker} {mem : Memory}

instance total_panwrapIndentIncr : Total (Sees t mem) panwrapIndentIncr where
  ensures _ hw := ⟨hw.tracker, hw.mem⟩

instance total_panwrapIndentDecr : Total (Sees t mem) panwrapIndentDecr where
  ensures _ hw := ⟨hw.tracker, hw.mem⟩

instance total_logLine (stamp : Option Timespec) (format : String) (args : List Arg) :
    Total (Sees t mem) (logLine stamp format args) where
  ensures _ hw := ⟨hw.tracker, hw.mem⟩

instance total_getMonotonicTime (use : ClockUse) : Total (Sees t mem) (getMonotonicTime use) where
  ensures _ hw := ⟨hw.tracker, hw.mem⟩

instance total_timestampGet : Total (Sees t mem) timestampGet where
  ensures := by
    intro w hw
    unfold timestampGet
    by_cases hf : w.time.timeIsFrozen = true
    · rw [if_pos hf]
      exact hw
    · rw [if_neg hf]
      have hread : Total (Sees t mem) (do
          let now ← getMonotonicTime .stamp
          pure ((now.subtract w.time.startTime).subtract w.time.totalTimeFrozen) :
            Wrap Timespec) := inferInstance
      exact hread.ensures w hw

instance total_panwrapLog (format : String) (args : List Arg) :
    Total (Sees t mem) (panwrapLog format args) where
  ensures := by
    intro w hw
    unfold panwrapLog
    by_cases ht : w.time.enableTimestamps = true
    · rw [if_pos ht]
      have hlog : Total (Sees t mem) (do
          let tp ← timestampGet
          logLine (some tp) format args : Wrap Unit) := inferInstance
      exact hlog.ensures w hw
    · rw [if_neg ht]
      exact (total_logLine none format args).ensures w hw

instance total_panwrapLogCont (format : String) (args : List Arg) :
    Total (Sees t mem) (panwrapLogCont format args) :=
  total_emit _

instance total_logFlagNames (info : List PanwrapFlagInfo) (flags : U64) (found : Bool) :
    Total (Sees t mem) (logFlagNames info flags found) := by
  induction info generalizing flags found with
  | nil => exact total_pure _
  | cons i rest ih =>
    unfold logFlagNames
    infer_instance

instance total_panwrapLogDecodedFlags (info : List PanwrapFlagInfo) (flags : U64) :
    Total (Sees t mem) (panwrapLogDecodedFlags info flags) := by
  unfold panwrapLogDecodedFlags
  infer_instance

instance total_hexdumpCell (data : U64) (alpha : Gutter) (i : ℕ) :
    Total (Sees t mem) (hexdumpCell data alpha i) := by
  unfold hexdumpCell hexdumpWrapped hexdumpByte
  infer_instance

theorem total_hexdumpCells (data : U64) (i n : ℕ) (alpha : Gutter) (hn : i+n ≤ intMax) :
    Total (Sees t mem) (hexdumpCells data i n alpha) := by
  induction n generalizing i alpha with
  | zero => exact total_pure _
  | succ n ih =>
    have hne : i ≠ intMax := by omega
    have hrest (alpha : Gutter) : Total (Sees t mem) (hexdumpCells data (i+1) n alpha) :=
      ih (i+1) alpha (by omega)
    unfold hexdumpCells
    rw [if_neg hne]
    infer_instance

instance total_hexdumpPad (i n : ℕ) (alpha : Gutter) :
    Total (Sees t mem) (hexdumpPad i n alpha) := by
  induction n generalizing i alpha with
  | zero => exact total_pure _
  | succ n ih =>
    unfold hexdumpPad
    infer_instance

theorem total_panwrapLogHexdump (data size : U64) (hsize : size.toNat ≤ intMax) :
    Total (Sees t mem) (panwrapLogHexdump data size) := by
  have hcells (alpha : Gutter) : Total (Sees t mem) (hexdumpCells data 0 size.toNat alpha) :=
    total_hexdumpCells data 0 size.toNat alpha (by omega)
  unfold panwrapLogHexdump
  dsimp only
  infer_instance

instance total_panwrapJobTypeName (type : U8) :
    Total (Sees t mem) (panwrapJobTypeName type) := by
  unfold panwrapJobTypeName
  infer_instance

end Logging
end Panloader
