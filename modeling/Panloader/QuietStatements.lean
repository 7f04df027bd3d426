import Panloader.PanwrapSyscall

/-! What the decoders leave alone. A quiet statement logs, reads memory and moves
`panwrap_indent`; it calls no real function and keeps the tracker, the lock, the freeze and
`mali_fd` as they are. -/
namespace Panloader
open Effects

/-- The state of the wrapper without its log. -/
structure Stage where
  maliFd : ℤ
  tracker : Tracker
  locked : Bool
  timestamps : Bool
  frozen : Bool
  mem : Memory

def World.stage (w : World) : Stage where
  maliFd := w.maliFd
  tracker := w.tracker
  locked := w.locked
  timestamps := w.time.enableTimestamps
  frozen := w.time.timeIsFrozen
  mem := w.mem

def Event.real? : Event → Option RealCall
  | .real call => some call
  | _ => none

def Event.level? : Event → Option ℤ
  | .indent level => some level
  | _ => none

/-- The values of `panwrap_indent` among the events. -/
def levels (es : List Event) : List ℤ := es.filterMap Event.level?

/-- The calls of real functions among the events. -/
def realCalls (es : List Event) : List RealCall := es.filterMap Event.real?

/-- What was logged since `w₀`: real calls `calls`, and an indent that, where it began at
zero or above, stayed there and rose by at most `top`. -/
def Since (w₀ : World) (calls : List RealCall) (top : ℕ) (w : World) : Prop :=
  ∃ es, w.trace = w₀.trace ++ es ∧ realCalls es = calls ∧
    (0 ≤ w₀.panwrapIndent → ∀ v ∈ levels es, 0 ≤ v ∧ v ≤ w₀.panwrapIndent + top)

/-- A moment of a call that began in `w₀`: the indent is `c` levels up, with room for `r` more
below `top`. -/
structure At (w₀ : World) (st : Stage) (calls : List RealCall) (top c r : ℕ) (w : World) :
    Prop where
  stage : w.stage = st
  indent : w.panwrapIndent = w₀.panwrapIndent + c
  room : c + r = top
  since : Since w₀ calls top w

/-- An abrupt end of a call that began in `w₀`. -/
def Stopped (w₀ : World) (top : ℕ) (w : World) : Prop := ∃ calls, Since w₀ calls top w

/-- `m` is quiet and takes the indent from `c` levels up to `d`, never higher than the room
`r` allows. -/
class Quiet {α : Type} (c r : ℕ) (d s : outParam ℕ) (m : Wrap α) : Prop where
  ensures : ∀ w₀ st calls top,
    Ensures (At w₀ st calls top c r) m (fun _ => At w₀ st calls top d s) (fun _ => Stopped w₀ top)

theorem Since.emit {w₀ w : World} {calls : List RealCall} {top : ℕ} (h : Since w₀ calls top w)
    (e : Event) (hr : e.real? = none) (hl : e.level? = none) : Since w₀ calls top (w.emit e) := by
  obtain ⟨es, htrace, hcalls, hlevels⟩ := h
  refine ⟨es ++ [e], ?_, ?_, ?_⟩
  · simp only [World.emit, htrace, List.append_assoc]
  · simpa [realCalls, hr] using hcalls
  · simpa [levels, hl] using hlevels

theorem Since.setIndent {w₀ w : World} {calls : List RealCall} {top : ℕ}
    (h : Since w₀ calls top w) (v : ℤ)
    (hv : 0 ≤ w₀.panwrapIndent → 0 ≤ v ∧ v ≤ w₀.panwrapIndent + top) :
    Since w₀ calls top (w.setIndent v) := by
  obtain ⟨es, htrace, hcalls, hlevels⟩ := h
  refine ⟨es ++ [.indent v], ?_, ?_, ?_⟩
  · simp only [World.setIndent, htrace, List.append_assoc]
  · rw [realCalls, List.filterMap_append, ← realCalls, hcalls]
    exact List.append_nil calls
  -- the new value is the only level that was added
  · intro h0 u hu
    rw [levels, List.filterMap_append, List.mem_append] at hu
    rcases hu with hu | hu
    · exact hlevels h0 u hu
    · rw [List.mem_singleton.mp hu]
      exact hv h0

section Rules

variable {α β : Type} {c r d s e t : ℕ}

instance quiet_pure (a : α) : Quiet c r c r (pure a : Wrap α) where
  ensures _ _ _ _ := Ensures.pure a

instance quiet_bind {m : Wrap α} {f : α → Wrap β} [hm : Quiet c r d s m]
    [hf : ∀ a, Quiet d s e t (f a)] : Quiet c r e t (m >>= f) where
  ensures w₀ st calls top :=
    (hm.ensures w₀ st calls top).bind fun a => (hf a).ensures w₀ st calls top

instance quiet_ite {p : Prop} [Decidable p] {m m' : Wrap α} [hm : Quiet c r d s m]
    [hm' : Quiet c r d s m'] : Quiet c r d s (if p then m else m') := by
  split
  · exact hm
  · exact hm'

instance quiet_halt (h : Halt) : Quiet c r c r (halt h : Wrap α) where
  ensures _ _ calls _ := fun _ hw => ⟨calls, hw.since⟩

/-- A statement that only adds an event other than a call or an indent. -/
theorem quiet_emit (ev : Event) (hr : ev.real? = none) (hl : ev.level? = none) :
    Quiet c r c r (emit ev) where
  ensures _ _ _ _ := fun _ hw => ⟨hw.stage, hw.indent, hw.room, hw.since.emit ev hr hl⟩

theorem quiet_load (n : ℕ) (a : U64) : Quiet c r c r (load n a) where
  ensures _ _ _ _ := fun _ hw => ⟨hw.stage, hw.indent, hw.room, hw.since.emit _ rfl rfl⟩

instance quiet_load8 (a : U64) : Quiet c r c r (load8 a) := quiet_load 1 a
instance quiet_load16 (a : U64) : Quiet c r c r (load16 a) := quiet_load 2 a
instance quiet_load32 (a : U64) : Quiet c r c r (load32 a) := quiet_load 4 a
instance quiet_load64 (a : U64) : Quiet c r c r (load64 a) := quiet_load 8 a

instance quiet_panwrapIndentIncr : Quiet c (r+1) (c+1) r panwrapIndentIncr where
  ensures w₀ st calls top := by
    intro w hw
    have hi := hw.indent
    have hr := hw.room
    refine ⟨hw.stage, ?_, by omega, hw.since.setIndent _ (fun _ => by omega)⟩
    change w.panwrapIndent + 1 = _
    omega

instance quiet_panwrapIndentDecr : Quiet (c+1) r c (r+1) panwrapIndentDecr where
  ensures w₀ st calls top := by
    intro w hw
    have hi := hw.indent
    have hr := hw.room
    refine ⟨hw.stage, ?_, by omega, hw.since.setIndent _ (fun _ => by omega)⟩
    change w.panwrapIndent - 1 = _
    omega

instance quiet_forInt (n : ℕ) (body : ℕ → Wrap Unit) [hb : ∀ i, Quiet c r c r (body i)] :
    Quiet c r c r (forInt n body) where
  ensures w₀ st calls top := by
    -- the turns of a loop begin and end at one level
    refine Ensures.countFrom (I := fun _ => At w₀ st calls top c r) (fun i => ?_) 0 n
    have hstep : Quiet c r c r (do
        body i
        if i = intMax then halt .intOverflow else pure () : Wrap Unit) :=
      inferInstance
    exact hstep.ensures w₀ st calls top

instance quiet_tracker : Quiet c r c r tracker where
  ensures _ _ _ _ := fun _ hw => hw

instance quiet_enableHexdumpTrimming : Quiet c r c r enableHexdumpTrimming where
  ensures _ _ _ _ := fun _ hw => hw

instance quiet_udiv (a b : U64) : Quiet c r c r (udiv a b) := by
  unfold udiv
  infer_instance

instance quiet_getMonotonicTime (use : ClockUse) : Quiet c r c r (getMonotonicTime use) where
  ensures _ _ _ _ := fun _ hw => ⟨hw.stage, hw.indent, hw.room, hw.since.emit _ rfl rfl⟩

instance quiet_timestampGet : Quiet c r c r timestampGet where
  ensures w₀ st calls top := by
    intro w hw
    unfold timestampGet
    by_cases hf : w.time.timeIsFrozen = true
    · rw [if_pos hf]
      exact hw
    · rw [if_neg hf]
      have hread : Quiet c r c r (do
          let now ← getMonotonicTime .stamp
          pure ((now.subtract w.time.startTime).subtract w.time.totalTimeFrozen) :
            Wrap Timespec) := inferInstance
      exact hread.ensures w₀ st calls top w hw

instance quiet_logLine (stamp : Option Timespec) (format : String) (args : List Arg) :
    Quiet c r c r (logLine stamp format args) where
  ensures _ _ _ _ := fun _ hw => ⟨hw.stage, hw.indent, hw.room, hw.since.emit _ rfl rfl⟩

instance quiet_panwrapLog (format : String) (args : List Arg) :
    Quiet c r c r (panwrapLog format args) where
  ensures w₀ st calls top := by
    intro w hw
    unfold panwrapLog
    by_cases ht : w.time.enableTimestamps = true
    · rw [if_pos ht]
      have hlog : Quiet c r c r (do
          let tp ← timestampGet
          logLine (some tp) format args : Wrap Unit) := inferInstance
      exact hlog.ensures w₀ st calls top w hw
    · rw [if_neg ht]
      exact (quiet_logLine none format args).ensures w₀ st calls top w hw

instance quiet_panwrapLogCont (format : String) (args : List Arg) :
    Quiet c r c r (panwrapLogCont format args) :=
  quiet_emit _ rfl rfl

instance quiet_hexdumpEvent (data size : U64) : Quiet c r c r (emit (.hexdump data size)) :=
  quiet_emit _ rfl rfl

instance quiet_logFlagNames (info : List PanwrapFlagInfo) (flags : U64) (found : Bool) :
    Quiet c r c r (logFlagNames info flags found) := by
  induction info generalizing flags found with
  | nil => exact quiet_pure _
  | cons i rest ih =>
    unfold logFlagNames
    infer_instance

instance quiet_panwrapLogDecodedFlags (info : List PanwrapFlagInfo) (flags : U64) :
    Quiet c r c r (panwrapLogDecodedFlags info flags) := by
  unfold panwrapLogDecodedFlags
  infer_instance

instance quiet_hexdumpCell (data : U64) (alpha : Gutter) (i : ℕ) :
    Quiet c r c r (hexdumpCell data alpha i) := by
  unfold hexdumpCell hexdumpWrapped hexdumpByte
  infer_instance

instance quiet_hexdumpCells (data : U64) (i n : ℕ) (alpha : Gutter) :
    Quiet c r c r (hexdumpCells data i n alpha) := by
  induction n generalizing i alpha with
  | zero => exact quiet_pure _
  | succ n ih =>
    unfold hexdumpCells
    infer_instance

instance quiet_hexdumpPad (i n : ℕ) (alpha : Gutter) :
    Quiet c r c r (hexdumpPad i n alpha) := by
  induction n generalizing i alpha with
  | zero => exact quiet_pure _
  | succ n ih =>
    unfold hexdumpPad
    infer_instance

instance quiet_panwrapLogHexdump (data size : U64) :
    Quiet c r c r (panwrapLogHexdump data size) := by
  unfold panwrapLogHexdump
  infer_instance

instance quiet_trimScan (d : U64) (room : ℕ) (trimOffset : ℤ) :
    Quiet c r c r (trimScan d room trimOffset) := by
  induction room generalizing trimOffset with
  | zero =>
    unfold trimScan
    dsimp only
    infer_instance
  | succ room ih =>
    unfold trimScan
    dsimp only
    infer_instance

instance quiet_panwrapLogHexdumpTrimmed (data size : U64) :
    Quiet c r c r (panwrapLogHexdumpTrimmed data size) := by
  unfold panwrapLogHexdumpTrimmed
  infer_instance

end Rules
end Panloader
