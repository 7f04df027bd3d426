import Panloader.PanwrapState

/-! `panwrap-util.c`: timestamps, log lines, flag names and hexdumps. -/
namespace Panloader

/-- `timespec_add` -/
def Timespec.add (tp value : Timespec) : Timespec :=
  let sec := tp.tvSec + value.tvSec
  let nsec := tp.tvNsec + value.tvNsec
  if 10^9 ≤ nsec then ⟨sec+1, nsec-10^9⟩ else ⟨sec, nsec⟩

/-- `timespec_subtract` -/
def Timespec.subtract (tp value : Timespec) : Timespec :=
  let sec := tp.tvSec - value.tvSec
  let nsec := tp.tvNsec - value.tvNsec
  if nsec < 0 then ⟨sec-1, 10^9+nsec⟩ else ⟨sec, nsec⟩

/-- The freeze on which the clock read `now`. -/
def TimeState.freeze (t : TimeState) (now : Timespec) : TimeState :=
  { t with
    startFreezeTime := now
    timeIsFrozen := true
    frozenTimestamp := (now.subtract t.startTime).subtract t.totalTimeFrozen }

/-- The unfreeze on which the clock read `now`. -/
def TimeState.unfreeze (t : TimeState) (now : Timespec) : TimeState :=
  { t with
    timeIsFrozen := false
    totalTimeFrozen := t.totalTimeFrozen.add (now.subtract t.startFreezeTime) }

/-- `get_monotonic_time` -/
def getMonotonicTime (use : ClockUse) : Wrap Timespec := fun w =>
  .ok (w.clock w.ticks) { w.emit (.clock use (w.clock w.ticks)) with ticks := w.ticks+1 }

def setTime (f : TimeState → TimeState) : Wrap Unit := fun w => .ok () { w with time := f w.time }

def panwrapFreezeTime : Wrap Unit := fun w =>
  if w.time.enableTimestamps then
    (do
      let now ← getMonotonicTime .freeze
      setTime (·.freeze now) : Wrap Unit) w
  else .ok () w

def panwrapUnfreezeTime : Wrap Unit := fun w =>
  -- a second unfreeze does nothing, unlike a second freeze
  if !w.time.enableTimestamps || !w.time.timeIsFrozen then .ok () w
  else
    (do
      let now ← getMonotonicTime .unfreeze
      setTime (·.unfreeze now) : Wrap Unit) w

/-- `timestamp_get`: the cached value while time is frozen, else a clock reading. -/
def timestampGet : Wrap Timespec := fun w =>
  if w.time.timeIsFrozen then .ok w.time.frozenTimestamp w
  else
    (do
      let now ← getMonotonicTime .stamp
      pure ((now.subtract w.time.startTime).subtract w.time.totalTimeFrozen) : Wrap Timespec) w

/-- The text of a log line, after its stamp: indented by `panwrap_indent`. -/
def logLine (stamp : Option Timespec) (format : String) (args : List Arg) : Wrap Unit :=
  fun w => .ok () (w.emit (.log stamp w.panwrapIndent format args))

def panwrapLog (format : String) (args : List Arg) : Wrap Unit := fun w =>
  if w.time.enableTimestamps then
    (do
      let tp ← timestampGet
      logLine (some tp) format args : Wrap Unit) w
  else logLine none format args w

section Stamps

variable {w : World} {format : String} {args : List Arg}

theorem panwrapFreezeTime_enabled (ht : w.time.enableTimestamps = true) :
    panwrapFreezeTime w = .ok () { w.emit (.clock .freeze (w.clock w.ticks)) with
      ticks := w.ticks+1, time := w.time.freeze (w.clock w.ticks) } := if_pos ht

theorem panwrapFreezeTime_disabled (ht : ¬w.time.enableTimestamps = true) :
    panwrapFreezeTime w = .ok () w := if_neg ht

theorem panwrapUnfreezeTime_skipped
    (ht : (!w.time.enableTimestamps || !w.time.timeIsFrozen) = true) :
    panwrapUnfreezeTime w = .ok () w := if_pos ht

theorem panwrapUnfreezeTime_frozen
    (ht : ¬(!w.time.enableTimestamps || !w.time.timeIsFrozen) = true) :
    panwrapUnfreezeTime w = .ok () { w.emit (.clock .unfreeze (w.clock w.ticks)) with
      ticks := w.ticks+1, time := w.time.unfreeze (w.clock w.ticks) } := if_neg ht

theorem timestampGet_frozen (hf : w.time.timeIsFrozen = true) :
    timestampGet w = .ok w.time.frozenTimestamp w := if_pos hf

theorem timestampGet_running (hf : ¬w.time.timeIsFrozen = true) :
    timestampGet w =
      .ok (((w.clock w.ticks).subtract w.time.startTime).subtract w.time.totalTimeFrozen)
        { w.emit (.clock .stamp (w.clock w.ticks)) with ticks := w.ticks+1 } := if_neg hf

theorem panwrapLog_stamped (ht : w.time.enableTimestamps = true) : panwrapLog format args w =
    (timestampGet >>= fun tp => logLine (some tp) format args) w := if_pos ht

theorem panwrapLog_plain (ht : ¬w.time.enableTimestamps = true) : panwrapLog format args w =
    .ok () (w.emit (.log none w.panwrapIndent format args)) := if_neg ht

section Freezing

open Effects

variable {P : World → Prop} {E : Halt → World → Prop}

/-- What neither the clock nor the static variables behind the stamps matter to. -/
theorem panwrapFreezeTime_keeps (h : ∀ w use now time ticks, P w →
    P { w.emit (.clock use now) with time := time, ticks := ticks }) :
    Ensures P panwrapFreezeTime (fun _ => P) E := by
  intro w hw
  by_cases ht : w.time.enableTimestamps = true
  · rw [panwrapFreezeTime_enabled ht]
    exact h w _ _ _ _ hw
  · rw [panwrapFreezeTime_disabled ht]
    exact hw

theorem panwrapUnfreezeTime_keeps (h : ∀ w use now time ticks, P w →
    P { w.emit (.clock use now) with time := time, ticks := ticks }) :
    Ensures P panwrapUnfreezeTime (fun _ => P) E := by
  intro w hw
  by_cases ht : (!w.time.enableTimestamps || !w.time.timeIsFrozen) = true
  · rw [panwrapUnfreezeTime_skipped ht]
    exact hw
  · rw [panwrapUnfreezeTime_frozen ht]
    exact h w _ _ _ _ hw

end Freezing

end Stamps

def panwrapLogCont (format : String) (args : List Arg) : Wrap Unit := emit (.cont format args)

/-- `struct panwrap_flag_info`; a table's `{}` terminator is the end of the list. -/
structure PanwrapFlagInfo where
  flag : U64
  name : String

/-- The loop of `panwrap_log_decoded_flags`, with what is left of `flags` and
`decodable_flags_found`. Its `int i` is not bounded here, unlike that of the `forInt` loops: the
tables of the source have a few entries each. -/
def logFlagNames : List PanwrapFlagInfo → U64 → Bool → Wrap (U64 × Bool)
  | [], flags, found => pure (flags, found)
  | info :: rest, flags, found =>
    -- a flag of several bits needs all of them
    if flags &&& info.flag ≠ info.flag then logFlagNames rest flags found
    else do
      panwrapLogCont (if found then " | " else " (") []
      panwrapLogCont "%s" [.str info.name]
      logFlagNames rest (flags &&& ~~~info.flag) true

def panwrapLogDecodedFlags (flagInfo : List PanwrapFlagInfo) (flags : U64) : Wrap Unit := do
  panwrapLogCont "0x%lx" [.u64 flags]
  let r ← logFlagNames flagInfo flags false
  if r.2 then do
    (if r.1 ≠ 0 then panwrapLogCont " | 0x%lx" [.u64 r.1] else pure ())
    panwrapLogCont ")" []
  else pure ()

def hexdumpColLen : ℕ := 4
def hexdumpRowLen : ℕ := 16

/-- The row's text column, `alpha`. -/
abbrev Gutter := ℕ → U8

def Gutter.set (alpha : Gutter) (i : ℕ) (c : U8) : Gutter := fun j => if j = i then c else alpha j

def Gutter.text (alpha : Gutter) : List U8 := (List.range hexdumpRowLen).map alpha

/-- '.' -/
def dot : U8 := 0x2e

/-- `isprint(c) && c < 0xA0` in the C locale. -/
def printable (c : U8) : Bool := 0x20 ≤ c && c ≤ 0x7e && c < 0xa0

/-- The `else` branch of a hexdump cell: a byte that is there. -/
def hexdumpByte (data : U64) (alpha : Gutter) (i : ℕ) : Wrap Gutter := do
  let b ← load8 (data + BitVec.ofNat 64 i)
  panwrapLogCont " %02x" [.int b.toNat]
  pure (alpha.set (i % hexdumpRowLen) (if printable b then b else dot))

/-- The branch for an address that wraps around below `data`. -/
def hexdumpWrapped (alpha : Gutter) (i : ℕ) : Wrap Gutter := do
  panwrapLogCont "   " []
  pure (alpha.set (i % hexdumpRowLen) dot)

/-- One turn of the first loop of `panwrap_log_hexdump`. -/
def hexdumpCell (data : U64) (alpha : Gutter) (i : ℕ) : Wrap Gutter := do
  (if i % hexdumpRowLen = 0 then panwrapLog "%08X" [.u32 (BitVec.ofNat 32 i)] else pure ())
  (if i % hexdumpColLen = 0 then panwrapLogCont " " [] else pure ())
  let alpha ←
    (if data + BitVec.ofNat 64 i < data then hexdumpWrapped alpha i else hexdumpByte data alpha i)
  (if i % hexdumpRowLen = hexdumpRowLen-1 then panwrapLogCont "  |%s|\n" [.bytes alpha.text]
    else pure ())
  pure alpha

/-- The first loop, from index `i` with `n` bytes to go. -/
def hexdumpCells (data : U64) : ℕ → ℕ → Gutter → Wrap Gutter
  | _, 0, alpha => pure alpha
  | i, n+1, alpha => do
    let alpha ← hexdumpCell data alpha i
    -- `i` is an `int`, and `size` may be larger than any
    (if i = intMax then halt .intOverflow else pure ())
    hexdumpCells data (i+1) n alpha

/-- The second loop, which fills the last row from column `i` with `n` columns to go. -/
def hexdumpPad : ℕ → ℕ → Gutter → Wrap Unit
  | _, 0, _ => pure ()
  | i, n+1, alpha => do
    panwrapLogCont "   " []
    (if i = hexdumpRowLen-1 then panwrapLogCont "  |%s|\n" [.bytes (alpha.set i dot).text]
      else pure ())
    hexdumpPad (i+1) n (alpha.set i dot)

def panwrapLogHexdump (data size : U64) : Wrap Unit := do
  emit (.hexdump data size)
  let alpha ← hexdumpCells data 0 size.toNat (fun _ => 0)
  let col := size.toNat % hexdumpRowLen
  if col ≠ 0 then hexdumpPad col (hexdumpRowLen - col) alpha else pure ()

/-- The backward scan of `panwrap_log_hexdump_trimmed`: `trim_offset` is an `off_t`
and `room` how often it can be decremented before it would overflow. -/
def trimScan (d : U64) : ℕ → ℤ → Wrap ℤ
  | room, trimOffset =>
    -- the test of the loop; any other negative offset is read like the rest
    if trimOffset = -1 then pure trimOffset
    else do
      let b ← load8 (d + BitVec.ofInt 64 trimOffset)
      if b ≠ 0 then pure trimOffset
      else match room with
        | 0 => halt .intOverflow
        | room+1 => trimScan d room (trimOffset-1)

def enableHexdumpTrimming : Wrap Bool := fun w => .ok w.enableHexdumpTrimming w

def panwrapLogHexdumpTrimmed (data size : U64) : Wrap Unit := do
  let trim ← enableHexdumpTrimming
  if !trim then panwrapLogHexdump data size
  else do
    let last := (size - 1).toInt
    let trimOffset ← trimScan data (last + 2^63).toNat last
    -- no byte but zeros was found: everything is dumped
    if trimOffset < 0 then panwrapLogHexdump data size
    else do
      let trimSize := BitVec.ofInt 64 (trimOffset + 1)
      panwrapLogHexdump data trimSize
      panwrapLog "<0 repeating %zu times>\n" [.u64 (size - trimSize)]

end Panloader
