import Mathlib.Algebra.Group.Int.Defs
import Mathlib.Algebra.Group.Nat.Defs
import Panloader.Effects

/-! The data every part of the wrapper shares: the words of a 64-bit build, the
tracked memory, the log, and the statements that touch them. -/
namespace Panloader

abbrev U8 := BitVec 8
abbrev U16 := BitVec 16
abbrev U32 := BitVec 32
abbrev U64 := BitVec 64

/-- Largest value of a C `int`. -/
def intMax : ℕ := 2^31-1

/-- Contents of the traced program's address space during one call. -/
abbrev Memory := U64 → U8

/-- Little-endian value of the `n` bytes at `a`. -/
def Memory.read (mem : Memory) (a : U64) : (n : ℕ) → BitVec (8*n)
  | 0 => 0#0
  | n+1 => Memory.read mem (a+1) n ++ mem a

/-- `struct timespec`. -/
structure Timespec where
  tvSec : ℤ
  tvNsec : ℤ
deriving DecidableEq

/-- `struct panwrap_allocated_memory`, an allocation not mapped yet. -/
structure PanwrapAllocatedMemory where
  gpuVa : U64
  flags : U32
deriving DecidableEq

/-- `struct panwrap_mapped_memory`. -/
structure PanwrapMappedMemory where
  length : U64
  addr : U64
  gpuVa : U64
  prot : U32
  flags : U32
deriving DecidableEq

/-- The two lists of `panwrap-mmap.c`, newest entry first as `list_add` leaves them. -/
structure Tracker where
  allocations : List PanwrapAllocatedMemory
  mmaps : List PanwrapMappedMemory
deriving DecidableEq

/-- The static variables behind the log's timestamps. -/
structure TimeState where
  enableTimestamps : Bool
  timeIsFrozen : Bool
  startTime : Timespec
  totalTimeFrozen : Timespec
  startFreezeTime : Timespec
  frozenTimestamp : Timespec
deriving DecidableEq

/-- A value passed to a `printf` conversion, before it is rendered. `stray` is one
the program has no defined value for. -/
inductive Arg
  | int (n : ℤ)
  | u32 (v : U32)
  | u64 (v : U64)
  | str (s : String)
  | cstr (p : U64)
  | bytes (b : List U8)
  | float (bits : U32)
  | pow2 (exponent : ℕ) (divisor : ℕ)
  | stray
deriving DecidableEq

inductive OpenSymbol
  | open
  | open64
deriving DecidableEq

inductive MmapSymbol
  | mmap
  | mmap64
deriving DecidableEq

/-- A call of the real libc function, with the arguments it receives. -/
inductive RealCall
  | open (symbol : OpenSymbol) (path : String) (flags : U32) (mode : Option U32)
  | close (fd : ℤ)
  | ioctl (fd : ℤ) (request : U32) (ptr : U64)
  | mmap (symbol : MmapSymbol) (addr length : U64) (prot flags : U32) (fd : ℤ) (offset : U64)
  | munmap (addr length : U64)
deriving DecidableEq

/-- What the clock is read for. -/
inductive ClockUse
  | freeze
  | unfreeze
  | stamp
deriving DecidableEq

/-- What a run of the wrapper leaves behind: each reading of the clock, its log lines and
their continuations, each new value of `panwrap_indent`, each read of the program's memory,
each buffer handed to the hexdump, and each call of a real function. -/
inductive Event
  | clock (use : ClockUse) (now : Timespec)
  | log (stamp : Option Timespec) (indent : ℤ) (format : String) (args : List Arg)
  | cont (format : String) (args : List Arg)
  | indent (level : ℤ)
  | load (addr : U64) (size : ℕ)
  | hexdump (data size : U64)
  | real (call : RealCall)
deriving DecidableEq

/-- Ends of a call other than a return: the reported abort, a failed memory assertion, a
division by zero, a counter that overflows, a name that is neither in the table nor anything to
print, a loop that never ends, and a lock taken twice. The program's memory can be read
everywhere: a fault of a `load` is not an end, and neither is what may come of printing the name
of an `impl_tech` that has none. -/
inductive Halt
  | derefMemErr
  | assertFailed
  | divByZero
  | intOverflow
  | strayName
  | endlessLoop
  | deadlock
deriving DecidableEq

structure World where
  maliFd : ℤ
  tracker : Tracker
  locked : Bool
  time : TimeState
  enableHexdumpTrimming : Bool
  panwrapIndent : ℤ
  mem : Memory
  clock : ℕ → Timespec
  ticks : ℕ
  trace : List Event

abbrev Wrap := EStateM Halt World

def halt {α : Type} (h : Halt) : Wrap α := fun w => .error h w

def World.emit (w : World) (e : Event) : World := { w with trace := w.trace ++ [e] }

def emit (e : Event) : Wrap Unit := fun w => .ok () (w.emit e)

def World.emitAll (w : World) (es : List Event) : World := { w with trace := w.trace ++ es }

@[simp] theorem World.emitAll_nil (w : World) : w.emitAll [] = w := by
  simp only [World.emitAll, List.append_nil]

theorem World.emitAll_cons (w : World) (e : Event) (es : List Event) :
    w.emitAll (e :: es) = (w.emit e).emitAll es := by
  simp only [World.emitAll, World.emit, List.append_assoc, List.singleton_append]

theorem World.emitAll_append (w : World) (es fs : List Event) :
    w.emitAll (es ++ fs) = (w.emitAll es).emitAll fs := by
  simp only [World.emitAll, List.append_assoc]

/-- Read `n` bytes of the program's memory. -/
def load (n : ℕ) (a : U64) : Wrap (BitVec (8*n)) :=
  fun w => .ok (w.mem.read a n) (w.emit (.load a n))

def load8 (a : U64) : Wrap U8 := load 1 a
def load16 (a : U64) : Wrap U16 := load 2 a
def load32 (a : U64) : Wrap U32 := load 4 a
def load64 (a : U64) : Wrap U64 := load 8 a

def World.setIndent (w : World) (level : ℤ) : World :=
  { w with panwrapIndent := level, trace := w.trace ++ [.indent level] }

/-- `panwrap_indent++` -/
def panwrapIndentIncr : Wrap Unit := fun w => .ok () (w.setIndent (w.panwrapIndent+1))

/-- `panwrap_indent--` -/
def panwrapIndentDecr : Wrap Unit := fun w => .ok () (w.setIndent (w.panwrapIndent-1))

/-- `LOCK()`: the mutex is not recursive, so a second lock never returns. -/
def lock : Wrap Unit := fun w =>
  if w.locked then .error .deadlock w else .ok () { w with locked := true }

/-- `UNLOCK()` -/
def unlock : Wrap Unit := fun w => .ok () { w with locked := false }

/-- `for (int i = 0; i < n; i++) body(i)`, where the increment past `INT_MAX` is undefined. -/
def forInt (n : ℕ) (body : ℕ → Wrap Unit) : Wrap Unit :=
  Effects.countFrom (fun i => do
    body i
    if i = intMax then halt .intOverflow else pure ()) 0 n

/-- Unsigned division, which traps on a zero divisor. -/
def udiv (a b : U64) : Wrap U64 :=
  if b = 0 then halt .divByZero else pure (a / b)

end Panloader
