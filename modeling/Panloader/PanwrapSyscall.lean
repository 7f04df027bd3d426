import Mathlib.Data.List.Infix
import Panloader.IoctlDecode

/-! The overridden libc functions of `panwrap-syscall.c`, and runs of them. A call carries
what the real function answers and what the program's memory holds around it. -/
namespace Panloader

/-- `O_CREAT` -/
def oCreat : U32 := 0x40

/-- `O_TMPFILE`, which includes `O_DIRECTORY`. -/
def oTmpfile : U32 := 0x410000

/-- `MAP_FAILED` -/
def mapFailed : U64 := -1

def maliFd : Wrap ℤ := fun w => .ok w.maliFd w

def setMaliFd (fd : ℤ) : Wrap Unit := fun w => .ok () { w with maliFd := fd }

def setMem (mem : Memory) : Wrap Unit := fun w => .ok () { w with mem := mem }

/-- A call of a real function that answers `ret`. -/
def orig {α : Type} (call : RealCall) (ret : α) : Wrap α := fun w => .ok ret (w.emit (.real call))

/-- `strstr(path, "/dev/")` -/
def containsDev (path : String) : Bool := decide ("/dev/".toList <:+: path.toList)

/-- What `panwrap_open_wrap` does with a descriptor the real function returned. -/
def noteOpened (path : String) (ret : ℤ) : Wrap Unit :=
  if path = "/dev/mali0" then do
    panwrapLog "/dev/mali0 fd == %d\n" [.int ret]
    setMaliFd ret
  else if containsDev path then
    panwrapLog "Unknown device %s opened at fd %d\n" [.str path, .int ret]
  else pure ()

def panwrapOpenWrap (symbol : OpenSymbol) (path : String) (flags mode : U32) (ret : ℤ) :
    Wrap ℤ := do
  let ret ← orig (.open symbol path flags (if flags &&& oCreat ≠ 0 then some mode else none)) ret
  -- the lock is taken after the real call
  lock
  (if ret ≠ -1 then noteOpened path ret else pure ())
  unlock
  pure ret

/-- What `close` does with the mutex held. -/
def noteClosed (fd : ℤ) : Wrap Unit := do
  let mali ← maliFd
  if mali ≠ 0 ∧ fd = mali then do
    panwrapLog "/dev/mali0 closed\n" []
    setMaliFd 0
  else pure ()

def close (fd ret : ℤ) : Wrap ℤ := do
  let mali ← maliFd
  -- tested without the lock, and once more with it
  if fd ≤ 0 ∨ mali = 0 ∨ fd ≠ mali then orig (.close fd) ret
  else do
    lock
    noteClosed fd
    unlock
    orig (.close fd) ret

/-- The surroundings of an `ioctl` call: memory before and after the real function runs, its
return value, what `va_arg` yields where no third argument was passed, and whether what lies
where a name outside the table is looked up can be read and printed. -/
structure IoctlEnv where
  before : Memory
  after : Memory
  ret : ℤ
  junk : U64
  strayPrints : Bool

/-- `int request` widened to the `unsigned long` the decoders take. -/
def widenRequest (request : U32) : U64 := request.signExtend 64

/-- `ptr`: fetched only where the request has a size field. -/
def ioctlPtr (request : U32) (arg : Option U64) (junk : U64) : U64 :=
  if iocSize (widenRequest request) ≠ 0 then arg.getD junk else 0

/-- `orig_ioctl`, which may write the program's memory. -/
def origIoctl (fd : ℤ) (request : U32) (ptr : U64) (env : IoctlEnv) : Wrap ℤ := do
  let ret ← orig (.ioctl fd request ptr) env.ret
  setMem env.after
  pure ret

/-- The name of the request is known, or the program survives what is printed for it. -/
def Named (request : U32) (env : IoctlEnv) : Prop :=
  ioctlGetInfo (widenRequest request) ≠ none ∨ env.strayPrints = true

instance (request : U32) (env : IoctlEnv) : Decidable (Named request env) := by
  unfold Named
  infer_instance

/-- `name = ioctl_get_info(request)->name`. Outside the table it reads what lies there, which is
then printed as a string; where the program does not survive either, the call ends here. -/
def lookUpName (request : U32) (env : IoctlEnv) : Wrap Unit :=
  if Named request env then pure () else halt .strayName

theorem lookUpName_named {request : U32} {env : IoctlEnv} (h : Named request env) :
    lookUpName request env = pure () := if_pos h

theorem lookUpName_stray {request : U32} {env : IoctlEnv} (h : ¬Named request env) :
    lookUpName request env = halt .strayName := if_neg h

theorem lookUpName_ensures {request : U32} {env : IoctlEnv} {P : World → Prop}
    {E : Halt → World → Prop} (h : ¬Named request env → ∀ w, P w → E .strayName w) :
    Effects.Ensures P (lookUpName request env) (fun _ => P) E := by
  by_cases hname : Named request env
  · rw [lookUpName_named hname]
    exact fun _ hw => hw
  · rw [lookUpName_stray hname]
    exact h hname

/-- The branch of `ioctl` for a `NULL` argument. -/
def ioctlNoArguments (fd : ℤ) (request : U32) (env : IoctlEnv) : Wrap ℤ := do
  panwrapLog "<%-20s> (%02d) (%08x), has no arguments? Cannot decode :(\n"
    [ioctlName (widenRequest request), .int (iocNr (widenRequest request)).toNat, .u32 request]
  -- the time that the real call takes counts
  panwrapUnfreezeTime
  let ret ← origIoctl fd request 0 env
  panwrapFreezeTime
  panwrapIndentIncr
  panwrapLog "= %02d\n" [.int ret]
  panwrapIndentDecr
  pure ret

/-- The branch of `ioctl` that decodes; `id` and `rc` of the header are the same word. -/
def ioctlDecoded (fd : ℤ) (request : U32) (ptr : U64) (env : IoctlEnv) : Wrap ℤ := do
  let func ← load32 ptr
  panwrapLog "<%-20s> (%02d) (%08x) (%04d) (%03d)\n"
    [ioctlName (widenRequest request), .int (iocNr (widenRequest request)).toNat, .u32 request,
      .int (iocSize (widenRequest request)).toNat, .u32 func]
  panwrapIndentIncr
  ioctlDecodePre (widenRequest request) ptr
  panwrapUnfreezeTime
  let ret ← origIoctl fd request ptr env
  panwrapFreezeTime
  panwrapLog "= %02d, %02d\n" [.int ret, .u32 (← load32 ptr)]
  ioctlDecodePost (widenRequest request) ptr
  panwrapIndentDecr
  pure ret

def ioctl (fd : ℤ) (request : U32) (arg : Option U64) (env : IoctlEnv) : Wrap ℤ := do
  setMem env.before
  let ptr := ioctlPtr request arg env.junk
  let mali ← maliFd
  -- calls on descriptor 0 are decoded like those on the Mali device
  if fd ≠ 0 ∧ fd ≠ mali then origIoctl fd request ptr env
  else do
    lock
    panwrapFreezeTime
    lookUpName request env
    let ret ← (if ptr = 0 then ioctlNoArguments fd request env
      else ioctlDecoded fd request ptr env)
    panwrapUnfreezeTime
    unlock
    pure ret

def panwrapMmapWrap (symbol : MmapSymbol) (addr length : U64) (prot flags : U32) (fd : ℤ)
    (offset ret : U64) : Wrap U64 := do
  let mali ← maliFd
  -- 0 stands for a closed device, also where it is a descriptor
  if mali = 0 ∨ fd ≠ mali then orig (.mmap symbol addr length prot flags fd offset) ret
  else do
    lock
    let ret ← orig (.mmap symbol addr length prot flags fd offset) ret
    panwrapFreezeTime
    panwrapTrackMmap offset ret length prot flags
    panwrapUnfreezeTime
    unlock
    pure ret

/-- The part of `munmap` after the lookup. -/
def untrackMunmap (addr : U64) : Option PanwrapMappedMemory → Wrap Unit
  | none => pure ()
  | some mem => do
    (if mem.gpuVa ≠ 0 then
        panwrapLog "Unmapped GPU memory 0x%lx@%p\n" [.u64 mem.gpuVa, .u64 mem.addr]
      else panwrapLog "Unmapped unknown memory %p\n" [.u64 mem.addr])
    let t ← tracker
    setTracker (t.delMapping addr)

def munmap (addr length : U64) (ret : ℤ) : Wrap ℤ := do
  lock
  let ret ← orig (.munmap addr length) ret
  panwrapFreezeTime
  let t ← tracker
  -- neither `ret` nor `length` is looked at
  untrackMunmap addr (panwrapFindMappedMem t.mmaps addr)
  panwrapUnfreezeTime
  unlock
  pure ret

/-- An intercepted call, with what the kernel answers. `mode` is the value passed after the
flags of an open, whether or not they ask for one. -/
inductive Call
  | open (symbol : OpenSymbol) (path : String) (flags mode : U32) (ret : ℤ)
  | close (fd ret : ℤ)
  | ioctl (fd : ℤ) (request : U32) (arg : Option U64) (env : IoctlEnv)
  | mmap (symbol : MmapSymbol) (addr length : U64) (prot flags : U32) (fd : ℤ)
      (offset ret : U64)
  | munmap (addr length : U64) (ret : ℤ)

inductive Value
  | int (n : ℤ)
  | ptr (p : U64)
deriving DecidableEq

/-- The wrapper a call goes to. -/
def Call.exec : Call → Wrap Value
  | .open symbol path flags mode ret => Value.int <$> panwrapOpenWrap symbol path flags mode ret
  | .close fd ret => Value.int <$> Panloader.close fd ret
  | .ioctl fd request arg env => Value.int <$> Panloader.ioctl fd request arg env
  | .mmap symbol addr length prot flags fd offset ret =>
    Value.ptr <$> panwrapMmapWrap symbol addr length prot flags fd offset ret
  | .munmap addr length ret => Value.int <$> Panloader.munmap addr length ret

/-- The state `panwrap_util_init` leaves, with a reading of the clock at the start where
timestamps are enabled. -/
def World.initial (enableTimestamps enableHexdumpTrimming : Bool) (clock : ℕ → Timespec) :
    World where
  maliFd := 0
  tracker := ⟨[], []⟩
  locked := false
  time := {
    enableTimestamps := enableTimestamps
    timeIsFrozen := false
    startTime := if enableTimestamps then clock 0 else ⟨0, 0⟩
    totalTimeFrozen := ⟨0, 0⟩
    startFreezeTime := ⟨0, 0⟩
    frozenTimestamp := ⟨0, 0⟩ }
  enableHexdumpTrimming := enableHexdumpTrimming
  panwrapIndent := 0
  mem := fun _ => 0
  clock := clock
  ticks := if enableTimestamps then 1 else 0
  trace := []

/-- A call that returned, with the states around it. -/
structure Step where
  before : World
  call : Call
  value : Value
  after : World

/-- Runs of intercepted calls, all of which returned, from `start`. -/
inductive Run (start : World) : List Step → World → Prop
  | nil : Run start [] start
  | snoc {steps : List Step} {w w' : World} {call : Call} {value : Value} :
      Run start steps w → call.exec w = .ok value w' →
      Run start (steps ++ [⟨w, call, value, w'⟩]) w'

end Panloader
