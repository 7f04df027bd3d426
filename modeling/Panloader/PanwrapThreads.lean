import Panloader.LockedSections
import Panloader.PanwrapSyscall

/-! `panwrap-syscall.c` in a program with threads. The mutex guards what follows `LOCK()`; the
tests of `mali_fd` before it and most real calls are made without it. -/
namespace Panloader
open LockedSections

/-- What an overridden function does between `LOCK()` and `UNLOCK()`. -/
def Call.underLock : Call → Wrap Unit
  | .open _ path _ _ ret => if ret ≠ -1 then noteOpened path ret else pure ()
  | .close fd _ => noteClosed fd
  | .ioctl fd request arg env => do
    setMem env.before
    panwrapFreezeTime
    lookUpName request env
    let _ ← (if ioctlPtr request arg env.junk = 0 then ioctlNoArguments fd request env
      else ioctlDecoded fd request (ioctlPtr request arg env.junk) env)
    panwrapUnfreezeTime
  | .mmap symbol addr length prot flags fd offset ret => do
    let ret ← orig (.mmap symbol addr length prot flags fd offset) ret
    panwrapFreezeTime
    panwrapTrackMmap offset ret length prot flags
    panwrapUnfreezeTime
  | .munmap addr length ret => do
    let _ ← orig (.munmap addr length) ret
    panwrapFreezeTime
    let t ← tracker
    untrackMunmap addr (panwrapFindMappedMem t.mmaps addr)
    panwrapUnfreezeTime

/-- The calls that are decoded or tracked: all but `open` and `close`. -/
def Call.Decodes : Call → Prop
  | .open .. | .close .. => False
  | _ => True

abbrev WrapProgram := Program World Call RealCall

/-- `!mali_fd || fd != mali_fd`: two reads, between which other threads may run. -/
def testMaliFd (fd : ℤ) (other mali : WrapProgram) : WrapProgram :=
  .peek fun w => if w.maliFd = 0 then other else
    .peek fun w => if fd ≠ w.maliFd then other else mali

/-- A call as the thread that makes it goes through it, and then `next`. -/
def Call.program (call : Call) (next : WrapProgram) : WrapProgram :=
  match call with
  | .open symbol path flags mode _ =>
    .act (.open symbol path flags (if flags &&& oCreat ≠ 0 then some mode else none))
      (.locked call next)
  | .close fd _ =>
    if fd ≤ 0 then .act (.close fd) next
    else testMaliFd fd (.act (.close fd) next) (.locked call (.act (.close fd) next))
  | .ioctl fd request arg env =>
    if fd = 0 then .locked call next
    else .peek fun w => if fd ≠ w.maliFd then
        .act (.ioctl fd request (ioctlPtr request arg env.junk)) next
      else .locked call next
  | .mmap symbol addr length prot flags fd offset _ =>
    testMaliFd fd (.act (.mmap symbol addr length prot flags fd offset) next) (.locked call next)
  | .munmap _ _ _ => .locked call next

/-- A thread that makes these calls. -/
def threadProgram : List Call → WrapProgram
  | [] => .finished
  | call :: calls => call.program (threadProgram calls)

/-- A program that no other thread comes in between of. -/
def alone : WrapProgram → Wrap Unit
  | .finished => pure ()
  | .peek next => fun w => alone (next w) w
  | .act real next => do
    emit (.real real)
    alone next
  | .locked call next => do
    lock
    call.underLock
    unlock
    alone next

/-- The threads' machine: each call's part under the lock is cut into steps in some way. -/
structure Cut where
  steps : Call → Section Halt World
  run_steps : ∀ call, (steps call).run = call.underLock

/-- No step of another thread falls into a call's part under the lock. -/
def Cut.coarse : Cut where
  steps call := .atomic call.underLock
  run_steps call := Section.run_atomic call.underLock

/-- Threads that make the calls of `calls`, from the state `w`. -/
abbrev startThreads {τ : Type} (w : World) (calls : τ → List Call) :
    Machine τ Halt World Call RealCall :=
  .initial w fun t => threadProgram (calls t)

end Panloader
