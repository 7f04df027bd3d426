import Panloader.PanwrapUtil

/-! `panwrap-mmap.c` and `panwrap-mmap.h`: the lists of allocations and mappings,
lookups in them, and the checked translation of GPU addresses. -/
namespace Panloader

/-- `MALI_MEM_SAME_VA` -/
def maliMemSameVa : U32 := 1 <<< 13

def mmapFlagsFlagInfo : List PanwrapFlagInfo := [
  ⟨0x01, "MAP_SHARED"⟩,
  ⟨0x02, "MAP_PRIVATE"⟩,
  ⟨0x20, "MAP_ANONYMOUS"⟩,
  ⟨0x0800, "MAP_DENYWRITE"⟩,
  ⟨0x10, "MAP_FIXED"⟩,
  ⟨0x0100, "MAP_GROWSDOWN"⟩,
  ⟨0x40000, "MAP_HUGETLB"⟩,
  ⟨0x2000, "MAP_LOCKED"⟩,
  ⟨0x10000, "MAP_NONBLOCK"⟩,
  ⟨0x4000, "MAP_NORESERVE"⟩,
  ⟨0x8000, "MAP_POPULATE"⟩,
  ⟨0x20000, "MAP_STACK"⟩,
  ⟨0x4000000, "MAP_UNINITIALIZED"⟩]

def mmapProtFlagInfo : List PanwrapFlagInfo := [
  ⟨0x4, "PROT_EXEC"⟩,
  ⟨0x1, "PROT_READ"⟩,
  ⟨0x2, "PROT_WRITE"⟩]

/-- The mapping `panwrap_track_mmap` builds for the allocation `mem`. -/
def PanwrapAllocatedMemory.mapped (mem : PanwrapAllocatedMemory) (gpuVa addr length : U64)
    (prot : U32) : PanwrapMappedMemory where
  gpuVa := if mem.flags &&& maliMemSameVa ≠ 0 then addr else gpuVa
  length := length
  addr := addr
  prot := prot
  flags := mem.flags

/-- The pending allocation `panwrap_track_mmap` picks. -/
def Tracker.pendingAllocation (t : Tracker) (gpuVa : U64) : Option PanwrapAllocatedMemory :=
  t.allocations.find? (fun pos => pos.gpuVa == gpuVa)

def panwrapFindMappedMem (mmaps : List PanwrapMappedMemory) (addr : U64) :
    Option PanwrapMappedMemory :=
  mmaps.find? (fun pos => pos.addr == addr)

def panwrapFindMappedMemContaining (mmaps : List PanwrapMappedMemory) (addr : U64) :
    Option PanwrapMappedMemory :=
  -- the address right behind the range passes as well
  mmaps.find? (fun pos => pos.addr ≤ addr && addr ≤ pos.addr + pos.length)

def panwrapFindMappedGpuMem (mmaps : List PanwrapMappedMemory) (addr : U64) :
    Option PanwrapMappedMemory :=
  mmaps.find? (fun pos => pos.gpuVa == addr)

def panwrapFindMappedGpuMemContaining (mmaps : List PanwrapMappedMemory) (addr : U64) :
    Option PanwrapMappedMemory :=
  -- here too, and where the end wraps around no address passes
  mmaps.find? (fun pos => pos.gpuVa ≤ addr && addr ≤ pos.gpuVa + pos.length)

/-- `list_add(&mem->node, &allocations)` -/
def Tracker.addAllocation (t : Tracker) (mem : PanwrapAllocatedMemory) : Tracker :=
  { t with allocations := mem :: t.allocations }

/-- The list updates of `panwrap_track_mmap`: the new node goes to the front of
`mmaps`, the allocation's node leaves `allocations`. -/
def Tracker.addMapping (t : Tracker) (gpuVa : U64) (m : PanwrapMappedMemory) : Tracker where
  allocations := t.allocations.eraseP (fun pos => pos.gpuVa == gpuVa)
  mmaps := m :: t.mmaps

/-- `list_del` of the node `panwrap_find_mapped_mem` returns. -/
def Tracker.delMapping (t : Tracker) (addr : U64) : Tracker :=
  { t with mmaps := t.mmaps.eraseP (fun pos => pos.addr == addr) }

def tracker : Wrap Tracker := fun w => .ok w.tracker w

def setTracker (t : Tracker) : Wrap Unit := fun w => .ok () { w with tracker := t }

def panwrapTrackAllocation (addr : U64) (flags : U32) : Wrap Unit := do
  panwrapLog "GPU memory allocated at GPU VA 0x%lx\n" [.u64 addr]
  let t ← tracker
  setTracker (t.addAllocation ⟨addr, flags⟩)

/-- `panwrap_track_mmap` where no pending allocation is found. -/
def logUntrackedMmap (gpuVa addr : U64) (prot flags : U32) : Wrap Unit := do
  panwrapLog "Error: Untracked gpu memory 0x%lx mapped to %p\n" [.u64 gpuVa, .u64 addr]
  panwrapLog "\tprot = " []
  panwrapLogDecodedFlags mmapProtFlagInfo (prot.signExtend 64)
  panwrapLogCont "\n" []
  panwrapLog "\tflags = " []
  panwrapLogDecodedFlags mmapFlagsFlagInfo (flags.signExtend 64)
  panwrapLogCont "\n" []

def panwrapTrackMmap (gpuVa addr length : U64) (prot flags : U32) : Wrap Unit := do
  let t ← tracker
  match t.pendingAllocation gpuVa with
  | none => logUntrackedMmap gpuVa addr prot flags
  | some mem => do
    let mappedMem := mem.mapped gpuVa addr length prot
    -- the result of the real call is not looked at: `addr` may be `MAP_FAILED`
    setTracker (t.addMapping gpuVa mappedMem)
    panwrapLog "GPU VA 0x%lx mapped to %p - %p (length == %zu)\n"
      [.u64 mappedMem.gpuVa, .u64 addr, .u64 (addr + length), .u64 length]

def panwrapTrackMunmap (addr : U64) : Wrap Unit := do
  let t ← tracker
  match panwrapFindMappedMem t.mmaps addr with
  | none => panwrapLog "Unknown mmap %p unmapped\n" [.u64 addr]
  | some _ => do
    setTracker (t.delMapping addr)
    panwrapLog "Unmapped GPU memory at %p\n" [.u64 addr]

/-- The part of `__panwrap_deref_mem_err` that describes the mapping, if there is one. -/
def logMappingInformation (gpuVa size : U64) : Option PanwrapMappedMemory → Wrap Unit
  | some mem => do
    panwrapLog "Mapping information:\n" []
    panwrapIndentIncr
    panwrapLog "CPU VA: %p - %p\n" [.u64 mem.addr, .u64 (mem.addr + mem.length)]
    panwrapLog "GPU VA: 0x%lx - 0x%lx\n" [.u64 mem.gpuVa, .u64 (mem.gpuVa + mem.length)]
    panwrapLog "Length: %zu bytes\n" [.u64 mem.length]
    panwrapIndentDecr
    panwrapLog "Access length was %zu (%zu out of bounds)\n"
      [.u64 size, .u64 (((gpuVa - mem.gpuVa) + size) - mem.length)]
  | none => panwrapLog "GPU memory is not contained within known GPU VA mappings\n" []

/-- `panwrap_indent = 0` -/
def panwrapIndentReset : Wrap Unit := fun w => .ok () (w.setIndent 0)

/-- The lines of `__panwrap_deref_mem_err`. -/
def logInvalidAccess (mem : Option PanwrapMappedMemory) (gpuVa size : U64) (line : ℕ)
    (filename : String) : Wrap Unit := do
  panwrapLog "\n" []
  panwrapLog "INVALID GPU MEMORY ACCESS @0x%lx - 0x%lx:\n" [.u64 gpuVa, .u64 (gpuVa + size)]
  panwrapLog "Occurred at line %d of %s\n" [.int line, .str filename]
  logMappingInformation gpuVa size mem

def panwrapDerefMemErr {α : Type} (mem : Option PanwrapMappedMemory) (gpuVa size : U64)
    (line : ℕ) (filename : String) : Wrap α := do
  panwrapIndentReset
  logInvalidAccess mem gpuVa size line filename
  -- `abort()`
  halt .derefMemErr

/-- The mapping an access goes through: the one given, or for `NULL` the one found. -/
def usedMapping (mmaps : List PanwrapMappedMemory) (mem : Option PanwrapMappedMemory)
    (gpuVa : U64) : Option PanwrapMappedMemory :=
  match mem with
  | some m => some m
  | none => panwrapFindMappedGpuMemContaining mmaps gpuVa

/-- The comparison that sends an access to `__panwrap_deref_mem_err`. -/
def PanwrapMappedMemory.rejects (m : PanwrapMappedMemory) (gpuVa size : U64) : Bool :=
  -- unsigned words: the difference and the sum may both wrap around
  m.length < size + (gpuVa - m.gpuVa)

/-- The pointer returned for an access that is not rejected. -/
def PanwrapMappedMemory.translate (m : PanwrapMappedMemory) (gpuVa : U64) : U64 :=
  -- the displacement from the CPU address to the GPU address is added
  gpuVa + (m.gpuVa - m.addr)

/-- `__panwrap_deref_gpu_mem`, with `none` where it calls `__panwrap_deref_mem_err`. -/
def derefGpuMem (mmaps : List PanwrapMappedMemory) (mem : Option PanwrapMappedMemory)
    (gpuVa size : U64) : Option U64 :=
  match usedMapping mmaps mem gpuVa with
  | none => none
  | some m => if m.rejects gpuVa size then none else some (m.translate gpuVa)

def panwrapDerefGpuMem (mem : Option PanwrapMappedMemory) (gpuVa size : U64)
    (line : ℕ) (filename : String) : Wrap U64 := do
  let t ← tracker
  match derefGpuMem t.mmaps mem gpuVa size with
  | none => panwrapDerefMemErr (usedMapping t.mmaps mem gpuVa) gpuVa size line filename
  | some p => pure p

/-- `__FILE__` -/
def mmapFile : String := "panwrap-mmap.c"

/-- The `int` that a plain `char` is promoted to, signed or not as the platform has it. -/
def promotedChar (charSigned : Bool) (c : U8) : ℤ := if charSigned then c.toInt else c.toNat

/-- The branch of `panwrap_assert_gpu_same` for a byte that is not the expected one. -/
def failGpuSame (gpuVa size buffer data : U64) : Wrap Unit := do
  panwrapLog "At 0x%lx, expected:\n" [.u64 gpuVa]
  panwrapIndentIncr
  panwrapLogHexdumpTrimmed data size
  panwrapIndentDecr
  panwrapLog "Instead got:\n" []
  panwrapIndentIncr
  panwrapLogHexdumpTrimmed buffer size
  panwrapIndentDecr
  -- `abort()`
  halt .assertFailed

def panwrapAssertGpuSame (charSigned : Bool) (mem : Option PanwrapMappedMemory)
    (gpuVa size data : U64) : Wrap Unit := do
  let buffer ← panwrapDerefGpuMem mem gpuVa size 181 mmapFile
  Effects.countFrom (fun i => do
    let got ← load8 (buffer + BitVec.ofNat 64 i)
    let expected ← load8 (data + BitVec.ofNat 64 i)
    -- a `char` on one side, an `unsigned char` on the other
    if promotedChar charSigned got ≠ expected.toNat then failGpuSame gpuVa size buffer data
    else pure ()) 0 size.toNat

/-- The branch of `panwrap_assert_gpu_mem_zero` for a byte that is not 0. -/
def failGpuMemZero (gpuVa size buffer : U64) : Wrap Unit := do
  panwrapLog "At 0x%lx, expected all 0 but got:\n" [.u64 gpuVa]
  panwrapIndentIncr
  panwrapLogHexdumpTrimmed buffer size
  panwrapIndentDecr
  halt .assertFailed

def panwrapAssertGpuMemZero (charSigned : Bool) (mem : Option PanwrapMappedMemory)
    (gpuVa size : U64) : Wrap Unit := do
  let buffer ← panwrapDerefGpuMem mem gpuVa size 204 mmapFile
  Effects.countFrom (fun i => do
    let got ← load8 (buffer + BitVec.ofNat 64 i)
    if promotedChar charSigned got ≠ 0 then failGpuMemZero gpuVa size buffer else pure ())
    0 size.toNat

end Panloader
