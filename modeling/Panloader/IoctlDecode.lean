import Panloader.MaliIoctl
import Panloader.PanwrapDecoder

/-! The ioctl decoders of `panwrap-syscall.c`. Field offsets are those of the packed structs
of `mali-ioctl.h` on a 64-bit build; each struct starts with the 8 bytes of its header. -/
namespace Panloader

/-- `IOCTL_CASE`: `_IOC_SIZE(request)` is an expression of type `unsigned long`, and
`_IOWR` takes the size of that type. -/
def ioctlCase (request : U64) : U64 := iowr (iocType request) (iocNr request) 8

/-- `ioctl_decode_coherency_mode` -/
def ioctlDecodeCoherencyMode (mode : U32) : String :=
  if mode = 0 then "ACE_LITE" else if mode = 1 then "ACE" else if mode = 31 then "None" else "???"

/-- `ioctl_decode_jd_prio` -/
def ioctlDecodeJdPrio (prio : U8) : String :=
  if prio = 2 then "Low" else if prio = 0 then "Medium" else if prio = 1 then "High" else "???"

/-- `ioctl_get_job_type_from_jd_core_req` -/
def ioctlGetJobTypeFromJdCoreReq (req : U32) : String :=
  if req &&& maliJdReqSoftJob ≠ 0 then "Soft job"
  else if req &&& maliJdReqOnlyCompute ≠ 0 then "Compute Shader Job"
  else
    let type := req &&& (maliJdReqFs ||| maliJdReqCs ||| maliJdReqT)
    if type = maliJdReqDep then "Dependency only job"
    else if type = maliJdReqFs then "Fragment shader job"
    else if type = maliJdReqCs then "Vertex/Geometry shader job"
    else if type = maliJdReqT then "Tiler job"
    else if type = maliJdReqFs ||| maliJdReqCs then "Fragment shader + vertex/geometry shader job"
    else if type = maliJdReqFs ||| maliJdReqT then "Fragment shader + tiler job"
    else if type = maliJdReqCs ||| maliJdReqT then "Vertex/geometry shader job + tiler job"
    else if type = maliJdReqFs ||| maliJdReqCs ||| maliJdReqT then
      "Fragment shader + vertex/geometry shader job + tiler job"
    else "???"

/-- The switch of `ioctl_log_decoded_jd_core_req`, given the case its operand selects. -/
def logSoftFlag : Option (U32 × String) → Wrap Unit
  | some s => panwrapLogCont "%s)" [.str s.2]
  | none => panwrapLogCont "???)" []

/-- `ioctl_log_decoded_jd_core_req`; the switch is on all of `req`. -/
def ioctlLogDecodedJdCoreReq (req : U32) : Wrap Unit :=
  if req &&& maliJdReqSoftJob ≠ 0 then do
    panwrapLogCont "0x%010x (" [.u32 req]
    logSoftFlag (softFlags.find? (fun s => s.1 == req))
  else panwrapLogDecodedFlags jdReqFlagInfo (req.setWidth 64)

/-- A line of the form `text = ` followed by decoded flags. -/
def logFlagsLine (text : String) (flagInfo : List PanwrapFlagInfo) (flags : U64) : Wrap Unit := do
  panwrapLog text []
  panwrapLogDecodedFlags flagInfo flags
  panwrapLogCont "\n" []

/-- `struct mali_ioctl_mem_alloc`: `va_pages` 8, `commit_pages` 16, `extent` 24, `flags` 32,
`gpu_va` 40, `va_alignment` 48. -/
def ioctlDecodePreMemAlloc (ptr : U64) : Wrap Unit := do
  panwrapLog "va_pages = %ld\n" [.u64 (← load64 (ptr + 8))]
  panwrapLog "commit_pages = %ld\n" [.u64 (← load64 (ptr + 16))]
  panwrapLog "extent = 0x%lx\n" [.u64 (← load64 (ptr + 24))]
  logFlagsLine "flags = " memFlagInfo (← load64 (ptr + 32))

def memImportTypeName (type : U32) : String :=
  if type = 1 then "UMP" else if type = 2 then "UMM" else if type = 3 then "User buffer"
  else "Invalid"

/-- `struct mali_ioctl_mem_import`: `phandle` 8, `type` 16, `flags` 24, `gpu_va` 32,
`va_pages` 40. -/
def ioctlDecodePreMemImport (ptr : U64) : Wrap Unit := do
  let type ← load32 (ptr + 16)
  panwrapLog "phandle = 0x%lx\n" [.u64 (← load64 (ptr + 8))]
  panwrapLog "type = %d (%s)\n" [.u32 type, .str (memImportTypeName type)]
  logFlagsLine "flags = " memFlagInfo (← load64 (ptr + 24))

/-- `struct mali_ioctl_mem_commit`: `gpu_addr` 8, `pages` 16, `result_subcode` 24. -/
def ioctlDecodePreMemCommit (ptr : U64) : Wrap Unit := do
  panwrapLog "gpu_addr = 0x%lx\n" [.u64 (← load64 (ptr + 8))]
  panwrapLog "pages = %ld\n" [.u64 (← load64 (ptr + 16))]

def memQueryName (query : U32) : String :=
  if query = 1 then "Commit size" else if query = 2 then "VA size" else if query = 3 then "Flags"
  else "???"

/-- `struct mali_ioctl_mem_query`: `gpu_addr` 8, `query` 16, `value` 24. -/
def ioctlDecodePreMemQuery (ptr : U64) : Wrap Unit := do
  let query ← load32 (ptr + 16)
  panwrapLog "gpu_addr = 0x%lx\n" [.u64 (← load64 (ptr + 8))]
  panwrapLog "query = %d (%s)\n" [.u32 query, .str (memQueryName query)]

/-- `struct mali_ioctl_mem_free`: `gpu_addr` 8. -/
def ioctlDecodePreMemFree (ptr : U64) : Wrap Unit := do
  panwrapLog "gpu_addr = 0x%lx\n" [.u64 (← load64 (ptr + 8))]

/-- `struct mali_ioctl_mem_flags_change`: `gpu_va` 8, `flags` 16, `mask` 24. -/
def ioctlDecodePreMemFlagsChange (ptr : U64) : Wrap Unit := do
  panwrapLog "gpu_va = 0x%lx\n" [.u64 (← load64 (ptr + 8))]
  logFlagsLine "flags = " memFlagInfo (← load64 (ptr + 16))
  panwrapLog "mask = 0x%lx\n" [.u64 (← load64 (ptr + 24))]

/-- `struct mali_ioctl_mem_alias`: `flags` 8, `stride` 16, `nents` 24, `ai` 32, `gpu_va` 40,
`va_pages` 48. -/
def ioctlDecodePreMemAlias (ptr : U64) : Wrap Unit := do
  logFlagsLine "flags = " memFlagInfo (← load64 (ptr + 8))
  panwrapLog "stride = %ld\n" [.u64 (← load64 (ptr + 16))]
  panwrapLog "nents = %ld\n" [.u64 (← load64 (ptr + 24))]
  panwrapLog "ai = 0x%lx\n" [.u64 (← load64 (ptr + 32))]

/-- `MALI_SYNC_TO_DEVICE` and `MALI_SYNC_TO_CPU` -/
def maliSyncToDevice : U8 := 0
def maliSyncToCpu : U8 := 1

def syncTypeName (type : U8) : String :=
  if type = maliSyncToDevice then "device <- CPU"
  else if type = maliSyncToCpu then "device -> CPU"
  else "???"

/-- The lines of `ioctl_decode_pre_sync` on the handle and the address. -/
def logSyncRange (handle userAddr size : U64) : Option PanwrapMappedMemory → Wrap Unit
  | some mem => do
    panwrapLog "handle = 0x%lx (end=0x%lx, len=%zu)\n"
      [.u64 handle, .u64 (handle + mem.length), .u64 mem.length]
    panwrapLog "user_addr = %p - %p (offset=%zu)\n"
      [.u64 userAddr, .u64 (userAddr + size), .u64 (userAddr - mem.addr)]
  | none => do
    panwrapLog "ERROR! Unknown handle specified\n" []
    panwrapLog "handle = 0x%lx\n" [.u64 handle]
    panwrapLog "user_addr = %p - %p\n" [.u64 userAddr, .u64 (userAddr + size)]

/-- `struct mali_ioctl_sync`: `handle` 8, `user_addr` 16, `size` 24, `type` 32. -/
def ioctlDecodePreSync (ptr : U64) : Wrap Unit := do
  let handle ← load64 (ptr + 8)
  let t ← tracker
  let type ← load8 (ptr + 32)
  let userAddr ← load64 (ptr + 16)
  let size ← load64 (ptr + 24)
  logSyncRange handle userAddr size (panwrapFindMappedGpuMem t.mmaps handle)
  panwrapLog "size = %ld\n" [.u64 size]
  panwrapLog "type = %d (%s)\n" [.int type.toNat, .str (syncTypeName type)]
  if type = maliSyncToDevice then do
    panwrapLog "Dumping memory being synced to device:\n" []
    panwrapIndentIncr
    -- the application's own pointer, not a GPU address
    panwrapLogHexdump userAddr size
    panwrapIndentDecr
  else pure ()

/-- `struct mali_ioctl_set_flags`: `create_flags` 8. -/
def ioctlDecodePreSetFlags (ptr : U64) : Wrap Unit := do
  panwrapLog "create_flags = %08x\n" [.u32 (← load32 (ptr + 8))]

/-- `struct mali_ioctl_stream_create`: `name` 8, `fd` 40. -/
def ioctlDecodePreStreamCreate (ptr : U64) : Wrap Unit := do
  panwrapLog "name = %s\n" [.cstr (ptr + 8)]

/-- `sizeof(struct mali_jd_atom_v2)` -/
def sizeofJdAtomV2 : U32 := 48

/-- The external resources of an atom; each entry of the list is a
`struct mali_external_resource`, `count` 0 and `ext_resource` 8. -/
def logExternalResources (extResList : U64) (nrExtRes : U16) : Wrap Unit :=
  if extResList ≠ 0 then do
    panwrapLog "text_res_list.count = %ld\n" [.u64 (← load64 extResList)]
    panwrapLog "External resources:\n" []
    panwrapIndentIncr
    forInt nrExtRes.toNat fun j => do
      logFlagsLine "" externalResourcesAccessFlagInfo
        -- each element of the array is a whole list with its own count
        (← load64 (extResList + 16 * BitVec.ofNat 64 j + 8))
    panwrapIndentDecr
  else panwrapLog "<no external resources>\n" []

/-- The pre-dependencies of the atom `a`, which is number `i` of its submission: both turns
of the loop read `a->pre_dep[i]`, whose `atom_id` is at 0 and `dependency_type` at 1. -/
def logPreDependencies (a : U64) (i : ℕ) : Wrap Unit := do
  panwrapLog "Pre-dependencies:\n" []
  panwrapIndentIncr
  forInt 2 fun _ => do
    let dep := a + 36 + 2 * BitVec.ofNat 64 i
    panwrapLog "atom_id = %d flags == " [.int (← load8 dep).toNat]
    panwrapLogDecodedFlags maliJdDepTypeFlagInfo ((← load8 (dep + 1)).setWidth 64)
    panwrapLogCont "\n" []
  panwrapIndentDecr

/-- One turn of the loop over atoms. `struct mali_jd_atom_v2`: `jc` 0, `udata` 8,
`ext_res_list` 24, `nr_ext_res` 32, `compat_core_req` 34, `pre_dep` 36, `atom_number` 40,
`prio` 41, `device_nr` 42, `core_req` 44. -/
def decodeAtom (a : U64) (i : ℕ) : Wrap Unit := do
  let jc ← load64 a
  panwrapLog "jc = 0x%lx\n" [.u64 jc]
  panwrapIndentIncr
  panwrapLog "Decoding job chain:\n" []
  panwrapIndentIncr
  -- before anything is known about the kind of the atom
  panwrapTraceHwChain jc
  panwrapIndentDecr
  panwrapLog "udata = [0x%lx, 0x%lx]\n" [.u64 (← load64 (a + 8)), .u64 (← load64 (a + 16))]
  let nrExtRes ← load16 (a + 32)
  panwrapLog "nr_ext_res = %d\n" [.int nrExtRes.toNat]
  logExternalResources (← load64 (a + 24)) nrExtRes
  panwrapLog "compat_core_req = 0x%x\n" [.int (← load16 (a + 34)).toNat]
  logPreDependencies a i
  panwrapLog "atom_number = %d\n" [.int (← load8 (a + 40)).toNat]
  let prio ← load8 (a + 41)
  panwrapLog "prio = %d (%s)\n" [.int prio.toNat, .str (ioctlDecodeJdPrio prio)]
  panwrapLog "device_nr = %d\n" [.int (← load8 (a + 42)).toNat]
  let coreReq ← load32 (a + 44)
  -- only these lines depend on the kind of the atom
  panwrapLog "Job type = %s\n" [.str (ioctlGetJobTypeFromJdCoreReq coreReq)]
  panwrapLog "core_req = " []
  ioctlLogDecodedJdCoreReq coreReq
  panwrapLogCont "\n" []
  panwrapIndentDecr

/-- `struct mali_ioctl_job_submit`: `addr` 8, `nr_atoms` 16, `stride` 20. -/
def ioctlDecodePreJobSubmit (ptr : U64) : Wrap Unit := do
  let atoms ← load64 (ptr + 8)
  let nrAtoms ← load32 (ptr + 16)
  let stride ← load32 (ptr + 20)
  panwrapLog "addr = %p\n" [.u64 atoms]
  panwrapLog "nr_atoms = %d\n" [.u32 nrAtoms]
  panwrapLog "stride = %d\n" [.u32 stride]
  if stride ≠ sizeofJdAtomV2 then do
    panwrapLog "SIZE MISMATCH (stride should be %zd, was %d)\n"
      [.u64 (sizeofJdAtomV2.setWidth 64), .u32 stride]
    panwrapLog "Cannot dump atoms :(, maybe it's a legacy job format?\n" []
  else do
    panwrapLog "Atoms:\n" []
    panwrapIndentIncr
    forInt nrAtoms.toNat fun i => decodeAtom (atoms + 48 * BitVec.ofNat 64 i) i
    panwrapIndentDecr

def ioctlDecodePre (request ptr : U64) : Wrap Unit :=
  let key := ioctlCase request
  if key = ioctlCase maliIoctlMemAlloc then ioctlDecodePreMemAlloc ptr
  else if key = ioctlCase maliIoctlMemImport then ioctlDecodePreMemImport ptr
  else if key = ioctlCase maliIoctlMemCommit then ioctlDecodePreMemCommit ptr
  else if key = ioctlCase maliIoctlMemQuery then ioctlDecodePreMemQuery ptr
  else if key = ioctlCase maliIoctlMemFree then ioctlDecodePreMemFree ptr
  else if key = ioctlCase maliIoctlMemFlagsChange then ioctlDecodePreMemFlagsChange ptr
  else if key = ioctlCase maliIoctlMemAlias then ioctlDecodePreMemAlias ptr
  else if key = ioctlCase maliIoctlSync then ioctlDecodePreSync ptr
  else if key = ioctlCase maliIoctlSetFlags then ioctlDecodePreSetFlags ptr
  else if key = ioctlCase maliIoctlStreamCreate then ioctlDecodePreStreamCreate ptr
  else if key = ioctlCase maliIoctlJobSubmit then ioctlDecodePreJobSubmit ptr
  else pure ()

/-- `struct mali_ioctl_get_version`: `major` 8, `minor` 10. -/
def ioctlDecodePostGetVersion (ptr : U64) : Wrap Unit := do
  panwrapLog "major = %3d\n" [.int (← load16 (ptr + 8)).toNat]
  panwrapLog "minor = %3d\n" [.int (← load16 (ptr + 10)).toNat]

def ioctlDecodePostMemAlloc (ptr : U64) : Wrap Unit := do
  panwrapLog "gpu_va = 0x%lx\n" [.u64 (← load64 (ptr + 40))]
  panwrapLog "va_alignment = %d\n" [.int (← load16 (ptr + 48)).toNat]
  let gpuVa ← load64 (ptr + 40)
  let flags ← load64 (ptr + 32)
  -- recorded whatever `rc` says; the flags are cut down to an `int`
  panwrapTrackAllocation gpuVa (flags.setWidth 32)

def ioctlDecodePostMemImport (ptr : U64) : Wrap Unit := do
  -- the address is logged and not recorded
  panwrapLog "gpu_va = 0x%lx\n" [.u64 (← load64 (ptr + 32))]
  panwrapLog "va_pages = %ld\n" [.u64 (← load64 (ptr + 40))]
  logFlagsLine "flags = " memFlagInfo (← load64 (ptr + 24))

def ioctlDecodePostMemCommit (ptr : U64) : Wrap Unit := do
  panwrapLog "result_subcode = %d\n" [.u32 (← load32 (ptr + 24))]

def ioctlDecodePostMemQuery (ptr : U64) : Wrap Unit := do
  panwrapLog "value = 0x%lx\n" [.u64 (← load64 (ptr + 24))]

def ioctlDecodePostMemAlias (ptr : U64) : Wrap Unit := do
  panwrapLog "gpu_va = 0x%lx\n" [.u64 (← load64 (ptr + 40))]
  panwrapLog "va_pages = %ld\n" [.u64 (← load64 (ptr + 48))]

def ioctlDecodePostSync (ptr : U64) : Wrap Unit := do
  let type ← load8 (ptr + 32)
  if type ≠ maliSyncToCpu then pure ()
  else do
    let userAddr ← load64 (ptr + 16)
    let size ← load64 (ptr + 24)
    panwrapLog "Dumping memory from device:\n" []
    panwrapIndentIncr
    panwrapLogHexdumpTrimmed userAddr size
    panwrapIndentDecr

/-- `implementation`, which has no value for an `impl_tech` that is not in the switch. -/
def implementationName (implTech : U8) : Arg :=
  if implTech = 0 then .str "Unknown" else if implTech = 1 then .str "Silicon"
  else if implTech = 2 then .str "FPGA" else if implTech = 3 then .str "Software"
  else .stray

/-- `YES_NO` -/
def yesNo {n : ℕ} (b : BitVec n) : Arg := .str (if b ≠ 0 then "Yes" else "No")

/-- `core`, a `struct mali_gpu_core_props` at `p`. -/
def logCoreProps (p : U64) : Wrap Unit := do
  panwrapLog "core:\n" []
  panwrapIndentIncr
  panwrapLog "Product ID: %d\n" [.u32 (← load32 p)]
  panwrapLog "Version status: %d\n" [.int (← load16 (p + 4)).toNat]
  panwrapLog "Minor revision: %d\n" [.int (← load16 (p + 6)).toNat]
  panwrapLog "Major revision: %d\n" [.int (← load16 (p + 8)).toNat]
  panwrapLog "GPU speed (?): %dMHz\n" [.u32 (← load32 (p + 12))]
  panwrapLog "GPU frequencies (?): %dKHz-%dKHz\n"
    [.u32 (← load32 (p + 20)), .u32 (← load32 (p + 16))]
  panwrapLog "Shader program counter size: %.lf MB\n"
    [.pow2 (← load32 (p + 24)).toNat (1024 * 1024)]
  panwrapLog "Texture features:\n" []
  panwrapIndentIncr
  forInt 3 fun i => do
    panwrapLog "%010x\n" [.u32 (← load32 (p + 28 + 4 * BitVec.ofNat 64 i))]
  panwrapIndentDecr
  panwrapLog "Available memory: %ld bytes\n" [.u64 (← load64 (p + 40))]
  panwrapIndentDecr

/-- `l2`, a `struct mali_gpu_l2_cache_props` at `p`. -/
def logL2Props (p : U64) : Wrap Unit := do
  panwrapLog "L2 cache:\n" []
  panwrapIndentIncr
  panwrapLog "Line size: %.lf (bytes, words?)\n" [.pow2 (← load8 p).toNat 1]
  panwrapLog "Cache size: %.lf KB\n" [.pow2 (← load8 (p + 1)).toNat 1024]
  panwrapLog "L2 slice count: %d\n" [.int (← load8 (p + 2)).toNat]
  panwrapIndentDecr

/-- `tiler`, a `struct mali_gpu_tiler_props` at `p`. -/
def logTilerProps (p : U64) : Wrap Unit := do
  panwrapLog "Tiler:\n" []
  panwrapIndentIncr
  panwrapLog "Binary size: %d bytes\n" [.u32 (← load32 p)]
  panwrapLog "Max active levels: %d\n" [.u32 (← load32 (p + 4))]
  panwrapIndentDecr

/-- `thread`, a `struct mali_gpu_thread_props` at `p`, with `impl_tech` at 16. -/
def logThreadProps (p : U64) (implementation : Arg) : Wrap Unit := do
  panwrapLog "Threads:\n" []
  panwrapIndentIncr
  panwrapLog "Max threads: %d\n" [.u32 (← load32 p)]
  panwrapLog "Max threads per workgroup: %d\n" [.u32 (← load32 (p + 4))]
  panwrapLog "Max threads allowed for synchronizing on simple barrier: %d\n"
    [.u32 (← load32 (p + 8))]
  panwrapLog "Max registers available per-core: %d\n" [.int (← load16 (p + 12)).toNat]
  panwrapLog "Max tasks that can be sent to a core before blocking: %d\n"
    [.int (← load8 (p + 14)).toNat]
  panwrapLog "Max allowed thread group split value: %d\n" [.int (← load8 (p + 15)).toNat]
  panwrapLog "Implementation type: %d (%s)\n" [.int (← load8 (p + 16)).toNat, implementation]
  panwrapIndentDecr

/-- `raw`, a `struct mali_gpu_raw_props` at `p`. -/
def logRawProps (p : U64) : Wrap Unit := do
  panwrapLog "Raw props:\n" []
  panwrapIndentIncr
  panwrapLog "Shader present? %s\n" [yesNo (← load64 p)]
  panwrapLog "Tiler present? %s\n" [yesNo (← load64 (p + 8))]
  panwrapLog "L2 present? %s\n" [yesNo (← load64 (p + 16))]
  panwrapLog "Stack present? %s\n" [yesNo (← load64 (p + 24))]
  panwrapLog "L2 features: 0x%010x\n" [.u32 (← load32 (p + 32))]
  panwrapLog "Suspend size: %d\n" [.u32 (← load32 (p + 36))]
  panwrapLog "Memory features: 0x%010x\n" [.u32 (← load32 (p + 40))]
  panwrapLog "MMU features: 0x%010x\n" [.u32 (← load32 (p + 44))]
  panwrapLog "AS (what is this?) present? %s\n" [yesNo (← load32 (p + 48))]
  panwrapLog "JS (what is this?) present? %s\n" [yesNo (← load32 (p + 52))]
  panwrapLog "JS features:\n" []
  panwrapIndentIncr
  forInt 16 fun i => do
    panwrapLog "\t\t\t%010x\n" [.u32 (← load32 (p + 56 + 4 * BitVec.ofNat 64 i))]
  panwrapIndentDecr
  panwrapLog "Tiler features: %010x\n" [.u32 (← load32 (p + 120))]
  panwrapLog "GPU ID: 0x%x\n" [.u32 (← load32 (p + 136))]
  panwrapLog "Thread features: 0x%x\n" [.u32 (← load32 (p + 152))]
  let coherencyMode ← load32 (p + 156)
  panwrapLog "Coherency mode: 0x%x (%s)\n"
    [.u32 coherencyMode, .str (ioctlDecodeCoherencyMode coherencyMode)]
  panwrapIndentDecr

/-- `coherency_info`, a `struct mali_gpu_coherent_group_info` at `p`, with 16 bytes for each
element of `group` from 16 on. -/
def logCoherencyInfo (p : U64) : Wrap Unit := do
  panwrapLog "Coherency info:\n" []
  panwrapIndentIncr
  let numGroups ← load32 p
  panwrapLog "Number of groups: %d\n" [.u32 numGroups]
  panwrapLog "Number of core groups (coherent or not): %d\n" [.u32 (← load32 (p + 4))]
  panwrapLog "Features: 0x%x\n" [.u32 (← load32 (p + 8))]
  panwrapLog "Groups:\n" []
  panwrapIndentIncr
  forInt numGroups.toNat fun i => do
    let group := p + 16 + 16 * BitVec.ofNat 64 i
    panwrapLog "- Core mask: %010lx\n" [.u64 (← load64 group)]
    panwrapLog "  Number of cores: %d\n" [.int (← load16 (group + 8)).toNat]
  panwrapIndentDecr
  panwrapIndentDecr

/-- `struct mali_ioctl_gpu_props_reg_dump`: `core` 8, `l2` 56, `tiler` 72, `thread` 80,
`raw` 104, `coherency_info` 264. -/
def ioctlDecodePostGpuPropsRegDump (ptr : U64) : Wrap Unit := do
  let implTech ← load8 (ptr + 96)
  logCoreProps (ptr + 8)
  logL2Props (ptr + 56)
  logTilerProps (ptr + 72)
  logThreadProps (ptr + 80) (implementationName implTech)
  logRawProps (ptr + 104)
  logCoherencyInfo (ptr + 264)

def ioctlDecodePostStreamCreate (ptr : U64) : Wrap Unit := do
  panwrapLog "fd = %d\n" [.u32 (← load32 (ptr + 40))]

/-- `struct mali_ioctl_get_context_id`: `id` 8. -/
def ioctlDecodePostGetContextId (ptr : U64) : Wrap Unit := do
  panwrapLog "id = 0x%lx\n" [.u64 (← load64 (ptr + 8))]

def ioctlDecodePost (request ptr : U64) : Wrap Unit :=
  let key := ioctlCase request
  if key = ioctlCase maliIoctlGetVersion ∨ key = ioctlCase maliIoctlGetVersionNew then
    ioctlDecodePostGetVersion ptr
  else if key = ioctlCase maliIoctlMemAlloc then ioctlDecodePostMemAlloc ptr
  else if key = ioctlCase maliIoctlMemImport then ioctlDecodePostMemImport ptr
  else if key = ioctlCase maliIoctlMemCommit then ioctlDecodePostMemCommit ptr
  else if key = ioctlCase maliIoctlMemQuery then ioctlDecodePostMemQuery ptr
  else if key = ioctlCase maliIoctlMemAlias then ioctlDecodePostMemAlias ptr
  else if key = ioctlCase maliIoctlSync then ioctlDecodePostSync ptr
  else if key = ioctlCase maliIoctlGpuPropsRegDump then ioctlDecodePostGpuPropsRegDump ptr
  else if key = ioctlCase maliIoctlStreamCreate then ioctlDecodePostStreamCreate ptr
  else if key = ioctlCase maliIoctlGetContextId then ioctlDecodePostGetContextId ptr
  else pure ()

end Panloader
