import Panloader.PanwrapUtil

/-! `mali-ioctl.h`: ioctl requests, their encoding, the flag tables and the masks of a
job's core requirements. -/
namespace Panloader

/-- `_IOC` of `linux/ioctl.h`: direction, type, number and size. -/
def IOC (dir type nr size : U64) : U64 := dir <<< 30 ||| type <<< 8 ||| nr ||| size <<< 16

def iocType (request : U64) : U64 := (request >>> 8) &&& 0xff
def iocNr (request : U64) : U64 := request &&& 0xff
def iocSize (request : U64) : U64 := (request >>> 16) &&& 0x3fff

/-- `_IOWR` for an argument type of `size` bytes. -/
def iowr (type nr size : U64) : U64 := IOC 3 type nr size

def maliIoctlTypeBase : U64 := 0x80
def maliIoctlTypeCount : U64 := 3

/-- `sizeof(__ioctl_placeholder)` -/
def ioctlPlaceholder : U64 := 8

def maliIoctlGetVersion : U64 := iowr 0x80 0 16
def maliIoctlMemAlloc : U64 := iowr 0x82 0 56
def maliIoctlMemImport : U64 := iowr 0x82 1 48
def maliIoctlMemCommit : U64 := iowr 0x82 2 32
def maliIoctlMemQuery : U64 := iowr 0x82 3 32
def maliIoctlMemFree : U64 := iowr 0x82 4 16
def maliIoctlMemFlagsChange : U64 := iowr 0x82 5 32
def maliIoctlMemAlias : U64 := iowr 0x82 6 56
def maliIoctlSync : U64 := iowr 0x82 8 40
def maliIoctlPostTerm : U64 := iowr 0x82 9 ioctlPlaceholder
def maliIoctlHwcntSetup : U64 := iowr 0x82 10 ioctlPlaceholder
def maliIoctlHwcntDump : U64 := iowr 0x82 11 ioctlPlaceholder
def maliIoctlHwcntClear : U64 := iowr 0x82 12 ioctlPlaceholder
def maliIoctlGpuPropsRegDump : U64 := iowr 0x82 14 536
def maliIoctlFindCpuOffset : U64 := iowr 0x82 15 ioctlPlaceholder
def maliIoctlGetVersionNew : U64 := iowr 0x82 16 16
def maliIoctlSetFlags : U64 := iowr 0x82 18 16
def maliIoctlSetTestData : U64 := iowr 0x82 19 ioctlPlaceholder
def maliIoctlInjectError : U64 := iowr 0x82 20 ioctlPlaceholder
def maliIoctlModelControl : U64 := iowr 0x82 21 ioctlPlaceholder
def maliIoctlKeepGpuPowered : U64 := iowr 0x82 22 ioctlPlaceholder
def maliIoctlFenceValidate : U64 := iowr 0x82 23 ioctlPlaceholder
def maliIoctlStreamCreate : U64 := iowr 0x82 24 48
def maliIoctlGetProfilingControls : U64 := iowr 0x82 25 ioctlPlaceholder
def maliIoctlSetProfilingControls : U64 := iowr 0x82 26 ioctlPlaceholder
def maliIoctlDebugfsMemProfileAdd : U64 := iowr 0x82 27 ioctlPlaceholder
def maliIoctlJobSubmit : U64 := iowr 0x82 28 24
def maliIoctlDisjointQuery : U64 := iowr 0x82 29 ioctlPlaceholder
def maliIoctlGetContextId : U64 := iowr 0x82 31 16
def maliIoctlTlstreamAcquireV10_4 : U64 := iowr 0x82 32 ioctlPlaceholder
def maliIoctlTlstreamTest : U64 := iowr 0x82 33 ioctlPlaceholder
def maliIoctlTlstreamStats : U64 := iowr 0x82 34 ioctlPlaceholder
def maliIoctlTlstreamFlush : U64 := iowr 0x82 35 ioctlPlaceholder
def maliIoctlHwcntReaderSetup : U64 := iowr 0x82 36 ioctlPlaceholder
def maliIoctlSetPrfcntValues : U64 := iowr 0x82 37 ioctlPlaceholder
def maliIoctlSoftEventUpdate : U64 := iowr 0x82 38 ioctlPlaceholder
def maliIoctlMemJitInit : U64 := iowr 0x82 39 ioctlPlaceholder
def maliIoctlTlstreamAcquire : U64 := iowr 0x82 40 ioctlPlaceholder

/-- One row of `mali_info.info`, the requests of one type. -/
structure DeviceInfoRow where
  type : U64
  info : List (U64 × String)

/-- `mali_info` -/
def maliInfo : List DeviceInfoRow := [
  ⟨0x80, [(maliIoctlGetVersion, "GET_VERSION")]⟩,
  ⟨0x82, [
    (maliIoctlMemAlloc, "MEM_ALLOC"),
    (maliIoctlMemImport, "MEM_IMPORT"),
    (maliIoctlMemCommit, "MEM_COMMIT"),
    (maliIoctlMemQuery, "MEM_QUERY"),
    (maliIoctlMemFree, "MEM_FREE"),
    (maliIoctlMemFlagsChange, "MEM_FLAGS_CHANGE"),
    (maliIoctlMemAlias, "MEM_ALIAS"),
    (maliIoctlSync, "SYNC"),
    (maliIoctlPostTerm, "POST_TERM"),
    (maliIoctlHwcntSetup, "HWCNT_SETUP"),
    (maliIoctlHwcntDump, "HWCNT_DUMP"),
    (maliIoctlHwcntClear, "HWCNT_CLEAR"),
    (maliIoctlGpuPropsRegDump, "GPU_PROPS_REG_DUMP"),
    (maliIoctlFindCpuOffset, "FIND_CPU_OFFSET"),
    (maliIoctlGetVersionNew, "GET_VERSION_NEW"),
    (maliIoctlSetFlags, "SET_FLAGS"),
    (maliIoctlSetTestData, "SET_TEST_DATA"),
    (maliIoctlInjectError, "INJECT_ERROR"),
    (maliIoctlModelControl, "MODEL_CONTROL"),
    (maliIoctlKeepGpuPowered, "KEEP_GPU_POWERED"),
    (maliIoctlFenceValidate, "FENCE_VALIDATE"),
    (maliIoctlStreamCreate, "STREAM_CREATE"),
    (maliIoctlGetProfilingControls, "GET_PROFILING_CONTROLS"),
    (maliIoctlSetProfilingControls, "SET_PROFILING_CONTROLS"),
    (maliIoctlDebugfsMemProfileAdd, "DEBUGFS_MEM_PROFILE_ADD"),
    (maliIoctlJobSubmit, "JOB_SUBMIT"),
    (maliIoctlDisjointQuery, "DISJOINT_QUERY"),
    (maliIoctlGetContextId, "GET_CONTEXT_ID"),
    (maliIoctlTlstreamAcquireV10_4, "TLSTREAM_ACQUIRE_V10_4"),
    (maliIoctlTlstreamTest, "TLSTREAM_TEST"),
    (maliIoctlTlstreamStats, "TLSTREAM_STATS"),
    (maliIoctlTlstreamFlush, "TLSTREAM_FLUSH"),
    (maliIoctlHwcntReaderSetup, "HWCNT_READER_SETUP"),
    (maliIoctlSetPrfcntValues, "SET_PRFCNT_VALUES"),
    (maliIoctlSoftEventUpdate, "SOFT_EVENT_UPDATE"),
    (maliIoctlMemJitInit, "MEM_JIT_INIT"),
    (maliIoctlTlstreamAcquire, "TLSTREAM_ACQUIRE")]⟩]

/-- Number of entries of a row of `mali_info.info`: `_IOC_NR(0xffffffff)`. -/
def ioctlInfoRowLength : U64 := iocNr 0xffffffff

/-- `ioctl_get_info(request)->name`: `none` where the index is outside the array, `some none`
where the entry has a `NULL` name. -/
def ioctlGetInfo (request : U64) : Option (Option String) :=
  if iocType request - maliIoctlTypeBase < maliIoctlTypeCount ∧ iocNr request < ioctlInfoRowLength
  then some do
    let row ← maliInfo.find? (fun row => row.type == iocType request)
    let entry ← row.info.find? (fun entry => iocNr entry.1 == iocNr request)
    pure entry.2
  else none

/-- `name ?: "???"` -/
def ioctlName (request : U64) : Arg :=
  match ioctlGetInfo request with
  | some name => .str (name.getD "???")
  | none => .stray

def memFlagInfo : List PanwrapFlagInfo := [
  ⟨1 <<< 0, "PROT_CPU_RD"⟩,
  ⟨1 <<< 1, "PROT_CPU_WR"⟩,
  ⟨1 <<< 2, "PROT_GPU_RD"⟩,
  ⟨1 <<< 3, "PROT_GPU_WR"⟩,
  ⟨1 <<< 4, "PROT_GPU_EX"⟩,
  ⟨1 <<< 9, "GROW_ON_GPF"⟩,
  ⟨1 <<< 10, "COHERENT_SYSTEM"⟩,
  ⟨1 <<< 11, "COHERENT_LOCAL"⟩,
  ⟨1 <<< 12, "CACHED_CPU"⟩,
  ⟨1 <<< 13, "SAME_VA"⟩,
  ⟨1 <<< 14, "NEED_MMAP"⟩,
  ⟨1 <<< 15, "COHERENT_SYSTEM_REQUIRED"⟩,
  ⟨1 <<< 16, "SECURE"⟩,
  ⟨1 <<< 17, "DONT_NEED"⟩,
  ⟨1 <<< 18, "IMPORT_SHARED"⟩]

def maliJdReqDep : U32 := 0
def maliJdReqFs : U32 := 1 <<< 0
def maliJdReqCs : U32 := 1 <<< 1
def maliJdReqT : U32 := 1 <<< 2
def maliJdReqCf : U32 := 1 <<< 3
def maliJdReqV : U32 := 1 <<< 4
def maliJdReqEventCoalesce : U32 := 1 <<< 5
def maliJdReqCoherentGroup : U32 := 1 <<< 6
def maliJdReqPermon : U32 := 1 <<< 7
def maliJdReqExternalResources : U32 := 1 <<< 8
def maliJdReqSoftJob : U32 := 1 <<< 9
def maliJdReqOnlyCompute : U32 := 1 <<< 10
def maliJdReqSpecificCoherentGroup : U32 := 1 <<< 11
def maliJdReqEventOnlyOnFailure : U32 := 1 <<< 12
def maliJdReqFsAfbc : U32 := 1 <<< 13
def maliJdReqEventNever : U32 := 1 <<< 14
def maliJdReqSkipCacheStart : U32 := 1 <<< 15
def maliJdReqSkipCacheEnd : U32 := 1 <<< 16

/-- `MALI_JD_REQ_ATOM_TYPE` -/
def maliJdReqAtomType : U32 :=
  maliJdReqFs ||| maliJdReqCs ||| maliJdReqT ||| maliJdReqCf ||| maliJdReqV |||
    maliJdReqSoftJob ||| maliJdReqOnlyCompute

/-- `MALI_JD_REQ_SOFT_JOB_TYPE` -/
def maliJdReqSoftJobType : U32 := maliJdReqSoftJob ||| 0x1f

/-- `MALI_JD_REQ_SOFT_JOB_OR_DEP` -/
def maliJdReqSoftJobOrDep (coreReq : U32) : Bool :=
  coreReq &&& maliJdReqSoftJob ≠ 0 || coreReq &&& maliJdReqAtomType = maliJdReqDep

def jdReqFlagInfo : List PanwrapFlagInfo := [
  ⟨maliJdReqFs.setWidth 64, "FS"⟩,
  ⟨maliJdReqCs.setWidth 64, "CS"⟩,
  ⟨maliJdReqT.setWidth 64, "T"⟩,
  ⟨maliJdReqCf.setWidth 64, "CF"⟩,
  ⟨maliJdReqV.setWidth 64, "V"⟩,
  ⟨maliJdReqFsAfbc.setWidth 64, "FS_AFBC"⟩,
  ⟨maliJdReqEventCoalesce.setWidth 64, "EVENT_COALESCE"⟩,
  ⟨maliJdReqCoherentGroup.setWidth 64, "COHERENT_GROUP"⟩,
  ⟨maliJdReqPermon.setWidth 64, "PERMON"⟩,
  ⟨maliJdReqExternalResources.setWidth 64, "EXTERNAL_RESOURCES"⟩,
  ⟨maliJdReqOnlyCompute.setWidth 64, "ONLY_COMPUTE"⟩,
  ⟨maliJdReqSpecificCoherentGroup.setWidth 64, "SPECIFIC_COHERENT_GROUP"⟩,
  ⟨maliJdReqEventOnlyOnFailure.setWidth 64, "EVENT_ONLY_ON_FAILURE"⟩,
  ⟨maliJdReqEventNever.setWidth 64, "EVENT_NEVER"⟩,
  ⟨maliJdReqSkipCacheStart.setWidth 64, "SKIP_CACHE_START"⟩,
  ⟨maliJdReqSkipCacheEnd.setWidth 64, "SKIP_CACHE_END"⟩]

def externalResourcesAccessFlagInfo : List PanwrapFlagInfo := [
  ⟨0, "MALI_EXT_RES_ACCESS_SHARED"⟩,
  ⟨1, "MALI_EXT_RES_ACCESS_EXCLUSIVE"⟩]

def maliJdDepTypeFlagInfo : List PanwrapFlagInfo := [
  ⟨1 <<< 0, "MALI_JD_DEP_TYPE_DATA"⟩,
  ⟨1 <<< 1, "MALI_JD_DEP_TYPE_ORDER"⟩]

/-- The soft job types, `MALI_JD_REQ_SOFT_*`, with the names `SOFT_FLAG` prints. -/
def softFlags : List (U32 × String) := [
  (maliJdReqSoftJob ||| 0x1, "SOFT_DUMP_CPU_GPU_TIME"),
  (maliJdReqSoftJob ||| 0x2, "SOFT_FENCE_TRIGGER"),
  (maliJdReqSoftJob ||| 0x3, "SOFT_FENCE_WAIT"),
  (maliJdReqSoftJob ||| 0x4, "SOFT_REPLAY"),
  (maliJdReqSoftJob ||| 0x5, "SOFT_EVENT_WAIT"),
  (maliJdReqSoftJob ||| 0x6, "SOFT_EVENT_SET"),
  (maliJdReqSoftJob ||| 0x7, "SOFT_EVENT_RESET"),
  (maliJdReqSoftJob ||| 0x8, "SOFT_DEBUG_COPY"),
  (maliJdReqSoftJob ||| 0x9, "SOFT_JIT_ALLOC"),
  (maliJdReqSoftJob ||| 0xa, "SOFT_JIT_FREE"),
  (maliJdReqSoftJob ||| 0xb, "SOFT_EXT_RES_MAP"),
  (maliJdReqSoftJob ||| 0xc, "SOFT_EXT_RES_UNMAP")]

end Panloader
