import Panloader.LogOutline

/-! Every ioctl decoder prints its lines nested below one another. -/
namespace Panloader
open Effects

set_option synthInstance.maxSize 4000

section Decoders

variable {mmaps : List PanwrapMappedMemory} {c : ℕ} {b : Bool}

instance nested_logFlagNames (info : List PanwrapFlagInfo) (flags : U64) (found : Bool) :
    Nested mmaps c false c false (logFlagNames info flags found) := by
  induction info generalizing flags found with
  | nil => exact nested_pure _
  | cons i rest ih =>
    unfold logFlagNames
    infer_instance

instance nested_panwrapLogDecodedFlags (info : List PanwrapFlagInfo) (flags : U64) :
    Nested mmaps c b c false (panwrapLogDecodedFlags info flags) := by
  apply Nested.of_false
  unfold panwrapLogDecodedFlags
  infer_instance

instance nested_hexdumpCell (data : U64) (alpha : Gutter) (i : ℕ) :
    Nested mmaps c b c false (hexdumpCell data alpha i) := by
  unfold hexdumpCell hexdumpWrapped hexdumpByte
  infer_instance

instance nested_hexdumpCells (data : U64) (i n : ℕ) (alpha : Gutter) :
    Nested mmaps c false c false (hexdumpCells data i n alpha) := by
  induction n generalizing i alpha with
  | zero => exact nested_pure _
  | succ n ih =>
    unfold hexdumpCells
    infer_instance

instance nested_hexdumpPad (i n : ℕ) (alpha : Gutter) :
    Nested mmaps c false c false (hexdumpPad i n alpha) := by
  induction n generalizing i alpha with
  | zero => exact nested_pure _
  | succ n ih =>
    unfold hexdumpPad
    infer_instance

instance nested_panwrapLogHexdump (data size : U64) :
    Nested mmaps c b c false (panwrapLogHexdump data size) := by
  apply Nested.of_false
  unfold panwrapLogHexdump
  infer_instance

instance nested_trimScan (d : U64) (room : ℕ) (trimOffset : ℤ) :
    Nested mmaps c b c false (trimScan d room trimOffset) := by
  apply Nested.of_false
  induction room generalizing trimOffset with
  | zero =>
    unfold trimScan
    dsimp only
    infer_instance
  | succ room ih =>
    unfold trimScan
    dsimp only
    infer_instance

instance nested_panwrapLogHexdumpTrimmed (data size : U64) :
    Nested mmaps c b c false (panwrapLogHexdumpTrimmed data size) := by
  unfold panwrapLogHexdumpTrimmed
  infer_instance

instance nested_panwrapJobTypeName (type : U8) :
    Nested mmaps c b c false (panwrapJobTypeName type) := by
  unfold panwrapJobTypeName
  infer_instance

variable (mem : Option PanwrapMappedMemory) [Tracked mmaps mem]

instance nested_panwrapDecodeAttributes (addr : U64) :
    Nested mmaps c b c true (panwrapDecodeAttributes mem addr) := by
  unfold panwrapDecodeAttributes logAttributeRow
  dsimp only
  infer_instance

instance nested_decodeAttributeList (v : U64) (n : ℕ) (p : U64) :
    Nested mmaps c b c false (decodeAttributeList v mem n p) := by
  induction n generalizing p b with
  | zero => exact nested_endlessLoop.drop
  | succ n ih =>
    unfold decodeAttributeList decodeAttributeEntry
    dsimp only
    infer_instance

instance nested_decodeShaderSection (metaPtr : U64) :
    Nested mmaps c b c false (decodeShaderSection metaPtr) := by
  unfold decodeShaderSection
  infer_instance

instance nested_decodeAttributeSection (v attributeMeta : U64) :
    Nested mmaps c b c false (decodeAttributeSection v mem attributeMeta) := by
  unfold decodeAttributeSection
  infer_instance

instance nested_panwrapDecodeVertexOrTilerJob (jobType : U8) (payload : U64) :
    Nested mmaps c b c true (panwrapDecodeVertexOrTilerJob jobType mem payload) := by
  unfold panwrapDecodeVertexOrTilerJob
  dsimp only
  -- up to the mapping the attribute list is read through
  iterate 4 apply Nested.seq; intro _
  apply Nested.found
  intro attrMem _
  infer_instance

instance nested_decodePayload (jobType : U8) (payload : U64) :
    Nested mmaps c b c false (decodePayload jobType mem payload) := by
  unfold decodePayload decodeSetValue dumpPayload
  infer_instance

end Decoders

section Ioctls

variable {mmaps : List PanwrapMappedMemory} {c : ℕ} {b : Bool}

instance nested_panwrapTraceHwChain (jcGpuVa : U64) :
    Nested mmaps c b c true (panwrapTraceHwChain jcGpuVa) := by
  unfold panwrapTraceHwChain
  dsimp only
  apply Nested.found
  intro mem _
  infer_instance

instance nested_logFlagsLine (text : String) (info : List PanwrapFlagInfo) (flags : U64) :
    Nested mmaps c b c false (logFlagsLine text info flags) := by
  unfold logFlagsLine
  infer_instance

instance nested_ioctlLogDecodedJdCoreReq (req : U32) :
    Nested mmaps c b c false (ioctlLogDecodedJdCoreReq req) := by
  have hsoft (o : Option (U32 × String)) : Nested mmaps c b c b (logSoftFlag o) := by
    cases o <;> unfold logSoftFlag <;> infer_instance
  unfold ioctlLogDecodedJdCoreReq
  infer_instance

instance nested_logExternalResources (extResList : U64) (nrExtRes : U16) :
    Nested mmaps c b c false (logExternalResources extResList nrExtRes) := by
  unfold logExternalResources
  infer_instance

instance nested_logPreDependencies (a : U64) (i : ℕ) :
    Nested mmaps c b c true (logPreDependencies a i) := by
  unfold logPreDependencies
  dsimp only
  infer_instance

instance nested_decodeAtom (a : U64) (i : ℕ) : Nested mmaps c b c true (decodeAtom a i) := by
  unfold decodeAtom
  infer_instance

instance nested_ioctlDecodePreJobSubmit (ptr : U64) :
    Nested mmaps c b c false (ioctlDecodePreJobSubmit ptr) := by
  unfold ioctlDecodePreJobSubmit
  infer_instance

instance nested_ioctlDecodePreSync (ptr : U64) :
    Nested mmaps c b c false (ioctlDecodePreSync ptr) := by
  have hrange (handle userAddr size : U64) (m : Option PanwrapMappedMemory) :
      Nested mmaps c b c true (logSyncRange handle userAddr size m) := by
    cases m <;> unfold logSyncRange <;> infer_instance
  unfold ioctlDecodePreSync
  infer_instance

instance nested_ioctlDecodePre (request ptr : U64) :
    Nested mmaps c b c false (ioctlDecodePre request ptr) := by
  unfold ioctlDecodePre ioctlDecodePreMemAlloc ioctlDecodePreMemImport ioctlDecodePreMemCommit
    ioctlDecodePreMemQuery ioctlDecodePreMemFree ioctlDecodePreMemFlagsChange
    ioctlDecodePreMemAlias ioctlDecodePreSetFlags ioctlDecodePreStreamCreate
  dsimp only
  infer_instance

/-- A new allocation changes no mapping. -/
instance nested_panwrapTrackAllocation (addr : U64) (flags : U32) :
    Nested mmaps c b c true (panwrapTrackAllocation addr flags) := by
  have hrecord : Nested mmaps c true c true (do
      let t ← tracker
      setTracker (t.addAllocation ⟨addr, flags⟩) : Wrap Unit) :=
    .of_quiet fun w => ⟨(), _, rfl, rfl, rfl, rfl⟩
  exact Nested.seq fun _ => hrecord

instance nested_logCoreProps (p : U64) : Nested mmaps c b c true (logCoreProps p) := by
  unfold logCoreProps
  infer_instance

instance nested_logL2Props (p : U64) : Nested mmaps c b c true (logL2Props p) := by
  unfold logL2Props
  infer_instance

instance nested_logTilerProps (p : U64) : Nested mmaps c b c true (logTilerProps p) := by
  unfold logTilerProps
  infer_instance

instance nested_logThreadProps (p : U64) (implementation : Arg) :
    Nested mmaps c b c true (logThreadProps p implementation) := by
  unfold logThreadProps
  infer_instance

instance nested_logRawProps (p : U64) : Nested mmaps c b c true (logRawProps p) := by
  unfold logRawProps
  infer_instance

instance nested_logCoherencyInfo (p : U64) : Nested mmaps c b c true (logCoherencyInfo p) := by
  unfold logCoherencyInfo
  dsimp only
  infer_instance

instance nested_ioctlDecodePostGpuPropsRegDump (ptr : U64) :
    Nested mmaps c b c true (ioctlDecodePostGpuPropsRegDump ptr) := by
  unfold ioctlDecodePostGpuPropsRegDump
  infer_instance

instance nested_ioctlDecodePost (request ptr : U64) :
    Nested mmaps c b c false (ioctlDecodePost request ptr) := by
  unfold ioctlDecodePost ioctlDecodePostGetVersion ioctlDecodePostMemAlloc
    ioctlDecodePostMemImport ioctlDecodePostMemCommit ioctlDecodePostMemQuery
    ioctlDecodePostMemAlias ioctlDecodePostSync ioctlDecodePostStreamCreate
    ioctlDecodePostGetContextId
  dsimp only
  infer_instance

end Ioctls
end Panloader
