import Panloader.PanwrapMmap

/-! `panwrap-decoder.c`: decoding of job chains out of GPU memory. Field offsets are those
of `mali-job.h` on a 64-bit build. -/
namespace Panloader

def decoderFile : String := "panwrap-decoder.c"

/-- `sizeof(struct panwrap_mapped_memory)` -/
def sizeofMappedMemory : U64 := 48

/-- `sizeof(struct mali_job_descriptor_header)` -/
def sizeofJobDescriptorHeader : U64 := 32

/-- `sizeof(struct mali_payload_set_value)` -/
def sizeofPayloadSetValue : U64 := 16

/-- `sizeof(struct mali_payload_vertex_tiler)` -/
def sizeofPayloadVertexTiler : U64 := 304

/-- `sizeof(struct mali_shader_meta)` -/
def sizeofShaderMeta : U64 := 24

/-- `sizeof(struct mali_vertex_tiler_attr)` -/
def sizeofVertexTilerAttr : U64 := 24

/-- Bytes of a shader blob and of an unknown payload that are dumped. -/
def shaderDumpSize : U64 := 832
def payloadDumpSize : U64 := 256

def jobTypeNull : U8 := 1
def jobTypeSetValue : U8 := 2
def jobTypeCacheFlush : U8 := 3
def jobTypeCompute : U8 := 4
def jobTypeVertex : U8 := 5
def jobTypeTiler : U8 := 7
def jobTypeFused : U8 := 8
def jobTypeFragment : U8 := 9
def jobNotStarted : U8 := 0

/-- `panwrap_job_type_name` -/
def panwrapJobTypeName (type : U8) : Wrap String :=
  if type = jobTypeNull then pure "NULL"
  else if type = jobTypeSetValue then pure "SET_VALUE"
  else if type = jobTypeCacheFlush then pure "CACHE_FLUSH"
  else if type = jobTypeCompute then pure "COMPUTE"
  else if type = jobTypeVertex then pure "VERTEX"
  else if type = jobTypeTiler then pure "TILER"
  else if type = jobTypeFused then pure "FUSED"
  else if type = jobTypeFragment then pure "FRAGMENT"
  else if type = jobNotStarted then pure "NOT_STARTED"
  else do
    panwrapLog "Warning! Unknown job type %x\n" [.int type.toNat]
    pure "!?!?!?"

/-- The components of one row: `buffer[i]` for each `i < component_count`. -/
def logAttributeRow (buffer componentCount : U64) : Wrap Unit := do
  panwrapLog "<" []
  forInt componentCount.toNat fun i => do
    let f ← load32 (buffer + 4 * BitVec.ofNat 64 i)
    panwrapLogCont "%f%s"
      [.float f, .str (if BitVec.ofNat 64 i < componentCount - 1 then ", " else "")]
  panwrapLogCont ">\n" []

/-- `struct mali_vertex_tiler_attr`: 2 bits of `flags` and 62 of `elements_upper` at 0,
`stride` at 8, `size` at 16. `elements_upper << 2` is computed in 64 bits, as clang has it (gcc
keeps the 62 bits of the field, and drops the top two). -/
def panwrapDecodeAttributes (mem : Option PanwrapMappedMemory) (addr : U64) : Wrap Unit := do
  let attr ← panwrapDerefGpuMem mem addr sizeofVertexTilerAttr 59 decoderFile
  let word ← load64 attr
  let elementsUpper := word >>> 2
  let size ← load64 (attr + 16)
  -- the size is taken from GPU memory as it is
  let buffer ← panwrapDerefGpuMem none (elementsUpper <<< 2) size 60 decoderFile
  let stride ← load64 (attr + 8)
  let vertexCount ← udiv size stride
  let componentCount ← udiv stride 4
  panwrapLog "0x%lx (%x):\n" [.u64 (elementsUpper <<< 2), .int (word &&& 3).toNat]
  panwrapIndentIncr
  -- every row prints the start of the buffer
  forInt vertexCount.toNat fun _ => logAttributeRow buffer componentCount
  panwrapIndentDecr

/-- The body of the attribute list's loop, for the entry at `p`. `attr_meta` is dereferenced
with the size of the mapping record, `sizeof(*attr_mem)`. -/
def decodeAttributeEntry (v : U64) (attrMem : Option PanwrapMappedMemory) (p : U64) :
    Wrap Unit := do
  let attrMeta ← panwrapDerefGpuMem attrMem p sizeofMappedMemory 128 decoderFile
  let word ← load64 attrMeta
  let index := word &&& 0xff
  panwrapLog "%x:\n" [.int index.toNat]
  panwrapIndentIncr
  panwrapLog "flags = 0x%014lx\n" [.u64 (word >>> 8)]
  let attributes ← load64 (v + 96)
  panwrapDecodeAttributes none (attributes + index)
  panwrapIndentDecr

/-- The attribute list's loop from the entry at `p`. The list's memory does not change while it
is walked, so a walk of `2^61` entries has come back to its first one and never ends. -/
def decodeAttributeList (v : U64) (attrMem : Option PanwrapMappedMemory) : ℕ → U64 → Wrap Unit
  | 0, _ => halt .endlessLoop
  | n+1, p => do
    let entry ← panwrapDerefGpuMem attrMem p 8 126 decoderFile
    let word ← load64 entry
    if word ≠ 0 then do
      decodeAttributeEntry v attrMem p
      decodeAttributeList v attrMem n (p + 8)
    else pure ()

/-- Number of distinct addresses `attribute_meta + 8k`. -/
def attributeListPeriod : ℕ := 2^61

def decodeShaderSection (metaPtr : U64) : Wrap Unit :=
  if metaPtr ≠ 0 then do
    let shaderMeta ← panwrapDerefGpuMem none metaPtr sizeofShaderMeta 112 decoderFile
    panwrapLog "Shader blob:\n" []
    panwrapIndentIncr
    let shader ← load64 shaderMeta
    -- one level up, but an error report starts again from 0
    let blob ← panwrapDerefGpuMem none shader shaderDumpSize 117 decoderFile
    panwrapLogHexdump blob shaderDumpSize
    panwrapIndentDecr
  else panwrapLog "<no shader>\n" []

def decodeAttributeSection (v : U64) (attrMem : Option PanwrapMappedMemory) (attributeMeta : U64) :
    Wrap Unit :=
  if attributeMeta ≠ 0 then do
    panwrapLog "Attribute list:\n" []
    panwrapIndentIncr
    decodeAttributeList v attrMem attributeListPeriod attributeMeta
    panwrapIndentDecr
  else panwrapLog "<no attributes>\n" []

def findContaining (addr : U64) : Wrap (Option PanwrapMappedMemory) := do
  let t ← tracker
  pure (panwrapFindMappedGpuMemContaining t.mmaps addr)

/-- `struct mali_payload_vertex_tiler`: `block1` at 0, 4 bits of `flags` and 60 of
`shader_upper` at 88, `attributes` at 96, `attribute_meta` at 104, `block2` at 160.
`h->job_type` is the only field of the header it reads. `shader_upper << 4` is computed in 64
bits, as clang has it (gcc keeps the 60 bits of the field). -/
def panwrapDecodeVertexOrTilerJob (jobType : U8) (mem : Option PanwrapMappedMemory)
    (payload : U64) : Wrap Unit := do
  let v ← panwrapDerefGpuMem mem payload sizeofPayloadVertexTiler 88 decoderFile
  let word ← load64 (v + 88)
  let metaPtr := (word >>> 4) <<< 4
  (if metaPtr &&& 0xFFF00000 = 0x5AB00000 then panwrapLog "Job sabotaged\n" [] else pure ())
  let attributeMeta ← load64 (v + 104)
  let attrMem ← findContaining attributeMeta
  panwrapLog "%s shader @ 0x%lx (flags 0x%x)\n"
    [.str (if jobType = jobTypeVertex then "Vertex" else "Fragment"), .u64 metaPtr,
      .int (word &&& 0xf).toNat]
  panwrapLog "Block #1:\n" []
  panwrapIndentIncr
  panwrapLogHexdump v 40
  panwrapIndentDecr
  decodeShaderSection metaPtr
  decodeAttributeSection v attrMem attributeMeta
  panwrapLog "Block #2:\n" []
  panwrapIndentIncr
  panwrapLogHexdump (v + 160) 144
  panwrapIndentDecr

/-- `case JOB_TYPE_SET_VALUE`: `out` at 0 and `unknown` at 8 of the payload. -/
def decodeSetValue (mem : Option PanwrapMappedMemory) (payload : U64) : Wrap Unit := do
  let s ← panwrapDerefGpuMem mem payload sizeofPayloadSetValue 186 decoderFile
  panwrapLog "set value -> %lX (%lX)\n" [.u64 (← load64 s), .u64 (← load64 (s + 8))]

/-- The `default` case of the job type switch. -/
def dumpPayload (mem : Option PanwrapMappedMemory) (payload : U64) : Wrap Unit := do
  panwrapLog "Dumping payload 0x%lx:\n" [.u64 payload]
  panwrapIndentIncr
  let p ← panwrapDerefGpuMem mem payload payloadDumpSize 201 decoderFile
  panwrapLogHexdump p payloadDumpSize
  panwrapIndentDecr

/-- The job type switch of `panwrap_trace_hw_chain`. -/
def decodePayload (jobType : U8) (mem : Option PanwrapMappedMemory) (payload : U64) : Wrap Unit :=
  if jobType = jobTypeSetValue then decodeSetValue mem payload
  else if jobType = jobTypeTiler ∨ jobType = jobTypeVertex then
    panwrapDecodeVertexOrTilerJob jobType mem payload
  else dumpPayload mem payload

/-- `struct mali_job_descriptor_header`: `exception_status` at 0, `first_incomplete_task` at 4,
`fault_pointer` at 8, 1 bit of `job_descriptor_size` and 7 of `job_type` at 16, `job_barrier` at
17, `job_index` at 18, the dependency indices at 20 and 22. -/
def panwrapTraceHwChain (jcGpuVa : U64) : Wrap Unit := do
  let mem ← findContaining jcGpuVa
  let h ← panwrapDerefGpuMem mem jcGpuVa sizeofJobDescriptorHeader 164 decoderFile
  -- not checked by itself: each payload is dereferenced where it is decoded
  let payload := jcGpuVa + sizeofJobDescriptorHeader
  let typeByte ← load8 (h + 16)
  let jobType := typeByte >>> 1
  let name ← panwrapJobTypeName jobType
  panwrapLog "%s job, %d-bit, status %X, incomplete %X\n"
    [.str name, .int (if typeByte &&& 1 ≠ 0 then 64 else 32), .u32 (← load32 h),
      .u32 (← load32 (h + 4))]
  panwrapLog "fault %lX, barrier %d, index %hX\n"
    [.u64 (← load64 (h + 8)), .int ((← load8 (h + 17)) &&& 1).toNat,
      .int (← load16 (h + 18)).toNat]
  panwrapLog "dependencies (%hX, %hX)\n"
    [.int (← load16 (h + 20)).toNat, .int (← load16 (h + 22)).toNat]
  panwrapIndentIncr
  decodePayload jobType mem payload
  panwrapIndentDecr

end Panloader
