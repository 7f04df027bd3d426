import Panloader.DecoderOutcome
import Panloader.IoctlDecode
import Panloader.PeriodicWalks

/-! The exact conditions under which the decoders of job chains and job submissions return:
every pointer they follow is accepted, no divisor is zero, no `int` counter overflows. -/
namespace Panloader
open Effects Walks

set_option synthInstance.maxSize 4000

section Conditions

variable (t : Tracker) (mem : Memory)

/-- The attribute record at `addr` and the buffer it names are accepted, its stride is not 0,
and its rows and components can be counted. -/
def AttributesFit (m : Option PanwrapMappedMemory) (addr : U64) : Prop :=
  ∃ attr, derefGpuMem t.mmaps m addr sizeofVertexTilerAttr = some attr ∧
    ∃ buffer, derefGpuMem t.mmaps none ((mem.read attr 8 >>> 2) <<< 2) (mem.read (attr + 16) 8) =
        some buffer ∧
      mem.read (attr + 8) 8 ≠ 0 ∧
      (mem.read (attr + 16) 8 / mem.read (attr + 8) 8).toNat ≤ intMax ∧
      ∀ row < (mem.read (attr + 16) 8 / mem.read (attr + 8) 8).toNat,
        (mem.read (attr + 8) 8 / 4).toNat ≤ intMax

/-- The entry at `p` of the attribute list of the payload `v`: it is accepted with the size of
a mapping record, and so is the attribute it names. -/
def EntryFits (v : U64) (attrMem : Option PanwrapMappedMemory) (p : U64) : Prop :=
  ∃ attrMeta, derefGpuMem t.mmaps attrMem p sizeofMappedMemory = some attrMeta ∧
    AttributesFit t mem none (mem.read (v + 96) 8 + (mem.read attrMeta 8 &&& 0xff))

/-- The attribute list from `p` on ends with a zero entry, and all entries before it fit. -/
inductive ListFits (v : U64) (attrMem : Option PanwrapMappedMemory) : U64 → Prop
  | stop {p entry : U64} : derefGpuMem t.mmaps attrMem p 8 = some entry →
      mem.read entry 8 = 0 → ListFits v attrMem p
  | more {p entry : U64} : derefGpuMem t.mmaps attrMem p 8 = some entry →
      mem.read entry 8 ≠ 0 → EntryFits t mem v attrMem p → ListFits v attrMem (p + 8) →
      ListFits v attrMem p

/-- The shader record at `metaPtr`, if there is one, and the blob it names are accepted. -/
def ShaderFits (metaPtr : U64) : Prop :=
  metaPtr ≠ 0 → ∃ shaderMeta, derefGpuMem t.mmaps none metaPtr sizeofShaderMeta = some shaderMeta ∧
    ∃ blob, derefGpuMem t.mmaps none (mem.read shaderMeta 8) shaderDumpSize = some blob

def AttributeSectionFits (v attributeMeta : U64) : Prop :=
  attributeMeta ≠ 0 → ListFits t mem v (panwrapFindMappedGpuMemContaining t.mmaps attributeMeta)
    attributeMeta

def VertexTilerFits (m : Option PanwrapMappedMemory) (payload : U64) : Prop :=
  ∃ v, derefGpuMem t.mmaps m payload sizeofPayloadVertexTiler = some v ∧
    ShaderFits t mem ((mem.read (v + 88) 8 >>> 4) <<< 4) ∧
    AttributeSectionFits t mem v (mem.read (v + 104) 8)

def PayloadFits (jobType : U8) (m : Option PanwrapMappedMemory) (payload : U64) : Prop :=
  if jobType = jobTypeSetValue then
    ∃ s, derefGpuMem t.mmaps m payload sizeofPayloadSetValue = some s
  else if jobType = jobTypeTiler ∨ jobType = jobTypeVertex then VertexTilerFits t mem m payload
  else ∃ p, derefGpuMem t.mmaps m payload payloadDumpSize = some p

/-- The job header at `jc` is accepted, and its payload goes through the mapping that was
found for the header. -/
def ChainFits (jc : U64) : Prop :=
  ∃ h, derefGpuMem t.mmaps (panwrapFindMappedGpuMemContaining t.mmaps jc) jc
      sizeofJobDescriptorHeader = some h ∧
    PayloadFits t mem (mem.read (h + 16) 1 >>> 1) (panwrapFindMappedGpuMemContaining t.mmaps jc)
      (jc + sizeofJobDescriptorHeader)

end Conditions

section Decoders

variable {t : Tracker} {mem : Memory}

theorem logAttributeRow_decides (buffer componentCount : U64) :
    Decides (Sees t mem) (logAttributeRow buffer componentCount)
      (componentCount.toNat ≤ intMax) := by
  unfold logAttributeRow
  have hrow : Decides (Sees t mem) (forInt componentCount.toNat fun i => do
      let f ← load32 (buffer + 4 * BitVec.ofNat 64 i)
      panwrapLogCont "%f%s"
        [.float f, .str (if BitVec.ofNat 64 i < componentCount - 1 then ", " else "")])
      (componentCount.toNat ≤ intMax ∧ ∀ i < componentCount.toNat, True) :=
    Decides.forInt (fun _ => Decides.of_total) _
  refine Decides.seq fun _ => ((hrow.bind fun _ => Decides.of_total).congr ?_)
  exact ⟨fun h => h.1.1, fun h => ⟨⟨h, fun _ _ => trivial⟩, trivial⟩⟩

theorem panwrapDecodeAttributes_decides (m : Option PanwrapMappedMemory) (addr : U64) :
    Decides (Sees t mem) (panwrapDecodeAttributes m addr) (AttributesFit t mem m addr) := by
  unfold panwrapDecodeAttributes
  refine Decides.deref fun attr => Decides.load64 (Decides.load64 ?_)
  refine Decides.deref fun buffer => Decides.load64 (Decides.udiv ?_)
  have hfour : (4 : U64) ≠ 0 := by decide
  refine (Decides.udiv ?_).congr (and_iff_right hfour)
  refine Decides.seq fun _ => Decides.seq fun _ => ?_
  refine ((Decides.forInt (fun _ => logAttributeRow_decides buffer _) _).bind
    fun _ => Decides.of_total).congr (and_iff_left trivial)

theorem decodeAttributeEntry_decides (v : U64) (attrMem : Option PanwrapMappedMemory) (p : U64) :
    Decides (Sees t mem) (decodeAttributeEntry v attrMem p) (EntryFits t mem v attrMem p) := by
  unfold decodeAttributeEntry
  refine Decides.deref fun attrMeta => Decides.load64 ?_
  refine Decides.seq fun _ => Decides.seq fun _ => Decides.seq fun _ => Decides.load64 ?_
  exact ((panwrapDecodeAttributes_decides none _).bind fun _ => Decides.of_total).congr
    (and_iff_left trivial)

/-- The list from `p` on ends within `n` entries. -/
def ListFitsWithin (t : Tracker) (mem : Memory) (v : U64) (attrMem : Option PanwrapMappedMemory) :
    ℕ → U64 → Prop
  | 0, _ => False
  | n+1, p => ∃ entry, derefGpuMem t.mmaps attrMem p 8 = some entry ∧
      if mem.read entry 8 ≠ 0 then
        EntryFits t mem v attrMem p ∧ ListFitsWithin t mem v attrMem n (p + 8)
      else True

theorem decodeAttributeList_decides (v : U64) (attrMem : Option PanwrapMappedMemory) (n : ℕ)
    (p : U64) :
    Decides (Sees t mem) (decodeAttributeList v attrMem n p)
      (ListFitsWithin t mem v attrMem n p) := by
  induction n generalizing p with
  | zero => exact Decides.halt _
  | succ n ih =>
    refine Decides.deref fun entry => Decides.load64 (Decides.ite ?_ Decides.of_total)
    exact (decodeAttributeEntry_decides v attrMem p).bind fun _ => ih (p + 8)

section Lists

variable {v : U64} {attrMem : Option PanwrapMappedMemory}

/-- An entry that is accepted and, if it is not the last one, fits. -/
def EntryReadable (t : Tracker) (mem : Memory) (v : U64) (attrMem : Option PanwrapMappedMemory)
    (p : U64) : Prop :=
  ∃ entry, derefGpuMem t.mmaps attrMem p 8 = some entry ∧
    (mem.read entry 8 ≠ 0 → EntryFits t mem v attrMem p)

/-- An entry that is not the last one. -/
def EntryFollowed (t : Tracker) (mem : Memory) (attrMem : Option PanwrapMappedMemory)
    (p : U64) : Prop :=
  ∃ entry, derefGpuMem t.mmaps attrMem p 8 = some entry ∧ mem.read entry 8 ≠ 0

theorem listFitsWithin_iff (n : ℕ) (p : U64) :
    ListFitsWithin t mem v attrMem n p ↔
      Within (EntryReadable t mem v attrMem) (EntryFollowed t mem attrMem) (· + 8) n p := by
  induction n generalizing p with
  | zero => exact Iff.rfl
  | succ n ih =>
    constructor
    · rintro ⟨entry, hentry, hrest⟩
      refine ⟨⟨entry, hentry, fun hne => ?_⟩, ?_⟩
      · rw [if_pos hne] at hrest
        exact hrest.1
      · rintro ⟨_, hentry', hne⟩
        obtain rfl := Option.some.inj (hentry.symm.trans hentry')
        rw [if_pos hne] at hrest
        exact (ih _).mp hrest.2
    · rintro ⟨⟨entry, hentry, hfits⟩, hrest⟩
      refine ⟨entry, hentry, ?_⟩
      by_cases hne : mem.read entry 8 ≠ 0
      · rw [if_pos hne]
        exact ⟨hfits hne, (ih _).mpr (hrest ⟨entry, hentry, hne⟩)⟩
      · rw [if_neg hne]
        trivial

theorem listFits_iff (p : U64) :
    ListFits t mem v attrMem p ↔
      Ends (EntryReadable t mem v attrMem) (EntryFollowed t mem attrMem) (· + 8) p := by
  constructor
  · intro h
    induction h with
    | @stop p entry hentry hz =>
      refine .intro ⟨entry, hentry, fun hne => absurd hz hne⟩ ?_
      rintro ⟨_, hentry', hne⟩
      obtain rfl := Option.some.inj (hentry.symm.trans hentry')
      exact absurd hz hne
    | @more p entry hentry hz hfits hrest ih =>
      exact .intro ⟨entry, hentry, fun _ => hfits⟩ fun _ => ih
  · intro h
    induction h with
    | @intro p hreadable hrest ih =>
      obtain ⟨entry, hentry, hfits⟩ := hreadable
      by_cases hz : mem.read entry 8 = 0
      · exact .stop hentry hz
      · exact .more hentry hz (hfits hz) (ih ⟨entry, hentry, hz⟩)

theorem addEight_iterate (k : ℕ) (p : U64) :
    (fun q : U64 => q + 8)^[k] p = p + 8 * BitVec.ofNat 64 k := by
  induction k generalizing p with
  | zero => simp
  | succ k ih =>
    rw [Function.iterate_succ_apply, ih, BitVec.ofNat_add]
    grind

/-- The addresses of the entries repeat. -/
theorem addEight_round (p : U64) : (fun q : U64 => q + 8)^[attributeListPeriod] p = p := by
  have hzero : 8 * BitVec.ofNat 64 attributeListPeriod = 0#64 := by decide
  rw [addEight_iterate, hzero, BitVec.add_zero]

theorem listFitsWithin_period_iff (p : U64) :
    ListFitsWithin t mem v attrMem attributeListPeriod p ↔ ListFits t mem v attrMem p := by
  rw [listFitsWithin_iff, listFits_iff]
  exact within_round_iff (by decide) addEight_round

end Lists

section Dumps

/-! The dumps of fixed sizes are short enough for their counter. -/

instance total_shaderDump (blob : U64) :
    Total (Sees t mem) (panwrapLogHexdump blob shaderDumpSize) :=
  total_panwrapLogHexdump blob shaderDumpSize (by decide)

instance total_payloadDump (p : U64) : Total (Sees t mem) (panwrapLogHexdump p payloadDumpSize) :=
  total_panwrapLogHexdump p payloadDumpSize (by decide)

instance total_block1Dump (v : U64) : Total (Sees t mem) (panwrapLogHexdump v 40) :=
  total_panwrapLogHexdump v 40 (by decide)

instance total_block2Dump (v : U64) : Total (Sees t mem) (panwrapLogHexdump v 144) :=
  total_panwrapLogHexdump v 144 (by decide)

end Dumps

theorem decodeShaderSection_decides (metaPtr : U64) :
    Decides (Sees t mem) (decodeShaderSection metaPtr) (ShaderFits t mem metaPtr) := by
  have hshader : Decides (Sees t mem) (do
      let shaderMeta ← panwrapDerefGpuMem none metaPtr sizeofShaderMeta 112 decoderFile
      panwrapLog "Shader blob:\n" []
      panwrapIndentIncr
      let shader ← load64 shaderMeta
      let blob ← panwrapDerefGpuMem none shader shaderDumpSize 117 decoderFile
      panwrapLogHexdump blob shaderDumpSize
      panwrapIndentDecr)
      (∃ shaderMeta, derefGpuMem t.mmaps none metaPtr sizeofShaderMeta = some shaderMeta ∧
        ∃ blob, derefGpuMem t.mmaps none (mem.read shaderMeta 8) shaderDumpSize = some blob ∧
          True) := by
    refine Decides.deref fun shaderMeta => Decides.seq fun _ => Decides.seq fun _ => ?_
    exact Decides.load64 (Decides.deref fun blob => Decides.of_total)
  refine (hshader.ite Decides.of_total).congr ?_
  by_cases hp : metaPtr = 0 <;> simp [ShaderFits, hp]

theorem decodeAttributeSection_decides (v attributeMeta : U64) :
    Decides (Sees t mem)
      (decodeAttributeSection v (panwrapFindMappedGpuMemContaining t.mmaps attributeMeta)
        attributeMeta) (AttributeSectionFits t mem v attributeMeta) := by
  have hlist : Decides (Sees t mem) (do
      panwrapLog "Attribute list:\n" []
      panwrapIndentIncr
      decodeAttributeList v (panwrapFindMappedGpuMemContaining t.mmaps attributeMeta)
        attributeListPeriod attributeMeta
      panwrapIndentDecr)
      (ListFits t mem v (panwrapFindMappedGpuMemContaining t.mmaps attributeMeta) attributeMeta ∧
        True) := by
    refine Decides.seq fun _ => Decides.seq fun _ => ?_
    refine Decides.bind ?_ fun _ => Decides.of_total
    -- the model stops after one round of addresses, the condition says the list ends at all
    exact (decodeAttributeList_decides v _ _ _).congr (listFitsWithin_period_iff attributeMeta)
  refine (hlist.ite Decides.of_total).congr ?_
  by_cases hp : attributeMeta = 0 <;> simp [AttributeSectionFits, hp]

theorem panwrapDecodeVertexOrTilerJob_decides (jobType : U8) (m : Option PanwrapMappedMemory)
    (payload : U64) :
    Decides (Sees t mem) (panwrapDecodeVertexOrTilerJob jobType m payload)
      (VertexTilerFits t mem m payload) := by
  unfold panwrapDecodeVertexOrTilerJob
  refine Decides.deref fun v => Decides.load64 ?_
  refine Decides.seq fun _ => Decides.load64 (Decides.findContaining ?_)
  refine Decides.seq fun _ => Decides.seq fun _ => Decides.seq fun _ => ?_
  refine Decides.seq fun _ => Decides.seq fun _ => ?_
  refine (decodeShaderSection_decides _).bind fun _ => ?_
  exact ((decodeAttributeSection_decides v _).bind fun _ => Decides.of_total).congr
    (and_iff_left trivial)

theorem decodePayload_decides (jobType : U8) (m : Option PanwrapMappedMemory) (payload : U64) :
    Decides (Sees t mem) (decodePayload jobType m payload)
      (PayloadFits t mem jobType m payload) := by
  have hset : Decides (Sees t mem) (decodeSetValue m payload)
      (∃ s, derefGpuMem t.mmaps m payload sizeofPayloadSetValue = some s ∧ True) :=
    Decides.deref fun s => Decides.of_total
  have hdump : Decides (Sees t mem) (dumpPayload m payload)
      (∃ p, derefGpuMem t.mmaps m payload payloadDumpSize = some p ∧ True) := by
    refine Decides.seq fun _ => Decides.seq fun _ => Decides.deref fun p => ?_
    exact Decides.of_total
  simp only [and_true] at hset hdump
  exact hset.ite ((panwrapDecodeVertexOrTilerJob_decides jobType m payload).ite hdump)

theorem panwrapTraceHwChain_decides (jc : U64) :
    Decides (Sees t mem) (panwrapTraceHwChain jc) (ChainFits t mem jc) := by
  unfold panwrapTraceHwChain
  refine Decides.findContaining (Decides.deref fun h => Decides.load8 ?_)
  -- the lines about the header, up to the payload
  repeat refine Decides.seq fun _ => ?_
  exact ((decodePayload_decides _ _ _).bind fun _ => Decides.of_total).congr
    (and_iff_left trivial)

instance total_logFlagsLine (text : String) (info : List PanwrapFlagInfo) (flags : U64) :
    Total (Sees t mem) (logFlagsLine text info flags) := by
  unfold logFlagsLine
  infer_instance

instance total_ioctlLogDecodedJdCoreReq (req : U32) :
    Total (Sees t mem) (ioctlLogDecodedJdCoreReq req) := by
  have hsoft (o : Option (U32 × String)) : Total (Sees t mem) (logSoftFlag o) := by
    cases o <;> unfold logSoftFlag <;> infer_instance
  unfold ioctlLogDecodedJdCoreReq
  infer_instance

instance total_logExternalResources (extResList : U64) (nrExtRes : U16) :
    Total (Sees t mem) (logExternalResources extResList nrExtRes) := by
  have hcount : nrExtRes.toNat ≤ intMax := by
    have hlt := nrExtRes.isLt
    unfold intMax
    omega
  have hloop : Total (Sees t mem) (forInt nrExtRes.toNat fun j => do
      logFlagsLine "" externalResourcesAccessFlagInfo
        (← load64 (extResList + 16 * BitVec.ofNat 64 j + 8))) :=
    total_forInt hcount _
  unfold logExternalResources
  infer_instance

instance total_logPreDependencies (a : U64) (i : ℕ) :
    Total (Sees t mem) (logPreDependencies a i) := by
  have hloop (body : ℕ → Wrap Unit) [∀ i, Total (Sees t mem) (body i)] :
      Total (Sees t mem) (forInt 2 body) := total_forInt (by decide) body
  unfold logPreDependencies
  dsimp only
  infer_instance

/-- An atom stops the decoder only through its job chain. -/
theorem decodeAtom_decides (a : U64) (i : ℕ) :
    Decides (Sees t mem) (decodeAtom a i) (ChainFits t mem (mem.read a 8)) := by
  unfold decodeAtom
  refine Decides.load64 ?_
  repeat refine Decides.seq fun _ => ?_
  refine ((panwrapTraceHwChain_decides _).bind fun _ => ?_).congr (and_iff_left trivial)
  repeat refine Decides.seq fun _ => ?_
  exact Decides.of_total

end Decoders

/-- The address of atom `i` of the submission at `ptr`. -/
def atomAt (mem : Memory) (ptr : U64) (i : ℕ) : U64 := mem.read (ptr + 8) 8 + 48 * BitVec.ofNat 64 i

def nrAtoms (mem : Memory) (ptr : U64) : ℕ := (mem.read (ptr + 16) 4).toNat

/-- The job chains of all atoms fit, whatever their kind, and the atoms can be counted. -/
def AtomsFit (t : Tracker) (mem : Memory) (ptr : U64) : Prop :=
  nrAtoms mem ptr ≤ intMax ∧
    ∀ i < nrAtoms mem ptr, ChainFits t mem (mem.read (atomAt mem ptr i) 8)

theorem ioctlDecodePreJobSubmit_decides {t : Tracker} {mem : Memory} {ptr : U64}
    (hstride : mem.read (ptr + 20) 4 = sizeofJdAtomV2) :
    Decides (Sees t mem) (ioctlDecodePreJobSubmit ptr) (AtomsFit t mem ptr) := by
  unfold ioctlDecodePreJobSubmit
  refine Decides.load64 (Decides.load32 (Decides.load32 ?_))
  repeat refine Decides.seq fun _ => ?_
  -- the atoms are decoded
  rw [hstride, if_neg (not_not.mpr rfl)]
  repeat refine Decides.seq fun _ => ?_
  exact ((Decides.forInt (fun i => decodeAtom_decides _ i) _).bind
    fun _ => Decides.of_total).congr (and_iff_left trivial)

end Panloader
