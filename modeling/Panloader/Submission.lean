import Panloader.JobChains
import Panloader.OwnerLookup

/-! Tracing a job submission whose jobs lie inside tracked mappings. The decoder follows the
job chain of every atom, also of those that have none. -/
namespace Panloader
open Effects

section Inside

variable (t : Tracker) (mem : Memory)

/-- The `size` bytes of GPU memory at `gpuVa` lie inside a tracked mapping, and the CPU finds
them at `p`. -/
def Lies (gpuVa size p : U64) : Prop :=
  ∃ m ∈ t.mmaps, m.Covers gpuVa size ∧ p = m.addr + (gpuVa - m.gpuVa)

/-- The attribute record at `addr` and the buffer it names. -/
def AttributeInside (addr : U64) : Prop :=
  ∃ attr, Lies t addr sizeofVertexTilerAttr attr ∧
    ∃ buffer, Lies t ((mem.read attr 8 >>> 2) <<< 2) (mem.read (attr + 16) 8) buffer

/-- The attribute list from `p` on, up to its zero entry, with the attributes it names. -/
inductive ListInside (v : U64) : U64 → Prop
  | stop {p entry : U64} : Lies t p 8 entry → mem.read entry 8 = 0 → ListInside v p
  | more {p entry : U64} : Lies t p 8 entry → mem.read entry 8 ≠ 0 →
      AttributeInside t mem (mem.read (v + 96) 8 + (mem.read entry 8 &&& 0xff)) →
      ListInside v (p + 8) → ListInside v p

/-- The payload of a vertex or tiler job with its shader and its attributes. -/
def VertexTilerInside (payload : U64) : Prop :=
  ∃ v, Lies t payload sizeofPayloadVertexTiler v ∧
    (((mem.read (v + 88) 8 >>> 4) <<< 4 ≠ 0 →
      ∃ s, Lies t ((mem.read (v + 88) 8 >>> 4) <<< 4) sizeofShaderMeta s ∧
        ∃ blob, Lies t (mem.read s 8) shaderDumpSize blob)) ∧
    (mem.read (v + 104) 8 ≠ 0 → ListInside t mem v (mem.read (v + 104) 8))

def PayloadInside (jobType : U8) (payload : U64) : Prop :=
  if jobType = jobTypeSetValue then ∃ s, Lies t payload sizeofPayloadSetValue s
  else if jobType = jobTypeTiler ∨ jobType = jobTypeVertex then VertexTilerInside t mem payload
  else ∃ p, Lies t payload payloadDumpSize p

/-- The job header at `jc`, its payload and the records it refers to lie inside tracked
mappings. -/
def JobInside (jc : U64) : Prop :=
  ∃ h, Lies t jc sizeofJobDescriptorHeader h ∧
    PayloadInside t mem (mem.read (h + 16) 1 >>> 1) (jc + sizeofJobDescriptorHeader)

/-- Every atom that is neither a soft job nor dependency-only has its job inside tracked
mappings. -/
def HardJobsInside (ptr : U64) : Prop :=
  ∀ i < nrAtoms mem ptr,
    maliJdReqSoftJobOrDep (mem.read (atomAt mem ptr i + 44) 4) = false →
    JobInside t mem (mem.read (atomAt mem ptr i) 8)

end Inside

/-- What is dereferenced of the payload of a job. -/
def payloadSize (jobType : U8) : U64 :=
  if jobType = jobTypeSetValue then sizeofPayloadSetValue
  else if jobType = jobTypeTiler ∨ jobType = jobTypeVertex then sizeofPayloadVertexTiler
  else payloadDumpSize

/-- What the vertex or tiler payload at the CPU address `v` refers to is accepted. -/
def ReferencesFit (t : Tracker) (mem : Memory) (v : U64) : Prop :=
  ShaderFits t mem ((mem.read (v + 88) 8 >>> 4) <<< 4) ∧
    AttributeSectionFits t mem v (mem.read (v + 104) 8)

/-- In a mapping with a correct translation, what is accepted is what lies in it. -/
theorem derefGpuMem_iff_covers {mmaps : List PanwrapMappedMemory} {m : PanwrapMappedMemory}
    {gpuVa size p : U64} (hfits : m.GpuFits) (hhonest : m.SumHonest gpuVa size)
    (hsym : m.Symmetric) : derefGpuMem mmaps (some m) gpuVa size = some p ↔
      m.Covers gpuVa size ∧ p = m.addr + (gpuVa - m.gpuVa) := by
  have htranslate : m.translate gpuVa = m.addr + (gpuVa - m.gpuVa) :=
    (translate_eq_iff m gpuVa).mpr hsym
  constructor
  · intro hp
    obtain ⟨n, hn, haccept, hpoint⟩ := derefGpuMem_eq_some_iff.mp hp
    obtain rfl : m = n := Option.some.inj hn
    exact ⟨(covers_of_not_rejects_iff hfits).mpr hhonest haccept, hpoint.symm.trans htranslate⟩
  · rintro ⟨hcov, rfl⟩
    exact derefGpuMem_eq_some_iff.mpr ⟨m, rfl, hcov.not_rejects, htranslate⟩

/-- A payload is accepted if it lies in the mapping that it is taken to be in and, for a vertex or
tiler job, what it refers to is accepted. -/
theorem payloadFits_iff {t : Tracker} {mem : Memory} {m : PanwrapMappedMemory} {jobType : U8}
    {payload : U64} (hfits : m.GpuFits) (hhonest : m.SumHonest payload (payloadSize jobType))
    (hsym : m.Symmetric) : PayloadFits t mem jobType (some m) payload ↔
      m.Covers payload (payloadSize jobType) ∧ (jobType = jobTypeTiler ∨ jobType = jobTypeVertex →
        ReferencesFit t mem (m.addr + (payload - m.gpuVa))) := by
  have hderef (p : U64) : derefGpuMem t.mmaps (some m) payload (payloadSize jobType) = some p ↔
      m.Covers payload (payloadSize jobType) ∧ p = m.addr + (payload - m.gpuVa) :=
    derefGpuMem_iff_covers hfits hhonest hsym
  have hexists : (∃ p, derefGpuMem t.mmaps (some m) payload (payloadSize jobType) = some p) ↔
      m.Covers payload (payloadSize jobType) := by
    simp only [hderef, exists_and_left, exists_eq, and_true]
  rw [PayloadFits]
  by_cases hset : jobType = jobTypeSetValue
  · have hother : ¬(jobType = jobTypeTiler ∨ jobType = jobTypeVertex) := by
      rw [hset]
      decide
    have hsize : payloadSize jobType = sizeofPayloadSetValue := if_pos hset
    rw [if_pos hset, ← hsize, hexists]
    exact (and_iff_left fun h => absurd h hother).symm
  · rw [if_neg hset]
    by_cases hvertex : jobType = jobTypeTiler ∨ jobType = jobTypeVertex
    · have hsize : payloadSize jobType = sizeofPayloadVertexTiler :=
        (if_neg hset).trans (if_pos hvertex)
      rw [if_pos hvertex, VertexTilerFits, ← hsize]
      constructor
      · rintro ⟨v, hv, hshader, hlist⟩
        obtain ⟨hcov, rfl⟩ := (hderef v).mp hv
        exact ⟨hcov, fun _ => ⟨hshader, hlist⟩⟩
      · rintro ⟨hcov, hrest⟩
        exact ⟨_, (hderef _).mpr ⟨hcov, rfl⟩, hrest hvertex⟩
    · have hsize : payloadSize jobType = payloadDumpSize := (if_neg hset).trans (if_neg hvertex)
      rw [if_neg hvertex, ← hsize, hexists]
      exact (and_iff_left fun h => absurd h hvertex).symm

/-- When a hard job inside tracked mappings is accepted, if the lookup finds the mapping of its
header: the payload must lie in the same mapping, and what it refers to must be accepted. -/
theorem JobInside.accepted_iff {t : Tracker} {mem : Memory} {jc : U64} (hjob : JobInside t mem jc)
    (hsep : Separate PanwrapMappedMemory.gpuVa t.mmaps)
    (hfirst : OwnerFirst PanwrapMappedMemory.gpuVa t.mmaps jc)
    (hsym : ∀ m ∈ t.mmaps, m.Symmetric) (hlow : ∀ m ∈ t.mmaps, m.length.toNat < 2^63) :
    ∃ m ∈ t.mmaps, m.Covers jc sizeofJobDescriptorHeader ∧ ∀ jobType payload,
      jobType = mem.read (m.addr + (jc - m.gpuVa) + 16) 1 >>> 1 →
      payload = jc + sizeofJobDescriptorHeader →
      (ChainFits t mem jc ↔ m.Covers payload (payloadSize jobType) ∧
        (jobType = jobTypeTiler ∨ jobType = jobTypeVertex →
          ReferencesFit t mem (m.addr + (payload - m.gpuVa)))) := by
  obtain ⟨_, ⟨m, hm, hcov, rfl⟩, -⟩ := hjob
  have hfits : m.GpuFits := hsep.fits m hm
  have hfind : panwrapFindMappedGpuMemContaining t.mmaps jc = some m :=
    ((hsep.find?_iff jc).mpr hfirst m).mpr ⟨hm, hcov.owns (by decide)⟩
  have hheader : derefGpuMem t.mmaps (some m) jc sizeofJobDescriptorHeader =
      some (m.addr + (jc - m.gpuVa)) :=
    derefGpuMem_eq_some_iff.mpr
      ⟨m, rfl, hcov.not_rejects, (translate_eq_iff m jc).mpr (hsym m hm)⟩
  refine ⟨m, hm, hcov, ?_⟩
  rintro jobType _ htype rfl
  have hhonest : m.SumHonest (jc + sizeofJobDescriptorHeader) (payloadSize jobType) := by
    obtain ⟨hstart, hend⟩ := hcov
    have hsize : sizeofJobDescriptorHeader.toNat = 32 := rfl
    have hpayload : (payloadSize jobType).toNat ≤ 304 := by
      unfold payloadSize
      split_ifs <;> decide
    have hnext : (jc + sizeofJobDescriptorHeader).toNat = jc.toNat + 32 := by
      rw [BitVec.toNat_add_of_lt] <;> unfold PanwrapMappedMemory.GpuFits at hfits <;> omega
    have hoff : ((jc + sizeofJobDescriptorHeader) - m.gpuVa).toNat =
        (jc + sizeofJobDescriptorHeader).toNat - m.gpuVa.toNat := offset_above (by omega)
    have hlength := hlow m hm
    exact .inl (by omega)
  rw [← payloadFits_iff hfits hhonest (hsym m hm), ChainFits, hfind, hheader, htype]
  constructor
  · rintro ⟨h, hh, hpayload⟩
    obtain rfl := Option.some.inj hh
    exact hpayload
  · exact fun hpayload => ⟨_, rfl, hpayload⟩

/-- Where all hard atoms have their jobs inside tracked mappings, the decoder returns exactly
if the job chains of all atoms fit, those of soft and dependency-only atoms included. -/
theorem submission_traced_iff (w : World) (ptr : U64)
    (hstride : w.mem.read (ptr + 20) 4 = sizeofJdAtomV2) :
    (HardJobsInside w.tracker w.mem ptr → ∃ w', ioctlDecodePreJobSubmit ptr w = .ok () w') ↔
      (HardJobsInside w.tracker w.mem ptr → AtomsFit w.tracker w.mem ptr) := by
  -- where the jobs of the hard atoms lie plays no part in what the decoder does
  refine imp_congr_right fun _ => ?_
  exact (ioctlDecodePreJobSubmit_decides hstride).returns_iff (Sees.self w)

/-- A submission of one atom, with its argument at 0x1000 and the atom at 0x2000: a vertex job
that sets a value, at GPU address 0x10000. -/
def vertexSubmission : Memory := fun a =>
  if a = 0x1009 then 0x20 else if a = 0x1010 then 1 else if a = 0x1014 then 48
  else if a = 0x2002 then 1 else if a = 0x202c then 2 else if a = 0x10010 then 4 else 0

def vertexPage : PanwrapMappedMemory := ⟨0x1000, 0x10000, 0x10000, 3, 0x2000⟩

theorem submission_traced_vertex :
    ∃ w', ioctlDecodePreJobSubmit 0x1000
      { World.plain.withMmaps [vertexPage] with mem := vertexSubmission } = .ok () w' := by
  have hfits : AtomsFit ⟨[], [vertexPage]⟩ vertexSubmission 0x1000 := by
    refine ⟨by decide, fun i hi => ?_⟩
    obtain rfl : i = 0 := Nat.lt_one_iff.mp hi
    refine ⟨0x10000, by decide, ?_⟩
    rw [PayloadFits, if_pos (by decide)]
    exact ⟨0x10020, by decide⟩
  have hinside : HardJobsInside ⟨[], [vertexPage]⟩ vertexSubmission 0x1000 := by
    intro i hi _
    obtain rfl : i = 0 := Nat.lt_one_iff.mp hi
    refine ⟨0x10000, ⟨vertexPage, List.mem_singleton.mpr rfl, by decide, by decide⟩, ?_⟩
    rw [PayloadInside, if_pos (by decide)]
    exact ⟨0x10020, vertexPage, List.mem_singleton.mpr rfl, by decide, by decide⟩
  exact (submission_traced_iff { World.plain.withMmaps [vertexPage] with mem := vertexSubmission }
    0x1000 (by decide)).mpr (fun _ => hfits) hinside

/-- A submission of one soft job whose `jc` is 0. -/
def softSubmission : Memory := fun a =>
  if a = 0x1009 then 0x20 else if a = 0x1010 then 1 else if a = 0x1014 then 48
  else if a = 0x202d then 2 else 0

/-- With no memory mapped, the decoder stops at the soft job. -/
theorem submission_not_traced :
    ¬∀ (w : World) (ptr : U64), w.mem.read (ptr + 20) 4 = sizeofJdAtomV2 →
      HardJobsInside w.tracker w.mem ptr → ∃ w', ioctlDecodePreJobSubmit ptr w = .ok () w' := by
  intro h
  have hstride : softSubmission.read (0x1000 + 20) 4 = sizeofJdAtomV2 := by decide
  have hinside : HardJobsInside ⟨[], []⟩ softSubmission 0x1000 := by
    intro i hi hhard
    obtain rfl : i = 0 := Nat.lt_one_iff.mp hi
    exact absurd hhard (by decide)
  obtain ⟨w', hr⟩ := h { World.plain with mem := softSubmission } 0x1000 hstride hinside
  have hfits := ((ioctlDecodePreJobSubmit_decides (t := ⟨[], []⟩) hstride).returns_iff
    (s := { World.plain with mem := softSubmission }) ⟨rfl, rfl⟩).mp ⟨w', hr⟩
  obtain ⟨header, hheader, -⟩ := hfits.2 0 (by decide)
  -- the chain of the soft job is read at address 0
  have hnone : derefGpuMem [] (panwrapFindMappedGpuMemContaining []
      (softSubmission.read (atomAt softSubmission 0x1000 0) 8))
      (softSubmission.read (atomAt softSubmission 0x1000 0) 8) sizeofJobDescriptorHeader =
      none := by
    decide
  exact nomatch hnone.symm.trans hheader

end Panloader
