import Panloader.ReportedErrors
import Panloader.Submission

/-! What can stop the decoder of job chains besides a pointer that is reported: a stride of 0,
counts that no `int` can hold, an attribute list without an end. All of it is up to the attribute
records that the decoder comes to. -/
namespace Panloader
open Effects Walks

set_option synthInstance.maxSize 4000

section Conditions

variable (t : Tracker) (mem : Memory)

/-- If the attribute record at `addr` and its buffer are accepted, the stride is not 0, and rows
and components can be counted. -/
def AttributesCountable (m : Option PanwrapMappedMemory) (addr : U64) : Prop :=
  ∀ attr, derefGpuMem t.mmaps m addr sizeofVertexTilerAttr = some attr →
    ∀ buffer, derefGpuMem t.mmaps none ((mem.read attr 8 >>> 2) <<< 2) (mem.read (attr + 16) 8) =
        some buffer →
      mem.read (attr + 8) 8 ≠ 0 ∧
      (mem.read (attr + 16) 8 / mem.read (attr + 8) 8).toNat ≤ intMax ∧
      ∀ row < (mem.read (attr + 16) 8 / mem.read (attr + 8) 8).toNat,
        (mem.read (attr + 8) 8 / 4).toNat ≤ intMax

/-- So it is with the attribute that the entry at `p` names, if the entry is accepted. -/
def EntryCountable (v : U64) (attrMem : Option PanwrapMappedMemory) (p : U64) : Prop :=
  ∀ attrMeta, derefGpuMem t.mmaps attrMem p sizeofMappedMemory = some attrMeta →
    AttributesCountable t mem none (mem.read (v + 96) 8 + (mem.read attrMeta 8 &&& 0xff))

/-- The entries that the decoder comes to are countable, and it comes to the last one or to one
that is not accepted. -/
def ListCountable (v : U64) (attrMem : Option PanwrapMappedMemory) : U64 → Prop :=
  Ends (fun p => EntryFollowed t mem attrMem p → EntryCountable t mem v attrMem p)
    (fun p => EntryFollowed t mem attrMem p ∧ EntryFits t mem v attrMem p) (· + 8)

/-- The payload's attribute list, if the decoder comes to it: the payload is accepted, and so are
the shader and its blob. -/
def VertexTilerCountable (m : Option PanwrapMappedMemory) (payload : U64) : Prop :=
  ∀ v, derefGpuMem t.mmaps m payload sizeofPayloadVertexTiler = some v →
    ShaderFits t mem ((mem.read (v + 88) 8 >>> 4) <<< 4) → mem.read (v + 104) 8 ≠ 0 →
      ListCountable t mem v (panwrapFindMappedGpuMemContaining t.mmaps (mem.read (v + 104) 8))
        (mem.read (v + 104) 8)

/-- The payload of a vertex or tiler job, if the job header at `jc` is accepted. -/
def ChainCountable (jc : U64) : Prop :=
  ∀ h, derefGpuMem t.mmaps (panwrapFindMappedGpuMemContaining t.mmaps jc) jc
      sizeofJobDescriptorHeader = some h →
    (mem.read (h + 16) 1 >>> 1 = jobTypeTiler ∨ mem.read (h + 16) 1 >>> 1 = jobTypeVertex) →
      VertexTilerCountable t mem (panwrapFindMappedGpuMemContaining t.mmaps jc)
        (jc + sizeofJobDescriptorHeader)

end Conditions

section Rules

variable {t : Tracker} {mem : Memory} {P : Prop} {α β : Type} {e : Halt}

theorem EndsWith.halt (h : Halt) : EndsWith e (Sees t mem) (Panloader.halt h : Wrap α) (h = e) :=
  fun _ _ => Iff.rfl

theorem EndsWith.load64 {a : U64} {f : U64 → Wrap β}
    (hf : EndsWith e (Sees t mem) (f (mem.read a 8)) P) :
    EndsWith e (Sees t mem) (load64 a >>= f) P :=
  EndsWith.seq_value (load_ensures 8 a) hf

theorem EndsWith.load8 {a : U64} {f : U8 → Wrap β}
    (hf : EndsWith e (Sees t mem) (f (mem.read a 1)) P) :
    EndsWith e (Sees t mem) (load8 a >>= f) P :=
  EndsWith.seq_value (load_ensures 1 a) hf

theorem EndsWith.findContaining {a : U64} {f : Option PanwrapMappedMemory → Wrap β}
    (hf : EndsWith e (Sees t mem) (f (panwrapFindMappedGpuMemContaining t.mmaps a)) P) :
    EndsWith e (Sees t mem) (findContaining a >>= f) P := by
  have hfind : Ensures (Sees t mem) (Panloader.findContaining a)
      (fun v w => v = panwrapFindMappedGpuMemContaining t.mmaps a ∧ Sees t mem w)
      fun _ _ => False :=
    fun w hw => ⟨by rw [← hw.tracker], hw⟩
  exact EndsWith.seq_value hfind hf

/-- A pointer that is not accepted is reported. -/
theorem panwrapDerefMemErr_ends {m : Option PanwrapMappedMemory} {gpuVa size : U64} {line : ℕ}
    {filename : String} :
    Ensures (Sees t mem) (panwrapDerefMemErr m gpuVa size line filename : Wrap α)
      (fun _ _ => False) fun h _ => h = .derefMemErr := by
  have hlines : Total (Sees t mem) (logInvalidAccess m gpuVa size line filename) := by
    have hmapping : Total (Sees t mem) (logMappingInformation gpuVa size m) := by
      cases m <;> unfold logMappingInformation <;> infer_instance
    unfold logInvalidAccess
    infer_instance
  have hreset : Ensures (Sees t mem) panwrapIndentReset (fun _ => Sees t mem)
      fun h _ => h = .derefMemErr := fun _ hw => ⟨hw.tracker, hw.mem⟩
  apply hreset.bind
  intro _
  apply (hlines.ensures.mono_error fun _ _ h => h.elim).bind
  intro _
  exact fun _ _ => rfl

theorem panwrapDerefGpuMem_ends {m : Option PanwrapMappedMemory} {gpuVa size : U64} {line : ℕ}
    {filename : String} :
    Ensures (Sees t mem) (panwrapDerefGpuMem m gpuVa size line filename)
      (fun p w => derefGpuMem t.mmaps m gpuVa size = some p ∧ Sees t mem w)
      fun h _ => derefGpuMem t.mmaps m gpuVa size = none ∧ h = .derefMemErr := by
  intro w hw
  rw [← hw.tracker]
  cases h : derefGpuMem w.tracker.mmaps m gpuVa size with
  | none =>
    rw [panwrapDerefGpuMem_none line filename h]
    have hends : Ensures (Sees t mem) (panwrapDerefMemErr (usedMapping w.tracker.mmaps m gpuVa)
        gpuVa size line filename : Wrap U64) (fun _ _ => False) fun h _ => h = .derefMemErr :=
      panwrapDerefMemErr_ends
    exact (hends.mono (fun _ _ h => h.elim) fun _ _ hh => ⟨rfl, hh⟩) w hw
  | some p =>
    rw [panwrapDerefGpuMem_some line filename h]
    exact ⟨rfl, rfl, hw.mem⟩

theorem EndsWith.deref {m : Option PanwrapMappedMemory} {gpuVa size : U64} {line : ℕ}
    {filename : String} {f : U64 → Wrap β} {R : U64 → Prop}
    (hf : ∀ p, EndsWith .derefMemErr (Sees t mem) (f p) (R p)) :
    EndsWith .derefMemErr (Sees t mem) (panwrapDerefGpuMem m gpuVa size line filename >>= f)
      (∀ p, derefGpuMem t.mmaps m gpuVa size = some p → R p) :=
  EndsWith.seq_option panwrapDerefGpuMem_ends fun p _ => hf p

/-- Only the counter of a loop stops it, if its turns are not stopped otherwise. -/
theorem forInt_stops {body : ℕ → Wrap Unit} {E : Halt → Prop} (hE : E .intOverflow)
    (hbody : ∀ i, Ensures (Sees t mem) (body i) (fun _ => Sees t mem) fun h _ => E h) (n : ℕ) :
    Ensures (Sees t mem) (forInt n body) (fun _ => Sees t mem) fun h _ => E h := by
  apply Ensures.countFrom (I := fun _ => Sees t mem)
  intro i
  apply (hbody i).bind
  intro _
  split_ifs
  · exact fun _ _ => hE
  · exact fun _ hw => hw

end Rules

section Decoders

variable {t : Tracker} {mem : Memory}

/-- The rows of an attribute are stopped by their counters only. -/
theorem logAttributeRow_stops (buffer componentCount : U64) :
    Ensures (Sees t mem) (logAttributeRow buffer componentCount) (fun _ => Sees t mem)
      fun h _ => h ≠ .derefMemErr := by
  have hne : Halt.intOverflow ≠ .derefMemErr := fun h => nomatch h
  have hquiet {α : Type} (m : Wrap α) [hm : Total (Sees t mem) m] :
      Ensures (Sees t mem) m (fun _ => Sees t mem) fun h _ => h ≠ .derefMemErr :=
    hm.ensures.mono_error fun _ _ h => h.elim
  unfold logAttributeRow
  apply (hquiet _).bind
  intro _
  apply (forInt_stops hne (fun i => hquiet _) _).bind
  intro _
  exact hquiet _

theorem panwrapDecodeAttributes_endsWith (m : Option PanwrapMappedMemory) (addr : U64) :
    EndsWith .derefMemErr (Sees t mem) (panwrapDecodeAttributes m addr)
      (AttributesCountable t mem m addr) := by
  have hne : Halt.intOverflow ≠ .derefMemErr := fun h => nomatch h
  have hzero : Halt.divByZero ≠ .derefMemErr := fun h => nomatch h
  have hquiet {α : Type} (m : Wrap α) [hm : Total (Sees t mem) m] :
      Ensures (Sees t mem) m (fun _ => Sees t mem) fun h _ => h ≠ .derefMemErr :=
    hm.ensures.mono_error fun _ _ h => h.elim
  have hdiv (a b : U64) : Ensures (Sees t mem) (udiv a b) (fun _ => Sees t mem)
      fun h _ => h ≠ .derefMemErr := by
    unfold udiv
    split_ifs
    · exact fun _ _ => hzero
    · exact fun _ hw => hw
  unfold panwrapDecodeAttributes
  apply EndsWith.deref
  intro attr
  apply EndsWith.load64
  apply EndsWith.load64
  apply EndsWith.deref
  intro buffer
  apply EndsWith.load64
  -- from here on no pointer is followed
  apply EndsWith.of_decides
  · apply Decides.udiv
    have hfour : (4 : U64) ≠ 0 := by decide
    apply (Decides.udiv ?_).congr (and_iff_right hfour)
    apply Decides.seq
    intro _
    apply Decides.seq
    intro _
    exact ((Decides.forInt (fun _ => logAttributeRow_decides buffer _) _).bind
      fun _ => Decides.of_total).congr (and_iff_left trivial)
  · apply (hdiv _ _).bind
    intro _
    apply (hdiv _ _).bind
    intro _
    apply (hquiet _).bind
    intro _
    apply (hquiet _).bind
    intro _
    apply (forInt_stops hne (fun _ => logAttributeRow_stops buffer _) _).bind
    intro _
    exact (hquiet _).mono (fun _ _ _ => trivial) fun _ _ h => h

theorem decodeAttributeEntry_endsWith (v : U64) (attrMem : Option PanwrapMappedMemory) (p : U64) :
    EndsWith .derefMemErr (Sees t mem) (decodeAttributeEntry v attrMem p)
      (EntryCountable t mem v attrMem p) := by
  unfold decodeAttributeEntry
  apply EndsWith.deref
  intro attrMeta
  apply EndsWith.load64
  iterate 3
    apply EndsWith.seq
    intro _
  apply EndsWith.load64
  apply (EndsWith.bind (panwrapDecodeAttributes_decides none _)
    (panwrapDecodeAttributes_endsWith none _) fun _ => EndsWith.of_total).congr
  exact and_iff_left fun _ => trivial

theorem decodeAttributeList_endsWith (v : U64) (attrMem : Option PanwrapMappedMemory) (n : ℕ)
    (p : U64) :
    EndsWith .derefMemErr (Sees t mem) (decodeAttributeList v attrMem n p)
      (Within (fun p => EntryFollowed t mem attrMem p → EntryCountable t mem v attrMem p)
        (fun p => EntryFollowed t mem attrMem p ∧ EntryFits t mem v attrMem p) (· + 8) n p) := by
  induction n generalizing p with
  | zero =>
    apply (EndsWith.halt .endlessLoop).congr
    exact iff_of_false (fun h => nomatch h) not_false
  | succ n ih =>
    have hentry : EndsWith .derefMemErr (Sees t mem) (do
        decodeAttributeEntry v attrMem p
        decodeAttributeList v attrMem n (p + 8)) _ :=
      EndsWith.bind (decodeAttributeEntry_decides v attrMem p)
        (decodeAttributeEntry_endsWith v attrMem p) fun _ => ih (p + 8)
    apply (EndsWith.deref fun entry => EndsWith.load64 (hentry.ite EndsWith.of_total)).congr
    constructor
    · intro h
      refine ⟨?_, ?_⟩
      · rintro ⟨entry, haccepted, hne⟩
        have hturn := h entry haccepted
        rw [if_pos hne] at hturn
        exact hturn.1
      · rintro ⟨⟨entry, haccepted, hne⟩, hfits⟩
        have hturn := h entry haccepted
        rw [if_pos hne] at hturn
        exact hturn.2 hfits
    · rintro ⟨hcountable, hrest⟩ entry haccepted
      by_cases hne : mem.read entry 8 ≠ 0
      · rw [if_pos hne]
        exact ⟨hcountable ⟨entry, haccepted, hne⟩, fun hfits =>
          hrest ⟨⟨entry, haccepted, hne⟩, hfits⟩⟩
      · rw [if_neg hne]
        trivial

theorem decodeAttributeSection_endsWith (v attributeMeta : U64) :
    EndsWith .derefMemErr (Sees t mem)
      (decodeAttributeSection v (panwrapFindMappedGpuMemContaining t.mmaps attributeMeta)
        attributeMeta)
      (attributeMeta ≠ 0 →
        ListCountable t mem v (panwrapFindMappedGpuMemContaining t.mmaps attributeMeta)
          attributeMeta) := by
  have hlist : EndsWith .derefMemErr (Sees t mem) (do
      panwrapLog "Attribute list:\n" []
      panwrapIndentIncr
      decodeAttributeList v (panwrapFindMappedGpuMemContaining t.mmaps attributeMeta)
        attributeListPeriod attributeMeta
      panwrapIndentDecr)
      (ListCountable t mem v (panwrapFindMappedGpuMemContaining t.mmaps attributeMeta)
        attributeMeta) := by
    apply EndsWith.seq
    intro _
    apply EndsWith.seq
    intro _
    apply (EndsWith.bind (decodeAttributeList_decides v _ _ _)
      (decodeAttributeList_endsWith v _ _ _) fun _ => EndsWith.of_total).congr
    -- the model stops after one round of addresses, the condition says the walk ends at all
    rw [within_round_iff (by decide) addEight_round]
    exact and_iff_left fun _ => trivial
  apply (hlist.ite EndsWith.of_total).congr
  by_cases hp : attributeMeta = 0 <;> simp [hp]

/-- A shader that is not accepted is reported. -/
theorem decodeShaderSection_endsWith (metaPtr : U64) :
    EndsWith .derefMemErr (Sees t mem) (decodeShaderSection metaPtr) True := by
  have hshader : EndsWith .derefMemErr (Sees t mem) (do
      let shaderMeta ← panwrapDerefGpuMem none metaPtr sizeofShaderMeta 112 decoderFile
      panwrapLog "Shader blob:\n" []
      panwrapIndentIncr
      let shader ← load64 shaderMeta
      let blob ← panwrapDerefGpuMem none shader shaderDumpSize 117 decoderFile
      panwrapLogHexdump blob shaderDumpSize
      panwrapIndentDecr)
      (∀ shaderMeta, derefGpuMem t.mmaps none metaPtr sizeofShaderMeta = some shaderMeta →
        ∀ blob, derefGpuMem t.mmaps none (mem.read shaderMeta 8) shaderDumpSize = some blob →
          True) := by
    apply EndsWith.deref
    intro shaderMeta
    apply EndsWith.seq
    intro _
    apply EndsWith.seq
    intro _
    apply EndsWith.load64
    exact EndsWith.deref fun blob => EndsWith.of_total
  apply (hshader.ite EndsWith.of_total).congr
  simp

theorem panwrapDecodeVertexOrTilerJob_endsWith (jobType : U8) (m : Option PanwrapMappedMemory)
    (payload : U64) :
    EndsWith .derefMemErr (Sees t mem) (panwrapDecodeVertexOrTilerJob jobType m payload)
      (VertexTilerCountable t mem m payload) := by
  unfold panwrapDecodeVertexOrTilerJob
  apply EndsWith.deref
  intro v
  apply EndsWith.load64
  apply EndsWith.seq
  intro _
  apply EndsWith.load64
  apply EndsWith.findContaining
  iterate 5
    apply EndsWith.seq
    intro _
  apply (EndsWith.bind (decodeShaderSection_decides _) (decodeShaderSection_endsWith _)
    fun _ => EndsWith.bind (decodeAttributeSection_decides v _)
      (decodeAttributeSection_endsWith v _) fun _ => EndsWith.of_total).congr
  simp only [implies_true, and_true, true_and]

theorem decodePayload_endsWith (jobType : U8) (m : Option PanwrapMappedMemory) (payload : U64) :
    EndsWith .derefMemErr (Sees t mem) (decodePayload jobType m payload)
      (jobType = jobTypeTiler ∨ jobType = jobTypeVertex →
        VertexTilerCountable t mem m payload) := by
  have hset : EndsWith .derefMemErr (Sees t mem) (decodeSetValue m payload)
      (∀ s, derefGpuMem t.mmaps m payload sizeofPayloadSetValue = some s → True) :=
    EndsWith.deref fun s => EndsWith.of_total
  have hdump : EndsWith .derefMemErr (Sees t mem) (dumpPayload m payload)
      (∀ p, derefGpuMem t.mmaps m payload payloadDumpSize = some p → True) := by
    apply EndsWith.seq
    intro _
    apply EndsWith.seq
    intro _
    apply EndsWith.deref
    intro p
    exact EndsWith.of_total
  apply (hset.ite ((panwrapDecodeVertexOrTilerJob_endsWith jobType m payload).ite hdump)).congr
  -- a job that sets a value is of neither type
  by_cases hvalue : jobType = jobTypeSetValue
  · have hother : ¬(jobType = jobTypeTiler ∨ jobType = jobTypeVertex) := by
      rw [hvalue]
      decide
    rw [if_pos hvalue]
    exact iff_of_true (fun _ _ => trivial) fun h => absurd h hother
  · rw [if_neg hvalue]
    by_cases hjob : jobType = jobTypeTiler ∨ jobType = jobTypeVertex <;> simp [hjob]

theorem panwrapTraceHwChain_endsWith (jc : U64) :
    EndsWith .derefMemErr (Sees t mem) (panwrapTraceHwChain jc) (ChainCountable t mem jc) := by
  unfold panwrapTraceHwChain
  apply EndsWith.findContaining
  apply EndsWith.deref
  intro h
  apply EndsWith.load8
  -- the lines about the header, up to the payload
  repeat
    apply EndsWith.seq
    intro _
  apply (EndsWith.bind (decodePayload_decides _ _ _) (decodePayload_endsWith _ _ _)
    fun _ => EndsWith.of_total).congr
  exact and_iff_left fun _ => trivial

end Decoders

section Claims

/-- Tracing the job at `jc` ends by returning or with a reported pointer. -/
def TracedWithoutFault (w : World) (jc : U64) : Prop :=
  ∀ h w', panwrapTraceHwChain jc w = .error h w' → h = .derefMemErr

/-- Job decoding has no fault if and only if the attribute records that it comes to are countable
and the list of them comes to an end. -/
theorem chain_traced_without_fault_iff (w : World) (jc : U64) :
    TracedWithoutFault w jc ↔ ChainCountable w.tracker w.mem jc :=
  (panwrapTraceHwChain_endsWith jc).iff (Sees.self w)

/-- A vertex job at 0x10000 with an attribute list of one entry, at 0x10300. The attribute's
record, at 0x10200, has the stride 0. -/
def zeroStride : Memory := fun a =>
  if a = 0x10010 then 10
  else if a = 0x10081 then 2 else if a = 0x10082 then 1
  else if a = 0x10089 then 3 else if a = 0x1008a then 1
  else if a = 0x10201 then 4 else if a = 0x10202 then 1
  else if a = 0x10301 then 1 else 0

theorem zero_stride_divides :
    ¬TracedWithoutFault { World.plain.withMmaps [vertexPage] with mem := zeroStride } 0x10000 := by
  intro h
  have hchain : ChainCountable ⟨[], [vertexPage]⟩ zeroStride 0x10000 :=
    ((panwrapTraceHwChain_endsWith 0x10000).iff ⟨rfl, rfl⟩).mp h
  have hlist := hchain 0x10000 (by decide) (by decide) 0x10020 (by decide)
    (fun hshader => absurd hshader (by decide)) (by decide)
  cases hlist with
  | intro hentry _ =>
    have hattributes := hentry ⟨0x10300, by decide, by decide⟩ 0x10300 (by decide)
    exact (hattributes 0x10200 (by decide) 0x10400 (by decide)).1 (by decide)

end Claims
end Panloader
