import Panloader.QuietStatements

/-! Every ioctl decoder is quiet, except the one that tracks an allocation. -/
namespace Panloader
open Effects

set_option synthInstance.maxSize 4000

theorem At.start (w : World) (top : ℕ) : At w w.stage [] top 0 top w where
  stage := rfl
  indent := (Int.add_zero _).symm
  room := Nat.zero_add top
  since := ⟨[], (List.append_nil _).symm, rfl, fun _ _ hv => absurd hv List.not_mem_nil⟩

theorem Since.trans {w₀ w₁ w₂ : World} {calls calls' : List RealCall} {top k : ℕ}
    (h : Since w₀ calls top w₁) (h' : Since w₁ calls' k w₂)
    (hk : 0 ≤ w₀.panwrapIndent →
      0 ≤ w₁.panwrapIndent ∧ w₁.panwrapIndent + k ≤ w₀.panwrapIndent + top) :
    Since w₀ (calls ++ calls') top w₂ := by
  obtain ⟨es, htrace, hcalls, hlevels⟩ := h
  obtain ⟨es', htrace', hcalls', hlevels'⟩ := h'
  refine ⟨es ++ es', ?_, ?_, ?_⟩
  -- each half of the events has its own calls and levels
  · rw [htrace', htrace, List.append_assoc]
  · rw [realCalls, List.filterMap_append, ← realCalls, ← realCalls, hcalls, hcalls']
  · intro h0 v hv
    rw [levels, List.filterMap_append, List.mem_append] at hv
    rcases hv with hv | hv
    · exact hlevels h0 v hv
    · have hb := hlevels' (hk h0).1 v hv
      exact ⟨hb.1, Int.le_trans hb.2 (hk h0).2⟩

section Rules

variable {α : Type} {c r : ℕ}

instance quiet_logMappingInformation (gpuVa size : U64) (mem : Option PanwrapMappedMemory) :
    Quiet c (r+1) c (r+1) (logMappingInformation gpuVa size mem) := by
  cases mem <;> unfold Panloader.logMappingInformation <;> infer_instance

/-- The error report starts again from indent 0, needs room for one level, and does not return. -/
theorem panwrapDerefMemErr_stops (mem : Option PanwrapMappedMemory) (gpuVa size : U64) (line : ℕ)
    (filename : String) (w₀ : World) (st : Stage) (calls : List RealCall) (top : ℕ) :
    Ensures (At w₀ st calls top c (r+1)) (panwrapDerefMemErr mem gpuVa size line filename : Wrap α)
      (fun _ _ => False) (fun _ => Stopped w₀ top) := by
  intro w hw
  have hroom := hw.room
  have hsince : Since w₀ calls top (w.setIndent 0) := hw.since.setIndent 0 (fun _ => by omega)
  -- what is logged from indent 0 on joins what was logged before
  have hjoin (v : World) (calls' : List RealCall) (hv : Since (w.setIndent 0) calls' 1 v) :
      Stopped w₀ top v :=
    ⟨calls ++ calls', hsince.trans hv (fun _ => ⟨Int.le_refl 0, by change (0:ℤ) + 1 ≤ _; omega⟩)⟩
  have hlog : Quiet 0 (0+1) 0 (0+1) (logInvalidAccess mem gpuVa size line filename) := by
    unfold logInvalidAccess
    infer_instance
  have hreport : Ensures (At (w.setIndent 0) (w.setIndent 0).stage [] 1 0 1)
      (do
        logInvalidAccess mem gpuVa size line filename
        halt .derefMemErr : Wrap α)
      (fun _ _ => False) (fun _ => Stopped w₀ top) := by
    apply Ensures.bind (Q := fun _ => At (w.setIndent 0) (w.setIndent 0).stage [] 1 0 1)
    · refine (hlog.ensures _ _ _ 1).mono_error fun _ v hv => ?_
      obtain ⟨calls', hv⟩ := hv
      exact hjoin v calls' hv
    · exact fun _ v hv => hjoin v [] hv.since
  exact hreport (w.setIndent 0) (At.start _ 1)

/-- The error report ends abruptly from every state. -/
theorem panwrapDerefMemErr_error (mem : Option PanwrapMappedMemory) (gpuVa size : U64) (line : ℕ)
    (filename : String) (w : World) :
    ∃ e w', (panwrapDerefMemErr mem gpuVa size line filename : Wrap α) w = .error e w' := by
  have hstop := panwrapDerefMemErr_stops (α := α) (c := 0) (r := 0) mem gpuVa size line filename w
    w.stage [] 1 w (At.start w 1)
  cases hr : (panwrapDerefMemErr mem gpuVa size line filename : Wrap α) w with
  | ok a w' =>
    rw [hr] at hstop
    exact hstop.elim
  | error e w' => exact ⟨e, w', rfl⟩

theorem panwrapDerefGpuMem_some {mem : Option PanwrapMappedMemory} {gpuVa size p : U64} (line : ℕ)
    (filename : String) {w : World} (h : derefGpuMem w.tracker.mmaps mem gpuVa size = some p) :
    panwrapDerefGpuMem mem gpuVa size line filename w = .ok p w := by
  have ht : tracker w = .ok w.tracker w := rfl
  rw [panwrapDerefGpuMem, bind_ok ht, h]
  rfl

theorem panwrapDerefGpuMem_none {mem : Option PanwrapMappedMemory} {gpuVa size : U64} (line : ℕ)
    (filename : String) {w : World} (h : derefGpuMem w.tracker.mmaps mem gpuVa size = none) :
    panwrapDerefGpuMem mem gpuVa size line filename w =
      panwrapDerefMemErr (usedMapping w.tracker.mmaps mem gpuVa) gpuVa size line filename w := by
  have ht : tracker w = .ok w.tracker w := rfl
  rw [panwrapDerefGpuMem, bind_ok ht, h]

instance quiet_panwrapDerefGpuMem (mem : Option PanwrapMappedMemory) (gpuVa size : U64) (line : ℕ)
    (filename : String) :
    Quiet c (r+1) c (r+1) (panwrapDerefGpuMem mem gpuVa size line filename) where
  ensures w₀ st calls top := by
    intro w hw
    cases h : derefGpuMem w.tracker.mmaps mem gpuVa size with
    | none =>
      rw [panwrapDerefGpuMem_none line filename h]
      have hstop := panwrapDerefMemErr_stops (α := U64) (c := c) (r := r)
        (usedMapping w.tracker.mmaps mem gpuVa) gpuVa size line filename w₀ st calls top
      exact hstop.mono (fun _ _ h => h.elim) (fun _ _ h => h) w hw
    | some p =>
      rw [panwrapDerefGpuMem_some line filename h]
      exact hw

instance quiet_panwrapJobTypeName (type : U8) : Quiet c r c r (panwrapJobTypeName type) := by
  unfold panwrapJobTypeName
  infer_instance

instance quiet_findContaining (addr : U64) : Quiet c r c r (findContaining addr) := by
  unfold findContaining
  infer_instance

instance quiet_panwrapDecodeAttributes (mem : Option PanwrapMappedMemory) (addr : U64) :
    Quiet c (r+1) c (r+1) (panwrapDecodeAttributes mem addr) := by
  unfold panwrapDecodeAttributes logAttributeRow
  dsimp only
  infer_instance

instance quiet_decodeAttributeList (v : U64) (attrMem : Option PanwrapMappedMemory) (n : ℕ)
    (p : U64) : Quiet c (r+2) c (r+2) (decodeAttributeList v attrMem n p) := by
  induction n generalizing p with
  | zero => exact quiet_halt _
  | succ n ih =>
    unfold decodeAttributeList decodeAttributeEntry
    dsimp only
    infer_instance

instance quiet_decodeShaderSection (metaPtr : U64) :
    Quiet c (r+2) c (r+2) (decodeShaderSection metaPtr) := by
  unfold decodeShaderSection
  infer_instance

instance quiet_decodeAttributeSection (v : U64) (attrMem : Option PanwrapMappedMemory)
    (attributeMeta : U64) :
    Quiet c (r+3) c (r+3) (decodeAttributeSection v attrMem attributeMeta) := by
  unfold decodeAttributeSection
  infer_instance

instance quiet_panwrapDecodeVertexOrTilerJob (jobType : U8) (mem : Option PanwrapMappedMemory)
    (payload : U64) :
    Quiet c (r+3) c (r+3) (panwrapDecodeVertexOrTilerJob jobType mem payload) := by
  unfold panwrapDecodeVertexOrTilerJob
  dsimp only
  infer_instance

instance quiet_decodePayload (jobType : U8) (mem : Option PanwrapMappedMemory) (payload : U64) :
    Quiet c (r+3) c (r+3) (decodePayload jobType mem payload) := by
  unfold decodePayload decodeSetValue dumpPayload
  infer_instance

instance quiet_panwrapTraceHwChain (jcGpuVa : U64) :
    Quiet c (r+4) c (r+4) (panwrapTraceHwChain jcGpuVa) := by
  unfold panwrapTraceHwChain
  dsimp only
  infer_instance

instance quiet_logFlagsLine (text : String) (info : List PanwrapFlagInfo) (flags : U64) :
    Quiet c r c r (logFlagsLine text info flags) := by
  unfold logFlagsLine
  infer_instance

instance quiet_ioctlLogDecodedJdCoreReq (req : U32) :
    Quiet c r c r (ioctlLogDecodedJdCoreReq req) := by
  have hsoft (o : Option (U32 × String)) : Quiet c r c r (logSoftFlag o) := by
    cases o <;> unfold logSoftFlag <;> infer_instance
  unfold ioctlLogDecodedJdCoreReq
  infer_instance

instance quiet_logExternalResources (extResList : U64) (nrExtRes : U16) :
    Quiet c (r+1) c (r+1) (logExternalResources extResList nrExtRes) := by
  unfold logExternalResources
  infer_instance

instance quiet_logPreDependencies (a : U64) (i : ℕ) :
    Quiet c (r+1) c (r+1) (logPreDependencies a i) := by
  unfold logPreDependencies
  dsimp only
  infer_instance

instance quiet_decodeAtom (a : U64) (i : ℕ) : Quiet c (r+6) c (r+6) (decodeAtom a i) := by
  unfold decodeAtom
  infer_instance

instance quiet_ioctlDecodePreJobSubmit (ptr : U64) :
    Quiet c (r+7) c (r+7) (ioctlDecodePreJobSubmit ptr) := by
  unfold ioctlDecodePreJobSubmit
  infer_instance

instance quiet_ioctlDecodePreSync (ptr : U64) :
    Quiet c (r+1) c (r+1) (ioctlDecodePreSync ptr) := by
  have hrange (handle userAddr size : U64) (m : Option PanwrapMappedMemory) :
      Quiet c (r+1) c (r+1) (logSyncRange handle userAddr size m) := by
    cases m <;> unfold logSyncRange <;> infer_instance
  unfold ioctlDecodePreSync
  infer_instance

instance quiet_ioctlDecodePre (request ptr : U64) :
    Quiet c (r+7) c (r+7) (ioctlDecodePre request ptr) := by
  unfold ioctlDecodePre ioctlDecodePreMemAlloc ioctlDecodePreMemImport ioctlDecodePreMemCommit
    ioctlDecodePreMemQuery ioctlDecodePreMemFree ioctlDecodePreMemFlagsChange
    ioctlDecodePreMemAlias ioctlDecodePreSetFlags ioctlDecodePreStreamCreate
  dsimp only
  infer_instance

instance quiet_ioctlDecodePostSync (ptr : U64) :
    Quiet c (r+1) c (r+1) (ioctlDecodePostSync ptr) := by
  unfold ioctlDecodePostSync
  infer_instance

instance quiet_logCoreProps (p : U64) : Quiet c (r+2) c (r+2) (logCoreProps p) := by
  unfold logCoreProps
  infer_instance

instance quiet_logThreadProps (p : U64) (implementation : Arg) :
    Quiet c (r+2) c (r+2) (logThreadProps p implementation) := by
  unfold logThreadProps
  infer_instance

instance quiet_logRawProps (p : U64) : Quiet c (r+2) c (r+2) (logRawProps p) := by
  unfold logRawProps
  infer_instance

instance quiet_logCoherencyInfo (p : U64) : Quiet c (r+2) c (r+2) (logCoherencyInfo p) := by
  unfold logCoherencyInfo
  dsimp only
  infer_instance

instance quiet_ioctlDecodePostGpuPropsRegDump (ptr : U64) :
    Quiet c (r+2) c (r+2) (ioctlDecodePostGpuPropsRegDump ptr) := by
  unfold ioctlDecodePostGpuPropsRegDump logL2Props logTilerProps
  infer_instance

end Rules
end Panloader
