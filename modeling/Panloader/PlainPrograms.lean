import Panloader.PanwrapSyscall

/-! Programs put together from log lines, reads of memory, moves of the indent and updates of the
tracker. What these statements keep, every such program keeps, and all decoders are of this
kind. -/
namespace Panloader
open Effects

set_option synthInstance.maxSize 4000

/-- An event that is neither a log line nor a call of a real function nor about the clock or the
indent. -/
def Event.plain : Event → Bool
  | .cont _ _ => true
  | .load _ _ => true
  | .hexdump _ _ => true
  | _ => false

class inductive Plain : {α : Type} → Wrap α → Prop
  | pure {α : Type} (a : α) : Plain (Pure.pure a : Wrap α)
  | bind {α β : Type} {m : Wrap α} {f : α → Wrap β} :
      Plain m → (∀ a, Plain (f a)) → Plain (m >>= f)
  | halt {α : Type} (h : Halt) : Plain (Panloader.halt h : Wrap α)
  | emit (e : Event) : e.plain → Plain (Panloader.emit e)
  | load (n : ℕ) (a : U64) : Plain (Panloader.load n a)
  | log (format : String) (args : List Arg) : Plain (panwrapLog format args)
  | indentIncr : Plain panwrapIndentIncr
  | indentDecr : Plain panwrapIndentDecr
  | indentReset : Plain panwrapIndentReset
  | tracker : Plain Panloader.tracker
  | setTracker (t : Tracker) : Plain (Panloader.setTracker t)
  | trimming : Plain enableHexdumpTrimming

/-- Each statement of a plain program keeps `I`. -/
structure Stable (I : World → Prop) : Prop where
  emit : ∀ w e, e.plain → I w → I (w.emit e)
  log : ∀ format args, Ensures I (panwrapLog format args) (fun _ => I) (fun _ => I)
  indent : ∀ w level, I w → I (w.setIndent level)
  tracker : ∀ w t, I w → I { w with tracker := t }

theorem Plain.ensures {α : Type} {m : Wrap α} (hm : Plain m) {I : World → Prop} (hI : Stable I) :
    Ensures I m (fun _ => I) (fun _ => I) := by
  induction hm with
  | pure a => exact Ensures.pure a
  | bind hm hf ihm ihf => exact ihm.bind ihf
  | halt h => exact fun _ hw => hw
  | emit e he => exact fun w hw => hI.emit w e he hw
  | load n a => exact fun w hw => hI.emit w _ rfl hw
  | log format args => exact hI.log format args
  | indentIncr => exact fun w hw => hI.indent w _ hw
  | indentDecr => exact fun w hw => hI.indent w _ hw
  | indentReset => exact fun w hw => hI.indent w _ hw
  | tracker => exact fun _ hw => hw
  | setTracker t => exact fun w hw => hI.tracker w t hw
  | trimming => exact fun _ hw => hw

section Instances

variable {α β : Type}

instance plain_pure (a : α) : Plain (pure a : Wrap α) := .pure a

instance plain_bind {m : Wrap α} {f : α → Wrap β} [hm : Plain m] [hf : ∀ a, Plain (f a)] :
    Plain (m >>= f) := .bind hm hf

instance plain_ite {p : Prop} [Decidable p] {m m' : Wrap α} [hm : Plain m] [hm' : Plain m'] :
    Plain (if p then m else m') := by
  split
  · exact hm
  · exact hm'

instance plain_halt (h : Halt) : Plain (halt h : Wrap α) := .halt h
instance plain_load (n : ℕ) (a : U64) : Plain (load n a) := .load n a
instance plain_load8 (a : U64) : Plain (load8 a) := .load 1 a
instance plain_load16 (a : U64) : Plain (load16 a) := .load 2 a
instance plain_load32 (a : U64) : Plain (load32 a) := .load 4 a
instance plain_load64 (a : U64) : Plain (load64 a) := .load 8 a
instance plain_log (format : String) (args : List Arg) : Plain (panwrapLog format args) :=
  .log format args
instance plain_cont (format : String) (args : List Arg) : Plain (panwrapLogCont format args) :=
  .emit _ rfl
instance plain_hexdump (data size : U64) : Plain (emit (.hexdump data size)) := .emit _ rfl
instance plain_indentIncr : Plain panwrapIndentIncr := .indentIncr
instance plain_indentDecr : Plain panwrapIndentDecr := .indentDecr
instance plain_indentReset : Plain panwrapIndentReset := .indentReset
instance plain_tracker : Plain tracker := .tracker
instance plain_setTracker (t : Tracker) : Plain (setTracker t) := .setTracker t
instance plain_trimming : Plain enableHexdumpTrimming := .trimming

instance plain_countFrom (body : ℕ → Wrap Unit) [hb : ∀ i, Plain (body i)] (i n : ℕ) :
    Plain (countFrom body i n) := by
  induction n generalizing i with
  | zero => exact .pure ()
  | succ n ih => exact .bind (hb i) fun _ => ih (i+1)

instance plain_forInt (n : ℕ) (body : ℕ → Wrap Unit) [∀ i, Plain (body i)] :
    Plain (forInt n body) :=
  plain_countFrom _ 0 n

instance plain_udiv (a b : U64) : Plain (udiv a b) := plain_ite

instance plain_lookUpName (request : U32) (env : IoctlEnv) : Plain (lookUpName request env) :=
  plain_ite

end Instances

section Decoders

variable {α : Type}

instance plain_logFlagNames (info : List PanwrapFlagInfo) (flags : U64) (found : Bool) :
    Plain (logFlagNames info flags found) := by
  induction info generalizing flags found with
  | nil => exact .pure _
  | cons i rest ih =>
    unfold logFlagNames
    infer_instance

instance plain_panwrapLogDecodedFlags (info : List PanwrapFlagInfo) (flags : U64) :
    Plain (panwrapLogDecodedFlags info flags) := by
  unfold panwrapLogDecodedFlags
  infer_instance

instance plain_hexdumpCell (data : U64) (alpha : Gutter) (i : ℕ) :
    Plain (hexdumpCell data alpha i) := by
  unfold hexdumpCell hexdumpWrapped hexdumpByte
  infer_instance

instance plain_hexdumpCells (data : U64) (i n : ℕ) (alpha : Gutter) :
    Plain (hexdumpCells data i n alpha) := by
  induction n generalizing i alpha with
  | zero => exact .pure _
  | succ n ih =>
    unfold hexdumpCells
    infer_instance

instance plain_hexdumpPad (i n : ℕ) (alpha : Gutter) : Plain (hexdumpPad i n alpha) := by
  induction n generalizing i alpha with
  | zero => exact .pure _
  | succ n ih =>
    unfold hexdumpPad
    infer_instance

instance plain_panwrapLogHexdump (data size : U64) : Plain (panwrapLogHexdump data size) := by
  unfold panwrapLogHexdump
  infer_instance

instance plain_trimScan (d : U64) (room : ℕ) (trimOffset : ℤ) :
    Plain (trimScan d room trimOffset) := by
  induction room generalizing trimOffset with
  | zero =>
    unfold trimScan
    dsimp only
    infer_instance
  | succ room ih =>
    unfold trimScan
    dsimp only
    infer_instance

instance plain_panwrapLogHexdumpTrimmed (data size : U64) :
    Plain (panwrapLogHexdumpTrimmed data size) := by
  unfold panwrapLogHexdumpTrimmed
  infer_instance

instance plain_panwrapTrackAllocation (addr : U64) (flags : U32) :
    Plain (panwrapTrackAllocation addr flags) := by
  unfold panwrapTrackAllocation
  infer_instance

instance plain_panwrapTrackMmap (gpuVa addr length : U64) (prot flags : U32) :
    Plain (panwrapTrackMmap gpuVa addr length prot flags) := by
  refine .bind .tracker fun t => ?_
  cases t.pendingAllocation gpuVa
  · unfold logUntrackedMmap
    infer_instance
  · infer_instance

instance plain_logMappingInformation (gpuVa size : U64) (mem : Option PanwrapMappedMemory) :
    Plain (logMappingInformation gpuVa size mem) := by
  cases mem <;> unfold logMappingInformation <;> infer_instance

instance plain_panwrapDerefMemErr (mem : Option PanwrapMappedMemory) (gpuVa size : U64) (line : ℕ)
    (filename : String) : Plain (panwrapDerefMemErr mem gpuVa size line filename : Wrap α) := by
  unfold panwrapDerefMemErr logInvalidAccess
  infer_instance

instance plain_panwrapDerefGpuMem (mem : Option PanwrapMappedMemory) (gpuVa size : U64) (line : ℕ)
    (filename : String) : Plain (panwrapDerefGpuMem mem gpuVa size line filename) := by
  refine .bind .tracker fun t => ?_
  cases derefGpuMem t.mmaps mem gpuVa size <;> infer_instance

instance plain_panwrapJobTypeName (type : U8) : Plain (panwrapJobTypeName type) := by
  unfold panwrapJobTypeName
  infer_instance

instance plain_findContaining (addr : U64) : Plain (findContaining addr) := by
  unfold findContaining
  infer_instance

instance plain_panwrapDecodeAttributes (mem : Option PanwrapMappedMemory) (addr : U64) :
    Plain (panwrapDecodeAttributes mem addr) := by
  unfold panwrapDecodeAttributes logAttributeRow
  dsimp only
  infer_instance

instance plain_decodeAttributeList (v : U64) (attrMem : Option PanwrapMappedMemory) (n : ℕ)
    (p : U64) : Plain (decodeAttributeList v attrMem n p) := by
  induction n generalizing p with
  | zero => exact .halt _
  | succ n ih =>
    unfold decodeAttributeList decodeAttributeEntry
    dsimp only
    infer_instance

instance plain_decodeShaderSection (metaPtr : U64) : Plain (decodeShaderSection metaPtr) := by
  unfold decodeShaderSection
  infer_instance

instance plain_decodeAttributeSection (v : U64) (attrMem : Option PanwrapMappedMemory)
    (attributeMeta : U64) : Plain (decodeAttributeSection v attrMem attributeMeta) := by
  unfold decodeAttributeSection
  infer_instance

instance plain_panwrapDecodeVertexOrTilerJob (jobType : U8) (mem : Option PanwrapMappedMemory)
    (payload : U64) : Plain (panwrapDecodeVertexOrTilerJob jobType mem payload) := by
  unfold panwrapDecodeVertexOrTilerJob
  dsimp only
  repeat refine .bind inferInstance fun _ => ?_
  infer_instance

instance plain_decodePayload (jobType : U8) (mem : Option PanwrapMappedMemory) (payload : U64) :
    Plain (decodePayload jobType mem payload) := by
  unfold decodePayload decodeSetValue dumpPayload
  infer_instance

instance plain_panwrapTraceHwChain (jcGpuVa : U64) : Plain (panwrapTraceHwChain jcGpuVa) := by
  unfold panwrapTraceHwChain
  dsimp only
  repeat refine .bind inferInstance fun _ => ?_
  infer_instance

instance plain_logFlagsLine (text : String) (info : List PanwrapFlagInfo) (flags : U64) :
    Plain (logFlagsLine text info flags) := by
  unfold logFlagsLine
  infer_instance

instance plain_ioctlLogDecodedJdCoreReq (req : U32) : Plain (ioctlLogDecodedJdCoreReq req) := by
  have hsoft (o : Option (U32 × String)) : Plain (logSoftFlag o) := by
    cases o <;> unfold logSoftFlag <;> infer_instance
  unfold ioctlLogDecodedJdCoreReq
  infer_instance

instance plain_logExternalResources (extResList : U64) (nrExtRes : U16) :
    Plain (logExternalResources extResList nrExtRes) := by
  unfold logExternalResources
  infer_instance

instance plain_logPreDependencies (a : U64) (i : ℕ) : Plain (logPreDependencies a i) := by
  unfold logPreDependencies
  dsimp only
  infer_instance

instance plain_decodeAtom (a : U64) (i : ℕ) : Plain (decodeAtom a i) := by
  unfold decodeAtom
  repeat refine .bind inferInstance fun _ => ?_
  infer_instance

instance plain_ioctlDecodePreJobSubmit (ptr : U64) : Plain (ioctlDecodePreJobSubmit ptr) := by
  unfold ioctlDecodePreJobSubmit
  infer_instance

instance plain_logSyncRange (handle userAddr size : U64) (m : Option PanwrapMappedMemory) :
    Plain (logSyncRange handle userAddr size m) := by
  cases m <;> unfold logSyncRange <;> infer_instance

instance plain_ioctlDecodePreSync (ptr : U64) : Plain (ioctlDecodePreSync ptr) := by
  unfold ioctlDecodePreSync
  infer_instance

instance plain_ioctlDecodePre (request ptr : U64) : Plain (ioctlDecodePre request ptr) := by
  unfold ioctlDecodePre ioctlDecodePreMemAlloc ioctlDecodePreMemImport ioctlDecodePreMemCommit
    ioctlDecodePreMemQuery ioctlDecodePreMemFree ioctlDecodePreMemFlagsChange
    ioctlDecodePreMemAlias ioctlDecodePreSetFlags ioctlDecodePreStreamCreate
  dsimp only
  infer_instance

instance plain_logCoreProps (p : U64) : Plain (logCoreProps p) := by
  unfold logCoreProps
  repeat refine .bind inferInstance fun _ => ?_
  infer_instance

instance plain_logL2Props (p : U64) : Plain (logL2Props p) := by
  unfold logL2Props
  infer_instance

instance plain_logTilerProps (p : U64) : Plain (logTilerProps p) := by
  unfold logTilerProps
  infer_instance

instance plain_logThreadProps (p : U64) (implementation : Arg) :
    Plain (logThreadProps p implementation) := by
  unfold logThreadProps
  repeat refine .bind inferInstance fun _ => ?_
  infer_instance

instance plain_logRawProps (p : U64) : Plain (logRawProps p) := by
  unfold logRawProps
  repeat refine .bind inferInstance fun _ => ?_
  infer_instance

instance plain_logCoherencyInfo (p : U64) : Plain (logCoherencyInfo p) := by
  unfold logCoherencyInfo
  dsimp only
  repeat refine .bind inferInstance fun _ => ?_
  infer_instance

instance plain_ioctlDecodePostGpuPropsRegDump (ptr : U64) :
    Plain (ioctlDecodePostGpuPropsRegDump ptr) := by
  unfold ioctlDecodePostGpuPropsRegDump
  infer_instance

instance plain_ioctlDecodePost (request ptr : U64) : Plain (ioctlDecodePost request ptr) := by
  unfold ioctlDecodePost ioctlDecodePostGetVersion ioctlDecodePostMemAlloc
    ioctlDecodePostMemImport ioctlDecodePostMemCommit ioctlDecodePostMemQuery
    ioctlDecodePostMemAlias ioctlDecodePostSync ioctlDecodePostStreamCreate
    ioctlDecodePostGetContextId
  dsimp only
  infer_instance

end Decoders
end Panloader
