import Mathlib.Data.List.Nodup
import Panloader.CertainReads
import Panloader.Runs

/-! The cases of the switches on an ioctl's request, and what of the argument their decoders
read. The size in the request plays no part in the choice of a case. -/
namespace Panloader
open Effects

set_option synthInstance.maxSize 4000

/-- A case label and the decoder it leads to. -/
abbrev IoctlCase := U64 × (U64 → Wrap Unit)

/-- The switch of `ioctl_decode_pre`. -/
def preCases : List IoctlCase := [
  (maliIoctlMemAlloc, ioctlDecodePreMemAlloc),
  (maliIoctlMemImport, ioctlDecodePreMemImport),
  (maliIoctlMemCommit, ioctlDecodePreMemCommit),
  (maliIoctlMemQuery, ioctlDecodePreMemQuery),
  (maliIoctlMemFree, ioctlDecodePreMemFree),
  (maliIoctlMemFlagsChange, ioctlDecodePreMemFlagsChange),
  (maliIoctlMemAlias, ioctlDecodePreMemAlias),
  (maliIoctlSync, ioctlDecodePreSync),
  (maliIoctlSetFlags, ioctlDecodePreSetFlags),
  (maliIoctlStreamCreate, ioctlDecodePreStreamCreate),
  (maliIoctlJobSubmit, ioctlDecodePreJobSubmit)]

/-- The switch of `ioctl_decode_post`. -/
def postCases : List IoctlCase := [
  (maliIoctlGetVersion, ioctlDecodePostGetVersion),
  (maliIoctlGetVersionNew, ioctlDecodePostGetVersion),
  (maliIoctlMemAlloc, ioctlDecodePostMemAlloc),
  (maliIoctlMemImport, ioctlDecodePostMemImport),
  (maliIoctlMemCommit, ioctlDecodePostMemCommit),
  (maliIoctlMemQuery, ioctlDecodePostMemQuery),
  (maliIoctlMemAlias, ioctlDecodePostMemAlias),
  (maliIoctlSync, ioctlDecodePostSync),
  (maliIoctlGpuPropsRegDump, ioctlDecodePostGpuPropsRegDump),
  (maliIoctlStreamCreate, ioctlDecodePostStreamCreate),
  (maliIoctlGetContextId, ioctlDecodePostGetContextId)]

inductive IoctlStage
  | pre
  | post
deriving DecidableEq

def IoctlStage.cases : IoctlStage → List IoctlCase
  | .pre => preCases
  | .post => postCases

def IoctlStage.decode : IoctlStage → U32 → U64 → Wrap Unit
  | .pre, request, ptr => ioctlDecodePre (widenRequest request) ptr
  | .post, request, ptr => ioctlDecodePost (widenRequest request) ptr

/-- The case that a switch on `key` goes to. -/
def switchOn (key : U64) (cases : List IoctlCase) : Option IoctlCase :=
  cases.find? fun c => key == ioctlCase c.1

theorem switchOn_some {key : U64} {cases : List IoctlCase} {c : IoctlCase}
    (h : switchOn key cases = some c) : c ∈ cases ∧ key = ioctlCase c.1 := by
  unfold switchOn at h
  have hmatch := List.find?_some h
  exact ⟨List.mem_of_find?_eq_some h, beq_iff_eq.mp hmatch⟩

/-- The body of the case, or the `default` one. -/
def caseBody (ptr : U64) : Option IoctlCase → Wrap Unit
  | some c => c.2 ptr
  | none => pure ()

theorem caseBody_cons (key ptr : U64) (c : IoctlCase) (cases : List IoctlCase) :
    caseBody ptr (switchOn key (c :: cases)) =
      if key = ioctlCase c.1 then c.2 ptr else caseBody ptr (switchOn key cases) := by
  unfold switchOn
  rw [List.find?_cons]
  by_cases hkey : key = ioctlCase c.1
  · rw [if_pos hkey, beq_iff_eq.mpr hkey]
    rfl
  · rw [if_neg hkey, beq_false_of_ne hkey]

theorem ioctlStage_decode_eq (stage : IoctlStage) (request : U32) (ptr : U64) :
    stage.decode request ptr =
      caseBody ptr (switchOn (ioctlCase (widenRequest request)) stage.cases) := by
  cases stage with
  | pre =>
    simp only [IoctlStage.cases, preCases, caseBody_cons]
    rfl
  | post =>
    -- two labels stand before the decoder of the version
    simp only [IoctlStage.cases, postCases, caseBody_cons]
    unfold IoctlStage.decode ioctlDecodePost
    dsimp only
    rw [ite_or]
    rfl

/-- The direction and the size of 8 leave the 16 bits below them as they are. -/
theorem ioctlCase_bits (i : Fin 8) : (0xff : U64).getLsbD i = true ∧
    (0xff : U64).getLsbD (8 + i) = false ∧ (0xc0000000 : U64).getLsbD i = false ∧
    (0xc0000000 : U64).getLsbD (8 + i) = false ∧ (0x80000 : U64).getLsbD i = false ∧
    (0x80000 : U64).getLsbD (8 + i) = false := by
  decide +revert

theorem lowByte_bit : ∀ i : Fin 64, ¬i.val < 8 → (0xff : U64).getLsbD i = false := by
  decide

theorem iocType_ioctlCase (r : U64) : iocType (ioctlCase r) = iocType r := by
  apply BitVec.eq_of_getLsbD_eq
  intro i hi
  by_cases hlow : i < 8
  · -- bit `i` of the type is bit `8 + i` of the request
    obtain ⟨hmask, hmask', -, hdir, -, hsize⟩ := ioctlCase_bits ⟨i, hlow⟩
    simp at hmask hmask' hdir hsize
    simp [iocType, iocNr, ioctlCase, iowr, IOC, hmask, hmask', hdir, hsize]
    intro _
    omega
  · have hmask := lowByte_bit ⟨i, hi⟩ hlow
    simp at hmask
    simp [iocType, hmask]

theorem iocNr_ioctlCase (r : U64) : iocNr (ioctlCase r) = iocNr r := by
  apply BitVec.eq_of_getLsbD_eq
  intro i hi
  by_cases hlow : i < 8
  · obtain ⟨-, -, hdir, -, hsize, -⟩ := ioctlCase_bits ⟨i, hlow⟩
    simp at hdir hsize
    simp [iocType, iocNr, ioctlCase, iowr, IOC, hdir, hsize, hlow]
  · have hmask := lowByte_bit ⟨i, hi⟩ hlow
    simp at hmask
    simp [iocNr, hmask]

/-- Requests are told apart by their type and number. -/
theorem ioctlCase_eq_iff {r x : U64} :
    ioctlCase r = ioctlCase x ↔ iocType r = iocType x ∧ iocNr r = iocNr x := by
  constructor
  · intro h
    have htype := congrArg iocType h
    have hnr := congrArg iocNr h
    rw [iocType_ioctlCase, iocType_ioctlCase] at htype
    rw [iocNr_ioctlCase, iocNr_ioctlCase] at hnr
    exact ⟨htype, hnr⟩
  · rintro ⟨htype, hnr⟩
    rw [ioctlCase, htype, hnr, ioctlCase]

/-- Agreement in type, number and encoded size, whatever the direction. -/
structure Encodes (request x : U64) : Prop where
  type : iocType request = iocType x
  nr : iocNr request = iocNr x
  size : iocSize request = iocSize x

theorem ioctlStage_keys_nodup (stage : IoctlStage) :
    (stage.cases.map fun c => ioctlCase c.1).Nodup := by
  cases stage <;> decide

theorem switchOn_eq_some_iff {stage : IoctlStage} {key : U64} {c : IoctlCase}
    (hc : c ∈ stage.cases) : switchOn key stage.cases = some c ↔ key = ioctlCase c.1 := by
  constructor
  · intro h
    exact (switchOn_some h).2
  · rintro rfl
    have hsome : (switchOn (ioctlCase c.1) stage.cases).isSome :=
      List.find?_isSome.mpr ⟨c, hc, beq_iff_eq.mpr rfl⟩
    obtain ⟨d, hd⟩ := Option.isSome_iff_exists.mp hsome
    -- no two labels of a switch have the same key
    obtain ⟨hmem, hkey⟩ := switchOn_some hd
    have hsame : c = d := List.inj_on_of_nodup_map (ioctlStage_keys_nodup stage) hc hmem hkey
    rw [hd, hsame]

/-- The switch goes to the case `c`, and the call does what the decoder of `c` does. -/
def IoctlStage.Takes (stage : IoctlStage) (request : U32) (ptr : U64) (c : IoctlCase) : Prop :=
  switchOn (ioctlCase (widenRequest request)) stage.cases = some c ∧
    stage.decode request ptr = c.2 ptr

theorem ioctlStage_takes_iff {stage : IoctlStage} {request : U32} (ptr : U64) {c : IoctlCase}
    (hc : c ∈ stage.cases) : stage.Takes request ptr c ↔
      iocType (widenRequest request) = iocType c.1 ∧ iocNr (widenRequest request) = iocNr c.1 := by
  rw [← ioctlCase_eq_iff, ← switchOn_eq_some_iff hc]
  constructor
  · exact fun h => h.1
  · intro h
    refine ⟨h, ?_⟩
    rw [ioctlStage_decode_eq, h]
    rfl

/-- A case is taken if and only if the request encodes it, and what is read of the argument at
`ptr` lies within the size that the request encodes. -/
structure DecodesRequest (stage : IoctlStage) (request : U32) (ptr : U64) (w : World) : Prop where
  chosen : ∀ c ∈ stage.cases,
    stage.Takes request ptr c ↔ Encodes (widenRequest request) c.1
  reads : Ensures (fun u => u = w) (stage.decode request ptr)
    (fun _ => ReadsWithin w.mem ptr (iocSize (widenRequest request)).toNat w)
    (fun _ => ReadsWithin w.mem ptr (iocSize (widenRequest request)).toNat w)

/-- No case has the type and the number of the request with another size. -/
def SizesAgree (stage : IoctlStage) (request : U32) : Prop :=
  ∀ c ∈ stage.cases, iocType (widenRequest request) = iocType c.1 →
    iocNr (widenRequest request) = iocNr c.1 → iocSize (widenRequest request) = iocSize c.1

/-- `name` ends before the end of the struct. -/
def NameEnds (mem : Memory) (ptr : U64) : Prop := ∃ k < 40, mem (ptr + 8 + BitVec.ofNat 64 k) = 0

/-- `num_groups` is no larger than the array `group`. -/
def GroupsFit (mem : Memory) (ptr : U64) : Prop := (mem.read (ptr + 264) 4).toNat ≤ 16

/-- The two structs whose contents say how far they are read. -/
def ContentsFit (stage : IoctlStage) (request : U32) (ptr : U64) (mem : Memory) : Prop :=
  (stage = .pre → Encodes (widenRequest request) maliIoctlStreamCreate → NameEnds mem ptr) ∧
    (stage = .post → Encodes (widenRequest request) maliIoctlGpuPropsRegDump → GroupsFit mem ptr)

section Reads

variable {mem : Memory} {ptr : U64}

theorem ioctlDecodePreStreamCreate_within (h : NameEnds mem ptr) :
    StaysWithin mem ptr (ioctlDecodePreStreamCreate ptr) 48 := by
  apply StaysWithin.log
  intro p hp
  obtain rfl : p = ptr + 8 := Arg.cstr.inj (List.mem_singleton.mp hp)
  obtain ⟨k, hk, hend⟩ := h
  have hoffset : ptr + 8 - ptr = 8 := by grind
  refine ⟨k, hend, ?_⟩
  rw [hoffset]
  show 8 + k < 48
  omega

theorem ioctlDecodePostGpuPropsRegDump_within (h : GroupsFit mem ptr) :
    StaysWithin mem ptr (ioctlDecodePostGpuPropsRegDump ptr) 536 := by
  have himplementation := noStrings_implementationName
  unfold ioctlDecodePostGpuPropsRegDump
  iterate 6
    apply StaysWithin.seq (by simp)
    intro _
  exact (within_logCoherencyInfo h).mono (by simp)

/-- The decoders before the call. -/
theorem preCases_within {c : IoctlCase} (hc : c ∈ preCases)
    (hname : c.1 = maliIoctlStreamCreate → NameEnds mem ptr) :
    StaysWithin mem ptr (c.2 ptr) (iocSize c.1).toNat := by
  revert c
  simp only [preCases, List.forall_mem_cons]
  refine ⟨fun _ => ?_, fun _ => ?_, fun _ => ?_, fun _ => ?_, fun _ => ?_, fun _ => ?_,
    fun _ => ?_, fun _ => ?_, fun _ => ?_, fun hname => ?_, fun _ => ?_, by simp⟩
  · unfold ioctlDecodePreMemAlloc
    exact StaysWithin.mono (by decide)
  · unfold ioctlDecodePreMemImport
    exact StaysWithin.mono (by decide)
  · unfold ioctlDecodePreMemCommit
    exact StaysWithin.mono (by decide)
  · unfold ioctlDecodePreMemQuery
    exact StaysWithin.mono (by decide)
  · unfold ioctlDecodePreMemFree
    exact StaysWithin.mono (by decide)
  · unfold ioctlDecodePreMemFlagsChange
    exact StaysWithin.mono (by decide)
  · unfold ioctlDecodePreMemAlias
    exact StaysWithin.mono (by decide)
  · unfold ioctlDecodePreSync
    exact StaysWithin.mono (by decide)
  · unfold ioctlDecodePreSetFlags
    exact StaysWithin.mono (by decide)
  · exact (ioctlDecodePreStreamCreate_within (hname trivial)).mono (by decide)
  · unfold ioctlDecodePreJobSubmit
    exact StaysWithin.mono (by decide)

/-- The decoders after the call. -/
theorem postCases_within {c : IoctlCase} (hc : c ∈ postCases)
    (hgroups : c.1 = maliIoctlGpuPropsRegDump → GroupsFit mem ptr) :
    StaysWithin mem ptr (c.2 ptr) (iocSize c.1).toNat := by
  revert c
  simp only [postCases, List.forall_mem_cons]
  refine ⟨fun _ => ?_, fun _ => ?_, fun _ => ?_, fun _ => ?_, fun _ => ?_, fun _ => ?_,
    fun _ => ?_, fun _ => ?_, fun hgroups => ?_, fun _ => ?_, fun _ => ?_, by simp⟩
  · unfold ioctlDecodePostGetVersion
    exact StaysWithin.mono (by decide)
  · unfold ioctlDecodePostGetVersion
    exact StaysWithin.mono (by decide)
  · unfold ioctlDecodePostMemAlloc
    exact StaysWithin.mono (by decide)
  · unfold ioctlDecodePostMemImport
    exact StaysWithin.mono (by decide)
  · unfold ioctlDecodePostMemCommit
    exact StaysWithin.mono (by decide)
  · unfold ioctlDecodePostMemQuery
    exact StaysWithin.mono (by decide)
  · unfold ioctlDecodePostMemAlias
    exact StaysWithin.mono (by decide)
  · unfold ioctlDecodePostSync
    exact StaysWithin.mono (by decide)
  · exact (ioctlDecodePostGpuPropsRegDump_within (hgroups trivial)).mono (by decide)
  · unfold ioctlDecodePostStreamCreate
    exact StaysWithin.mono (by decide)
  · unfold ioctlDecodePostGetContextId
    exact StaysWithin.mono (by decide)

end Reads

section Stages

variable {stage : IoctlStage} {request : U32} {ptr : U64} {w : World}

theorem DecodesRequest.sizesAgree (h : DecodesRequest stage request ptr w) :
    SizesAgree stage request := by
  intro c hc htype hnr
  have htaken := (ioctlStage_takes_iff ptr hc).mpr ⟨htype, hnr⟩
  exact ((h.chosen c hc).mp htaken).size

theorem SizesAgree.chosen (h : SizesAgree stage request) {c : IoctlCase} (hc : c ∈ stage.cases) :
    stage.Takes request ptr c ↔ Encodes (widenRequest request) c.1 := by
  rw [ioctlStage_takes_iff ptr hc]
  constructor
  · rintro ⟨htype, hnr⟩
    exact ⟨htype, hnr, h c hc htype hnr⟩
  · intro hsame
    exact ⟨hsame.type, hsame.nr⟩

/-- Within the struct of a case, if its contents allow it. -/
theorem ioctlCase_within {c : IoctlCase} (hc : c ∈ stage.cases)
    (hsame : Encodes (widenRequest request) c.1) {mem : Memory}
    (hfit : ContentsFit stage request ptr mem) :
    StaysWithin mem ptr (c.2 ptr) (iocSize c.1).toNat := by
  cases stage with
  | pre =>
    apply preCases_within hc
    intro hlabel
    rw [hlabel] at hsame
    exact hfit.1 rfl hsame
  | post =>
    apply postCases_within hc
    intro hlabel
    rw [hlabel] at hsame
    exact hfit.2 rfl hsame

theorem SizesAgree.within (h : SizesAgree stage request) {mem : Memory}
    (hfit : ContentsFit stage request ptr mem) :
    StaysWithin mem ptr (stage.decode request ptr) (iocSize (widenRequest request)).toNat := by
  rw [ioctlStage_decode_eq]
  cases htaken : switchOn (ioctlCase (widenRequest request)) stage.cases with
  | none =>
    -- the `default` case reads nothing
    exact (within_pure ()).mono (Nat.zero_le _)
  | some c =>
    obtain ⟨hc, hkey⟩ := switchOn_some htaken
    obtain ⟨htype, hnr⟩ := ioctlCase_eq_iff.mp hkey
    have hsize := h c hc htype hnr
    rw [hsize]
    exact ioctlCase_within hc ⟨htype, hnr, hsize⟩ hfit

theorem DecodesRequest.nameEnds (h : DecodesRequest .pre request ptr w)
    (hsame : Encodes (widenRequest request) maliIoctlStreamCreate) : NameEnds w.mem ptr := by
  have hreads := h.reads
  have hcase : (maliIoctlStreamCreate, ioctlDecodePreStreamCreate) ∈ IoctlStage.pre.cases := by
    simp [IoctlStage.cases, preCases]
  obtain ⟨-, hdecode⟩ := (ioctlStage_takes_iff ptr hcase).mpr ⟨hsame.type, hsame.nr⟩
  rw [hdecode, hsame.size] at hreads
  -- the decoder is this one line
  obtain ⟨w', stamp, clocks, hr, -, -, htrace, -⟩ :=
    panwrapLog_run "name = %s\n" [.cstr (ptr + 8)] w
  have hline : Reports (.log stamp w.panwrapIndent "name = %s\n" [.cstr (ptr + 8)]) w w' :=
    ⟨_, htrace, List.mem_append_right clocks (List.mem_singleton.mpr rfl)⟩
  have hall : Unfollowed w w' :=
    ((prints_log "name = %s\n" [.cstr (ptr + 8)]).unfollowed (by decide) w).ok rfl hr
  obtain ⟨k, hend, hk⟩ := hline.within hall rfl (hreads.ok rfl hr) (ptr + 8)
    (List.mem_singleton.mpr rfl)
  have hoffset : ptr + 8 - ptr = 8 := by grind
  rw [hoffset] at hk
  have hinside : 8 + k < 48 := hk
  exact ⟨k, by omega, hend⟩

theorem DecodesRequest.groupsFit (h : DecodesRequest .post request ptr w)
    (hsame : Encodes (widenRequest request) maliIoctlGpuPropsRegDump) : GroupsFit w.mem ptr := by
  have hreads := h.reads
  have hcase : (maliIoctlGpuPropsRegDump, ioctlDecodePostGpuPropsRegDump) ∈
      IoctlStage.post.cases := by
    simp [IoctlStage.cases, postCases]
  obtain ⟨-, hdecode⟩ := (ioctlStage_takes_iff ptr hcase).mpr ⟨hsame.type, hsame.nr⟩
  rw [hdecode, hsame.size] at hreads
  by_contra hmany
  have hload := (gpuProps_leaves (Nat.lt_of_not_le hmany)).within (gpuProps_unfollowed ptr)
    (Sees.self w) hreads
  -- the group behind the last one starts where the struct ends
  have hoffset : ptr + 264 + 16 + 16 * BitVec.ofNat 64 16 - ptr = 536 := by grind
  have hend : (ptr + 264 + 16 + 16 * BitVec.ofNat 64 16 - ptr).toNat + 8 ≤ 536 := hload
  rw [hoffset] at hend
  exact absurd hend (by decide)

/-- A switch tells the requests apart and its decoders keep to the argument exactly if no case
has the type and number of the request with another size, and the contents of the two structs
fit. -/
theorem ioctl_decoders_iff : DecodesRequest stage request ptr w ↔
    SizesAgree stage request ∧ ContentsFit stage request ptr w.mem := by
  constructor
  · intro h
    refine ⟨h.sizesAgree, ?_, ?_⟩
    · rintro rfl hsame
      exact h.nameEnds hsame
    · rintro rfl hsame
      exact h.groupsFit hsame
  · rintro ⟨hsizes, hfit⟩
    exact ⟨fun c hc => hsizes.chosen hc, (hsizes.within hfit).reads w⟩

end Stages

/-- A request of type 0x82 and number 0 with size 8 is decoded as `MEM_ALLOC`, whose struct has
56 bytes. -/
theorem ioctl_size_not_compared :
    (0x1000 : U64) ≠ 0 ∧ ¬DecodesRequest .pre 0xc0088200 0x1000 World.plain := by
  refine ⟨by decide, fun h => ?_⟩
  have hsize := h.sizesAgree (maliIoctlMemAlloc, ioctlDecodePreMemAlloc) List.mem_cons_self
    (by decide) (by decide)
  exact absurd hsize (by decide)

end Panloader
