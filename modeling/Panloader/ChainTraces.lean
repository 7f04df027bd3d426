import Panloader.PrintedLines
import Panloader.Submission

/-! Job chains. The decoder prints the header of the first job and does not go on to the
next one. -/
namespace Panloader
open Effects

def headerFormat : String := "%s job, %d-bit, status %X, incomplete %X\n"

/-- The names of `panwrap_job_type_name`. -/
def jobTypeName (type : U8) : String :=
  if type = jobTypeNull then "NULL"
  else if type = jobTypeSetValue then "SET_VALUE"
  else if type = jobTypeCacheFlush then "CACHE_FLUSH"
  else if type = jobTypeCompute then "COMPUTE"
  else if type = jobTypeVertex then "VERTEX"
  else if type = jobTypeTiler then "TILER"
  else if type = jobTypeFused then "FUSED"
  else if type = jobTypeFragment then "FRAGMENT"
  else if type = jobNotStarted then "NOT_STARTED"
  else "!?!?!?"

/-- `job_type` of the header at `h`. -/
def jobTypeAt (mem : Memory) (h : U64) : U8 := mem.read (h + 16) 1 >>> 1

/-- What the line about the header at `h` says. -/
def headerArgs (mem : Memory) (h : U64) : List Arg :=
  [.str (jobTypeName (jobTypeAt mem h)), .int (if mem.read (h + 16) 1 &&& 1 ≠ 0 then 64 else 32),
    .u32 (mem.read h 4), .u32 (mem.read (h + 4) 4)]

/-- Collects the headers that are printed. -/
def headerObserver : Observer (List (List Arg)) where
  line s format args := if format = headerFormat then s ++ [args] else s
  cont s _ _ := s
  load s _ _ := s

section Headers

variable {t : Tracker} {mem : Memory} {s : List (List Arg)}

/-- A line that is no header. -/
theorem otherLine_shows {format : String} (h : format ≠ headerFormat) (args : List Arg) :
    Shows headerObserver t mem s (panwrapLog format args) () s := by
  have hline := @Shows.log _ headerObserver t mem s format args
  have hsame : headerObserver.line s format args = s := if_neg h
  rwa [hsame] at hline

theorem panwrapJobTypeName_shows (type : U8) :
    Shows headerObserver t mem s (panwrapJobTypeName type) (jobTypeName type) s := by
  unfold panwrapJobTypeName jobTypeName
  repeat refine (Shows.pure _).ite ?_
  exact (otherLine_shows (by decide) _).bind (Shows.pure _)

/-- Whatever the header leads to, one header is printed. -/
theorem panwrapTraceHwChain_shows {jc h : U64}
    (hderef : derefGpuMem t.mmaps (panwrapFindMappedGpuMemContaining t.mmaps jc) jc
      sizeofJobDescriptorHeader = some h) :
    Shows headerObserver t mem [] (panwrapTraceHwChain jc) () [headerArgs mem h] := by
  unfold panwrapTraceHwChain
  apply (Shows.findContaining jc).bind
  apply Shows.deref
  intro h' hderef'
  obtain rfl : h = h' := Option.some.inj (hderef.symm.trans hderef')
  apply (Shows.load 1 (h + 16)).bind
  apply (panwrapJobTypeName_shows _).bind
  apply (Shows.load 4 h).bind
  apply (Shows.load 4 (h + 4)).bind
  apply (Shows.log headerFormat _).bind
  apply (Shows.load 8 (h + 8)).bind
  apply (Shows.load 1 (h + 17)).bind
  apply (Shows.load 2 (h + 18)).bind
  apply (otherLine_shows (by decide) _).bind
  apply (Shows.load 2 (h + 20)).bind
  apply (Shows.load 2 (h + 22)).bind
  apply (otherLine_shows (by decide) _).bind
  apply Shows.indentIncr.bind
  -- the payload is printed without a header
  have hpayload (jobType : U8) (m : Option PanwrapMappedMemory) (payload : U64)
      (s : List (List Arg)) :
      Shows headerObserver t mem s (decodePayload jobType m payload) () s := by
    apply Shows.prints
    · intro f hf args
      have hother : f ≠ headerFormat := by
        rintro rfl
        revert hf
        decide
      exact if_neg hother
    · exact fun _ _ => rfl
    · exact fun _ _ => rfl
    · rfl
  exact (hpayload _ _ _ _).bind Shows.indentDecr

end Headers

section Chains

variable (t : Tracker) (mem : Memory)

/-- The job types that have a decoder. -/
def Supported (type : U8) : Prop :=
  type = jobTypeSetValue ∨ type = jobTypeVertex ∨ type = jobTypeTiler

/-- A chain of jobs from the address `jc` on, with the GPU address of each header and the place
where the CPU has it. It ends with a `next_job` of 0. -/
inductive JobChain : U64 → List (U64 × U64) → Prop
  | nil : JobChain 0 []
  | cons {jc h : U64} {rest : List (U64 × U64)} : jc ≠ 0 →
      Lies t jc sizeofJobDescriptorHeader h → Supported (jobTypeAt mem h) →
      PayloadInside t mem (jobTypeAt mem h) (jc + sizeofJobDescriptorHeader) →
      jc ∉ rest.map Prod.fst → JobChain (mem.read (h + 24) 8) rest →
      JobChain jc ((jc, h) :: rest)

end Chains

/-- The decoder returns and has printed the headers of the chain, in order. -/
def ChainTraced (w : World) (first : U64) (chain : List (U64 × U64)) : Prop :=
  ∃ w' es, panwrapTraceHwChain first w = .ok () w' ∧ w'.trace = w.trace ++ es ∧
    es.foldl headerObserver.step [] = chain.map fun job => headerArgs w.mem job.2

/-- The first job has no next one, its pointers are accepted, and what is found at the pointer to
its header reads like the header. -/
def SingleJobRead (w : World) (first : U64) (chain : List (U64 × U64)) : Prop :=
  ∃ job, chain.head? = some job ∧ w.mem.read (job.2 + 24) 8 = 0 ∧
    ChainFits w.tracker w.mem first ∧
    ∀ h, derefGpuMem w.tracker.mmaps (panwrapFindMappedGpuMemContaining w.tracker.mmaps first)
      first sizeofJobDescriptorHeader = some h → headerArgs w.mem h = headerArgs w.mem job.2

section Traces

variable {w : World} {first : U64} {chain : List (U64 × U64)}

theorem JobChain.tail_eq_nil_iff {t : Tracker} {mem : Memory} {jc : U64} {job : U64 × U64}
    {rest : List (U64 × U64)} (h : JobChain t mem jc (job :: rest)) :
    rest = [] ↔ mem.read (job.2 + 24) 8 = 0 := by
  cases h with
  | @cons _ header _ _ _ _ _ _ hrest =>
    constructor
    · intro hnil
      rw [hnil] at hrest
      generalize mem.read (header + 24) 8 = next at hrest ⊢
      cases hrest
      rfl
    · intro hzero
      have hrest' : JobChain t mem 0 rest := hzero ▸ hrest
      cases hrest' with
      | nil => rfl
      | cons hne => exact absurd rfl hne

/-- A chain is traced exactly if it is one job, whose header is read where it is. -/
theorem job_chain_traced_iff (hchain : JobChain w.tracker w.mem first chain) :
    ChainTraced w first chain ↔ SingleJobRead w first chain := by
  have hok := (panwrapTraceHwChain_decides first).returns_iff (Sees.self w)
  constructor
  · rintro ⟨w', es, hr, htrace, hheaders⟩
    have hfits := hok.mp ⟨w', hr⟩
    obtain ⟨h, hderef, -⟩ := hfits
    rw [Shows.folds (panwrapTraceHwChain_shows hderef) hr htrace] at hheaders
    obtain ⟨job, rest, rfl, hjob, hrest⟩ := List.map_eq_cons_iff.mp hheaders.symm
    refine ⟨job, rfl, hchain.tail_eq_nil_iff.mp (List.map_eq_nil_iff.mp hrest),
      hok.mp ⟨w', hr⟩, fun h' hderef' => ?_⟩
    obtain rfl : h = h' := Option.some.inj (hderef.symm.trans hderef')
    exact hjob.symm
  · rintro ⟨job, hhead, hlast, hfits, hheader⟩
    obtain ⟨rest, rfl⟩ := List.head?_eq_some_iff.mp hhead
    obtain rfl := hchain.tail_eq_nil_iff.mpr hlast
    obtain ⟨w', hr⟩ := hok.mpr hfits
    obtain ⟨h, hderef, -⟩ := hfits
    obtain ⟨-, -, es, htrace, hseen⟩ :=
      panwrapTraceHwChain_shows hderef w () w' (Sees.self w) hr
    refine ⟨w', es, hr, htrace, ?_⟩
    rw [hseen, hheader h hderef]
    rfl

end Traces

/-- Two jobs that set values, at 0x10000 and 0x10040. -/
def twoJobs : Memory := fun a =>
  if a = 0x10010 then 4 else if a = 0x10018 then 0x40 else if a = 0x1001a then 1
  else if a = 0x10050 then 4 else 0

/-- The second job is not printed. -/
theorem job_chain_not_traced :
    JobChain ⟨[], [vertexPage]⟩ twoJobs 0x10000 [(0x10000, 0x10000), (0x10040, 0x10040)] ∧
      ¬ChainTraced { World.plain.withMmaps [vertexPage] with mem := twoJobs } 0x10000
        [(0x10000, 0x10000), (0x10040, 0x10040)] := by
  have hmem : vertexPage ∈ [vertexPage] := List.mem_singleton.mpr rfl
  have hpayload (payload : U64) (h : vertexPage.Covers payload sizeofPayloadSetValue) :
      PayloadInside ⟨[], [vertexPage]⟩ twoJobs jobTypeSetValue payload := by
    rw [PayloadInside, if_pos rfl]
    exact ⟨_, vertexPage, hmem, h, rfl⟩
  constructor
  · refine .cons (by decide) ⟨vertexPage, hmem, by decide, by decide⟩ (.inl (by decide))
      (hpayload _ (by decide)) (by decide) (.cons (by decide)
        ⟨vertexPage, hmem, by decide, by decide⟩ (.inl (by decide)) (hpayload _ (by decide))
        (by decide) ?_)
    have hend : twoJobs.read (0x10040 + 24) 8 = 0 := by decide
    rw [hend]
    exact .nil
  · rintro ⟨w', es, hr, htrace, hheaders⟩
    have hderef : derefGpuMem [vertexPage] (panwrapFindMappedGpuMemContaining [vertexPage] 0x10000)
        0x10000 sizeofJobDescriptorHeader = some 0x10000 := by decide
    rw [Shows.folds (panwrapTraceHwChain_shows hderef) hr htrace] at hheaders
    exact absurd (congrArg List.length hheaders) (by simp)

theorem job_chain_traced_single :
    ChainTraced { World.plain.withMmaps [vertexPage] with mem := vertexSubmission } 0x10000
      [(0x10000, 0x10000)] := by
  have hmem : vertexPage ∈ [vertexPage] := List.mem_singleton.mpr rfl
  have hend : vertexSubmission.read (0x10000 + 24) 8 = 0 := by decide
  have hpayload : PayloadInside ⟨[], [vertexPage]⟩ vertexSubmission jobTypeSetValue 0x10020 := by
    rw [PayloadInside, if_pos rfl]
    exact ⟨0x10020, vertexPage, hmem, by decide, by decide⟩
  have hchain : JobChain ⟨[], [vertexPage]⟩ vertexSubmission 0x10000 [(0x10000, 0x10000)] := by
    refine .cons (by decide) ⟨vertexPage, hmem, by decide, by decide⟩ (.inl (by decide)) hpayload
      (by decide) ?_
    rw [hend]
    exact .nil
  have hfits : ChainFits ⟨[], [vertexPage]⟩ vertexSubmission 0x10000 := by
    refine ⟨0x10000, by decide, ?_⟩
    rw [PayloadFits, if_pos (by decide)]
    exact ⟨0x10020, by decide⟩
  have hsingle : SingleJobRead
      { World.plain.withMmaps [vertexPage] with mem := vertexSubmission } 0x10000
      [(0x10000, 0x10000)] := by
    refine ⟨(0x10000, 0x10000), rfl, hend, hfits, fun h hderef => ?_⟩
    have hsame : derefGpuMem [vertexPage]
        (panwrapFindMappedGpuMemContaining [vertexPage] 0x10000) 0x10000
        sizeofJobDescriptorHeader = some 0x10000 := by decide
    obtain rfl : 0x10000 = h := Option.some.inj (hsame.symm.trans hderef)
    rfl
  exact (job_chain_traced_iff
    (w := { World.plain.withMmaps [vertexPage] with mem := vertexSubmission }) hchain).mpr hsingle

end Panloader
