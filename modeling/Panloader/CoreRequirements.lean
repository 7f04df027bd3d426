import Mathlib.Tactic.SplitIfs
import Panloader.MaskDecomposition
import Panloader.Observers
import Panloader.Runs

/-! How a job's core requirements are decoded, beside the masks of the header. -/
namespace Panloader
open Effects

/-- The soft job type that an event names. -/
def Event.softName : Event → Option String
  | .cont format [.str name] => if format = "%s)" then some name else none
  | _ => none

/-- For a soft job the type under `MALI_JD_REQ_SOFT_JOB_TYPE` is named, and `???` is printed only
where it is none of the defined ones. -/
def SoftTypeNamed (req : U32) (es : List Event) : Prop :=
  req &&& maliJdReqSoftJob ≠ 0 →
    (∀ s ∈ softFlags, s.1 = req &&& maliJdReqSoftJobType → es.filterMap Event.softName = [s.2]) ∧
    (.cont "???)" [] ∈ es → ∀ s ∈ softFlags, s.1 ≠ req &&& maliJdReqSoftJobType)

/-- The job type agrees with `MALI_JD_REQ_SOFT_JOB_OR_DEP` and `MALI_JD_REQ_ATOM_TYPE`. -/
structure JobTypeAgrees (req : U32) : Prop where
  softOrDep : ioctlGetJobTypeFromJdCoreReq req = "Soft job" ∨
    ioctlGetJobTypeFromJdCoreReq req = "Dependency only job" ↔ maliJdReqSoftJobOrDep req = true
  dep : ioctlGetJobTypeFromJdCoreReq req = "Dependency only job" ↔
    req &&& maliJdReqAtomType = 0

section SoftTypes

variable {req : U32}

theorem softFlags_find? : ∀ s ∈ softFlags, softFlags.find? (fun r => r.1 == s.1) = some s := by
  decide

theorem softFlags_masked : ∀ s ∈ softFlags, s.1 &&& maliJdReqSoftJobType = s.1 := by decide

theorem softJob_events (w : World) (hsoft : req &&& maliJdReqSoftJob ≠ 0) :
    w.eventsOf (ioctlLogDecodedJdCoreReq req) = [.cont "0x%010x (" [.u32 req],
      match softFlags.find? (fun s => s.1 == req) with
      | some s => .cont "%s)" [.str s.2]
      | none => .cont "???)" []] := by
  apply World.eventsOf_eq
  unfold ioctlLogDecodedJdCoreReq
  rw [if_pos hsoft]
  cases softFlags.find? (fun s => s.1 == req) with
  | some s => exact List.append_assoc _ _ _
  | none => exact List.append_assoc _ _ _

/-- The switch is on the whole word, so a flag beside a defined type hides the type. -/
theorem softTypeNamed_iff (w : World) :
    SoftTypeNamed req (w.eventsOf (ioctlLogDecodedJdCoreReq req)) ↔
      (req &&& maliJdReqSoftJob ≠ 0 →
        (∃ s ∈ softFlags, s.1 = req &&& maliJdReqSoftJobType) →
          req &&& ~~~maliJdReqSoftJobType = 0) := by
  apply imp_congr_right
  intro hsoft
  rw [softJob_events w hsoft]
  cases hfind : softFlags.find? (fun s => s.1 == req) with
  | some r =>
    -- the word is a type, without any flag
    obtain rfl : r.1 = req := by simpa using List.find?_some hfind
    have hmasked : r.1 &&& maliJdReqSoftJobType = r.1 :=
      softFlags_masked r (List.mem_of_find?_eq_some hfind)
    refine iff_of_true ⟨?_, ?_⟩ fun _ => Masks.and_eq_self_iff.mp hmasked
    · intro s hs hkey
      rw [hmasked] at hkey
      rw [← hkey, softFlags_find? s hs] at hfind
      obtain rfl := Option.some.inj hfind
      rfl
    · intro hunknown
      exact absurd hunknown (by simp)
  | none =>
    have hnot : ∀ s ∈ softFlags, s.1 ≠ req := by
      intro s hs hkey
      simpa [hkey] using List.find?_eq_none.mp hfind s hs
    constructor
    · rintro ⟨-, hunknown⟩ ⟨s, hs, hkey⟩
      exact absurd hkey (hunknown (by simp) s hs)
    · intro hplain
      have hundefined : ∀ s ∈ softFlags, s.1 ≠ req &&& maliJdReqSoftJobType := by
        intro s hs hkey
        have hall := Masks.and_eq_self_iff.mpr (hplain ⟨s, hs, hkey⟩)
        exact hnot s hs (hkey.trans hall)
      exact ⟨fun s hs hkey => absurd hkey (hundefined s hs), fun _ => hundefined⟩

end SoftTypes

section JobTypes

variable {req : U32}

/-- The bits that the switch on the job type looks at. -/
def shaderBits : U32 := maliJdReqFs ||| maliJdReqCs ||| maliJdReqT

theorem jobType_of_soft (hsoft : req &&& maliJdReqSoftJob ≠ 0) :
    ioctlGetJobTypeFromJdCoreReq req = "Soft job" := by
  unfold ioctlGetJobTypeFromJdCoreReq
  rw [if_pos hsoft]

theorem jobType_of_compute (hsoft : req &&& maliJdReqSoftJob = 0)
    (hcompute : req &&& maliJdReqOnlyCompute ≠ 0) :
    ioctlGetJobTypeFromJdCoreReq req = "Compute Shader Job" := by
  unfold ioctlGetJobTypeFromJdCoreReq
  rw [if_neg (not_not.mpr hsoft), if_pos hcompute]

theorem jobType_of_dep (hsoft : req &&& maliJdReqSoftJob = 0)
    (hcompute : req &&& maliJdReqOnlyCompute = 0) (hshader : req &&& shaderBits = 0) :
    ioctlGetJobTypeFromJdCoreReq req = "Dependency only job" := by
  unfold ioctlGetJobTypeFromJdCoreReq
  rw [if_neg (not_not.mpr hsoft), if_neg (not_not.mpr hcompute)]
  exact if_pos hshader

theorem jobType_of_shader (hsoft : req &&& maliJdReqSoftJob = 0)
    (hcompute : req &&& maliJdReqOnlyCompute = 0) (hshader : req &&& shaderBits ≠ 0) :
    ioctlGetJobTypeFromJdCoreReq req ≠ "Soft job" ∧
      ioctlGetJobTypeFromJdCoreReq req ≠ "Dependency only job" := by
  have hdep : req &&& (maliJdReqFs ||| maliJdReqCs ||| maliJdReqT) ≠ maliJdReqDep := hshader
  unfold ioctlGetJobTypeFromJdCoreReq
  dsimp only
  rw [if_neg (not_not.mpr hsoft), if_neg (not_not.mpr hcompute), if_neg hdep]
  split_ifs <;> decide

theorem atomType_eq_zero_iff :
    req &&& maliJdReqAtomType = 0 ↔ req &&& shaderBits = 0 ∧
      req &&& (maliJdReqCf ||| maliJdReqV) = 0 ∧ req &&& maliJdReqSoftJob = 0 ∧
      req &&& maliJdReqOnlyCompute = 0 := by
  have hunion : maliJdReqAtomType = shaderBits ||| ((maliJdReqCf ||| maliJdReqV) |||
      (maliJdReqSoftJob ||| maliJdReqOnlyCompute)) := by decide
  rw [hunion, Masks.and_or_eq_zero_iff,
    Masks.and_or_eq_zero_iff (m := maliJdReqCf ||| maliJdReqV),
    Masks.and_or_eq_zero_iff (m := maliJdReqSoftJob)]

theorem softJobOrDep_iff :
    maliJdReqSoftJobOrDep req = true ↔
      req &&& maliJdReqSoftJob ≠ 0 ∨ req &&& maliJdReqAtomType = 0 := by
  unfold maliJdReqSoftJobOrDep
  rw [Bool.or_eq_true]
  exact or_congr decide_eq_true_iff decide_eq_true_iff

/-- The bits `CF` and `V` play no part in the job type. -/
theorem jobTypeAgrees_iff :
    JobTypeAgrees req ↔
      (req &&& maliJdReqSoftJob = 0 → req &&& maliJdReqOnlyCompute = 0 →
        req &&& shaderBits = 0 → req &&& (maliJdReqCf ||| maliJdReqV) = 0) := by
  by_cases hsoft : req &&& maliJdReqSoftJob = 0
  · by_cases hcompute : req &&& maliJdReqOnlyCompute = 0
    · by_cases hshader : req &&& shaderBits = 0
      · -- the type is that of a dependency
        have htype := jobType_of_dep hsoft hcompute hshader
        constructor
        · intro h _ _ _
          exact (atomType_eq_zero_iff.mp (h.dep.mp htype)).2.1
        · intro h
          have hatom := atomType_eq_zero_iff.mpr
            ⟨hshader, h hsoft hcompute hshader, hsoft, hcompute⟩
          exact ⟨iff_of_true (.inr htype) (softJobOrDep_iff.mpr (.inr hatom)),
            iff_of_true htype hatom⟩
      · obtain ⟨hnotSoft, hnotDep⟩ := jobType_of_shader hsoft hcompute hshader
        have hatom : req &&& maliJdReqAtomType ≠ 0 :=
          fun h => hshader (atomType_eq_zero_iff.mp h).1
        refine iff_of_true ⟨iff_of_false ?_ ?_, iff_of_false hnotDep hatom⟩
          fun _ _ h => absurd h hshader
        · exact not_or.mpr ⟨hnotSoft, hnotDep⟩
        · rw [softJobOrDep_iff]
          exact not_or.mpr ⟨not_not.mpr hsoft, hatom⟩
    · have htype := jobType_of_compute hsoft hcompute
      have hatom : req &&& maliJdReqAtomType ≠ 0 :=
        fun h => hcompute (atomType_eq_zero_iff.mp h).2.2.2
      refine iff_of_true ⟨iff_of_false ?_ ?_, iff_of_false ?_ hatom⟩
        fun _ h => absurd h hcompute
      · rw [htype]
        decide
      · rw [softJobOrDep_iff]
        exact not_or.mpr ⟨not_not.mpr hsoft, hatom⟩
      · rw [htype]
        decide
  · have htype := jobType_of_soft hsoft
    have hatom : req &&& maliJdReqAtomType ≠ 0 :=
      fun h => hsoft (atomType_eq_zero_iff.mp h).2.2.1
    refine iff_of_true ⟨iff_of_true (.inl htype) (softJobOrDep_iff.mpr (.inl hsoft)),
      iff_of_false ?_ hatom⟩ fun h => absurd h hsoft
    rw [htype]
    decide

end JobTypes

/-- Both decoders agree with the masks of the header on exactly these words: a soft job of a
defined type has no bit outside `MALI_JD_REQ_SOFT_JOB_TYPE`, and a job without any shader has
neither `CF` nor `V`. -/
theorem core_req_decoded_iff (req : U32) (w : World) :
    SoftTypeNamed req (w.eventsOf (ioctlLogDecodedJdCoreReq req)) ∧ JobTypeAgrees req ↔
      (req &&& maliJdReqSoftJob ≠ 0 →
        (∃ s ∈ softFlags, s.1 = req &&& maliJdReqSoftJobType) →
          req &&& ~~~maliJdReqSoftJobType = 0) ∧
      (req &&& maliJdReqSoftJob = 0 → req &&& maliJdReqOnlyCompute = 0 →
        req &&& shaderBits = 0 → req &&& (maliJdReqCf ||| maliJdReqV) = 0) := by
  rw [softTypeNamed_iff, jobTypeAgrees_iff]

/-- A replay job with a flag beside its type is printed as `???`. -/
theorem flagged_soft_job_not_named :
    ¬(SoftTypeNamed 0x304 (World.plain.eventsOf (ioctlLogDecodedJdCoreReq 0x304)) ∧
      JobTypeAgrees 0x304) := by
  rw [softTypeNamed_iff]
  intro h
  have hplain := h.1 (by decide)
    ⟨(maliJdReqSoftJob ||| 0x4, "SOFT_REPLAY"), by decide, by decide⟩
  exact absurd hplain (by decide)

end Panloader
