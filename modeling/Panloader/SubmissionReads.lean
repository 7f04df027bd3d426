import Panloader.AtomDependencies
import Panloader.TracedReads

/-! What tracing a submission reads. Where the dependencies of an atom are listed, the decoder
steps through the array with the number of the atom, and so leaves the array of a submission of
more than six atoms. -/
namespace Panloader
open Effects

set_option synthInstance.maxSize 4000

/-- Some of the `size` bytes from `p` on: the `n` ones at `a`. -/
def Part (p : U64) (size : ℕ) (a : U64) (n : ℕ) : Prop :=
  ∃ k : ℕ, a = p + BitVec.ofNat 64 k ∧ k + n ≤ size

/-- The list of external resources of the atom at `a`. Its count is read also where no resource is
listed. -/
def resourceBytes (mem : Memory) (a : U64) : ℕ := max 8 (16 * (mem.read (a + 32) 2).toNat)

/-- The atoms of the submission at `ptr` and what comes after them. -/
def atomBytes (mem : Memory) (ptr : U64) : ℕ := 48 * nrAtoms mem ptr + 2 * (nrAtoms mem ptr - 6)

/-- What is read for the submission at `ptr`. -/
inductive SubmissionReads (t : Tracker) (mem : Memory) (ptr : U64) : U64 → ℕ → Prop
  | argument {a : U64} {n : ℕ} : Part ptr 24 a n → SubmissionReads t mem ptr a n
  | atoms {a : U64} {n : ℕ} : mem.read (ptr + 20) 4 = sizeofJdAtomV2 →
      Part (mem.read (ptr + 8) 8) (atomBytes mem ptr) a n → SubmissionReads t mem ptr a n
  | resources {i : ℕ} {a : U64} {n : ℕ} : mem.read (ptr + 20) 4 = sizeofJdAtomV2 →
      i < nrAtoms mem ptr → mem.read (atomAt mem ptr i + 24) 8 ≠ 0 →
      Part (mem.read (atomAt mem ptr i + 24) 8) (resourceBytes mem (atomAt mem ptr i)) a n →
      SubmissionReads t mem ptr a n
  | mapped {a : U64} {n : ℕ} : InMapping t a n → SubmissionReads t mem ptr a n

section Parts

variable {t : Tracker} {mem : Memory} {ptr p a : U64} {size n i : ℕ}

theorem Part.at {off : U64} (h : off.toNat + n ≤ size) : Part p size (p + off) n :=
  ⟨off.toNat, by rw [BitVec.ofNat_toNat, BitVec.setWidth_eq], h⟩

theorem Part.start (h : n ≤ size) : Part p size p n :=
  ⟨0, (BitVec.add_zero p).symm, by omega⟩

variable (hstride : mem.read (ptr + 20) 4 = sizeofJdAtomV2)
include hstride

/-- A field of atom `i`. -/
theorem SubmissionReads.field (hi : i < nrAtoms mem ptr) {off : U64} (hoff : off.toNat + n ≤ 48) :
    SubmissionReads t mem ptr (atomAt mem ptr i + off) n := by
  apply SubmissionReads.atoms hstride
  refine ⟨48 * i + off.toNat, ?_, ?_⟩
  · rw [BitVec.ofNat_add, BitVec.ofNat_mul, BitVec.ofNat_toNat, BitVec.setWidth_eq, atomAt,
      BitVec.add_assoc]
    rfl
  · unfold atomBytes
    omega

theorem SubmissionReads.firstField (hi : i < nrAtoms mem ptr) (hn : n ≤ 48) :
    SubmissionReads t mem ptr (atomAt mem ptr i) n := by
  have hzero : atomAt mem ptr i + 0 = atomAt mem ptr i := BitVec.add_zero _
  rw [← hzero]
  apply SubmissionReads.field hstride hi
  simpa using hn

/-- The element that is listed for atom `i` begins 2 bytes further into its atom than the one for
the atom before it. -/
theorem SubmissionReads.dependency (hi : i < nrAtoms mem ptr) {k : ℕ} (hk : k + n ≤ 2) :
    SubmissionReads t mem ptr (preDep (atomAt mem ptr i) i + BitVec.ofNat 64 k) n := by
  apply SubmissionReads.atoms hstride
  refine ⟨48 * i + (36 + (2 * i + k)), ?_, ?_⟩
  · simp only [BitVec.ofNat_add, BitVec.ofNat_mul, preDep, atomAt, BitVec.add_assoc]
    rfl
  · unfold atomBytes
    omega

end Parts

section Flags

instance untouching_logFlagNames (info : List PanwrapFlagInfo) (flags : U64) (found : Bool) :
    Untouching (logFlagNames info flags found) := by
  induction info generalizing flags found with
  | nil => exact untouching_pure _
  | cons i rest ih =>
    unfold logFlagNames
    infer_instance

instance untouching_panwrapLogDecodedFlags (info : List PanwrapFlagInfo) (flags : U64) :
    Untouching (panwrapLogDecodedFlags info flags) := by
  unfold panwrapLogDecodedFlags
  infer_instance

instance untouching_logFlagsLine (text : String) (info : List PanwrapFlagInfo) (flags : U64) :
    Untouching (logFlagsLine text info flags) := by
  unfold logFlagsLine
  infer_instance

instance untouching_ioctlLogDecodedJdCoreReq (req : U32) :
    Untouching (ioctlLogDecodedJdCoreReq req) := by
  have hsoft (o : Option (U32 × String)) : Untouching (logSoftFlag o) := by
    cases o <;> unfold logSoftFlag <;> infer_instance
  unfold ioctlLogDecodedJdCoreReq
  infer_instance

end Flags

section Decoders

variable {t : Tracker} {mem : Memory} {ptr : U64} {i : ℕ}
  (hstride : mem.read (ptr + 20) 4 = sizeofJdAtomV2) (hi : i < nrAtoms mem ptr)
include hstride hi

theorem confined_externalResources :
    Confined (SubmissionReads t mem ptr) t mem
      (logExternalResources (mem.read (atomAt mem ptr i + 24) 8)
        (mem.read (atomAt mem ptr i + 32) 2)) := by
  apply Confined.ite
  · intro hlist
    have hpart {k n : ℕ} (hk : k + n ≤ resourceBytes mem (atomAt mem ptr i)) :
        SubmissionReads t mem ptr (mem.read (atomAt mem ptr i + 24) 8 + BitVec.ofNat 64 k) n :=
      .resources hstride hi hlist ⟨k, rfl, hk⟩
    have hcount : SubmissionReads t mem ptr (mem.read (atomAt mem ptr i + 24) 8) 8 :=
      .resources hstride hi hlist (Part.start (Nat.le_max_left _ _))
    apply Confined.load hcount
    apply Confined.seq
    intro _
    apply Confined.seq
    intro _
    apply Confined.seq
    intro _
    apply Confined.bind
    · apply Confined.forInt
      intro j hj
      have hfits : 16 * j + 8 + 8 ≤ resourceBytes mem (atomAt mem ptr i) := by
        unfold resourceBytes
        omega
      have hentry := hpart hfits
      rw [BitVec.ofNat_add, BitVec.ofNat_mul, ← BitVec.add_assoc] at hentry
      apply Confined.load hentry
      exact Confined.quiet
    · intro _
      exact Confined.quiet
  · intro _
    exact Confined.quiet

theorem confined_preDependencies :
    Confined (SubmissionReads t mem ptr) t mem (logPreDependencies (atomAt mem ptr i) i) := by
  have hatomId : SubmissionReads t mem ptr (preDep (atomAt mem ptr i) i) 1 := by
    have h := SubmissionReads.dependency (t := t) hstride hi (k := 0) (n := 1) (by decide)
    rwa [BitVec.add_zero] at h
  have htype : SubmissionReads t mem ptr (preDep (atomAt mem ptr i) i + 1) 1 :=
    SubmissionReads.dependency hstride hi (by decide)
  unfold logPreDependencies
  apply Confined.seq
  intro _
  apply Confined.seq
  intro _
  apply Confined.bind
  · apply Confined.forInt
    intro _ _
    dsimp only
    apply Confined.load hatomId
    apply Confined.seq
    intro _
    apply Confined.load htype
    exact Confined.quiet
  · intro _
    exact Confined.quiet

theorem confined_atom
    (hchain : Confined (InMapping t) t mem (panwrapTraceHwChain (mem.read (atomAt mem ptr i) 8))) :
    Confined (SubmissionReads t mem ptr) t mem (decodeAtom (atomAt mem ptr i) i) := by
  have hfield {n : ℕ} (off : U64) (hoff : off.toNat + n ≤ 48) :
      SubmissionReads t mem ptr (atomAt mem ptr i + off) n := .field hstride hi hoff
  unfold decodeAtom
  apply Confined.load (SubmissionReads.firstField hstride hi (by decide))
  iterate 4
    apply Confined.seq
    intro _
  apply (hchain.mono fun _ _ => SubmissionReads.mapped).bind
  intro _
  apply Confined.seq
  intro _
  apply Confined.load (hfield 8 (by decide))
  apply Confined.load (hfield 16 (by decide))
  apply Confined.seq
  intro _
  apply Confined.load (hfield 32 (by decide))
  apply Confined.seq
  intro _
  apply Confined.load (hfield 24 (by decide))
  apply (confined_externalResources hstride hi).bind
  intro _
  apply Confined.load (hfield 34 (by decide))
  apply Confined.seq
  intro _
  apply (confined_preDependencies hstride hi).bind
  intro _
  apply Confined.load (hfield 40 (by decide))
  apply Confined.seq
  intro _
  apply Confined.load (hfield 41 (by decide))
  apply Confined.seq
  intro _
  apply Confined.load (hfield 42 (by decide))
  apply Confined.seq
  intro _
  apply Confined.load (hfield 44 (by decide))
  exact Confined.quiet

end Decoders

theorem confined_submission {t : Tracker} {mem : Memory} {ptr : U64}
    (hchains : ∀ i < nrAtoms mem ptr,
      Confined (InMapping t) t mem (panwrapTraceHwChain (mem.read (atomAt mem ptr i) 8))) :
    Confined (SubmissionReads t mem ptr) t mem (ioctlDecodePreJobSubmit ptr) := by
  unfold ioctlDecodePreJobSubmit
  apply Confined.load (.argument (Part.at (by decide)))
  apply Confined.load (.argument (Part.at (by decide)))
  apply Confined.load (.argument (Part.at (by decide)))
  iterate 3
    apply Confined.seq
    intro _
  apply Confined.ite
  · intro _
    exact Confined.quiet
  · intro hstride
    apply Confined.seq
    intro _
    apply Confined.seq
    intro _
    apply Confined.bind
    · apply Confined.forInt
      intro i hi
      exact confined_atom (not_not.mp hstride) hi (hchains i hi)
    · intro _
      exact Confined.quiet

section Overrun

variable {mem : Memory} {ptr : U64} {n : ℕ}

/-- What is noted as read where dependencies are listed has been read. -/
theorem load_of_noted {es : List Event} {s : AtomLog} {r : ℕ × U64 × ℕ}
    (h : r ∈ (es.foldl atomObserver.step s).reads) : r ∈ s.reads ∨ .load r.2.1 r.2.2 ∈ es := by
  induction es generalizing s with
  | nil => exact .inl h
  | cons e es ih =>
    obtain hfirst | hlater := ih h
    · obtain hold | hnew : r ∈ s.reads ∨ e = .load r.2.1 r.2.2 := by
        cases e with
        | load a k =>
          simp only [Observer.step, atomObserver] at hfirst
          split_ifs at hfirst
          · obtain hold | hnew := List.mem_append.mp hfirst
            · exact .inl hold
            · rw [List.mem_singleton.mp hnew]
              exact .inr rfl
          · exact .inl hfirst
        | log stamp indent format args =>
          simp only [Observer.step, atomObserver, AtomLog.report] at hfirst
          split_ifs at hfirst <;> exact .inl hfirst
        | cont format args =>
          simp only [Observer.step, atomObserver, AtomLog.report] at hfirst
          split_ifs at hfirst <;> exact .inl hfirst
        | indent level =>
          simp only [Observer.step, atomObserver, AtomLog.indent] at hfirst
          split at hfirst <;> exact .inl hfirst
        | clock | hexdump | real => exact .inl hfirst
      · exact .inl hold
      · exact .inr (hnew ▸ List.mem_cons_self)
    · exact .inr (List.mem_cons_of_mem e hlater)

/-- The second byte of the element that is listed for the last atom. -/
theorem lastDependency (hn : nrAtoms mem ptr = n+1) (hfew : 6 ≤ n) :
    preDep (atomAt mem ptr n) n + 1 =
      mem.read (ptr + 8) 8 + BitVec.ofNat 64 (atomBytes mem ptr - 1) := by
  have hoffset : atomBytes mem ptr - 1 = 48 * n + (36 + (2 * n + 1)) := by
    unfold atomBytes
    omega
  simp only [hoffset, BitVec.ofNat_add, BitVec.ofNat_mul, preDep, atomAt, BitVec.add_assoc]
  rfl

theorem lastDependency_read {w w' : World} (hstride : w.mem.read (ptr + 20) 4 = sizeofJdAtomV2)
    (hmany : 6 < nrAtoms w.mem ptr) (hr : ioctlDecodePreJobSubmit ptr w = .ok () w') :
    .load (w.mem.read (ptr + 8) 8 + BitVec.ofNat 64 (atomBytes w.mem ptr - 1)) 1 ∈
      w.eventsOf (ioctlDecodePreJobSubmit ptr) := by
  obtain ⟨n, hn⟩ : ∃ n, nrAtoms w.mem ptr = n+1 :=
    Nat.exists_eq_succ_of_ne_zero (by omega)
  obtain ⟨-, -, es, htrace, hseen⟩ :=
    ioctlDecodePreJobSubmit_shows hstride w () w' (Sees.self w) hr
  have hafter : (w.after (ioctlDecodePreJobSubmit ptr)).trace = w.trace ++ es := by
    rw [World.after, hr]
    exact htrace
  have hnoted : (n+1, preDep (atomAt w.mem ptr n) n + 1, 1) ∈
      (es.foldl atomObserver.step ⟨[], [], 0, .outside⟩).reads := by
    rw [hseen, hn]
    apply List.mem_flatMap.mpr
    exact ⟨n, List.mem_range.mpr (Nat.lt_succ_self n), by simp [dependencyReads]⟩
  rw [World.eventsOf_eq hafter, ← lastDependency hn (by omega)]
  exact (load_of_noted hnoted).resolve_left List.not_mem_nil

end Overrun

/-- In every reachable state in which addresses are translated correctly, and for all contents of
memory, tracing a submission reads its argument, its atoms, the lists of their external resources
and tracked memory, and of what comes after the array of atoms no more than 2 bytes for each atom
after the sixth. These it does read if it gets to the end. -/
theorem submission_reads {enableTimestamps enableHexdumpTrimming : Bool}
    {clock : ℕ → Timespec} {steps : List Step} {w : World}
    (hrun : Run (World.initial enableTimestamps enableHexdumpTrimming clock) steps w)
    (hsame : ∀ m ∈ w.tracker.mmaps, m.flags &&& maliMemSameVa ≠ 0 ∨ m.Symmetric)
    (hlow : ∀ m ∈ w.tracker.mmaps, m.gpuVa.toNat + m.length.toNat ≤ 2^63) (mem : Memory) (ptr : U64)
    (hsizes : ∀ i < nrAtoms mem ptr, ∀ attr,
      JobNames w.tracker mem (mem.read (atomAt mem ptr i) 8) attr →
        (mem.read (attr + 16) 8).toNat < 2^63) :
    (∀ a n, .load a n ∈ World.eventsOf { w with mem := mem } (ioctlDecodePreJobSubmit ptr) →
      SubmissionReads w.tracker mem ptr a n) ∧
    ((∃ w', ioctlDecodePreJobSubmit ptr { w with mem := mem } = .ok () w') →
      mem.read (ptr + 20) 4 = sizeofJdAtomV2 → 6 < nrAtoms mem ptr →
      .load (mem.read (ptr + 8) 8 + BitVec.ofNat 64 (atomBytes mem ptr - 1)) 1 ∈
        World.eventsOf { w with mem := mem } (ioctlDecodePreJobSubmit ptr)) := by
  have ht := hrun.translates hsame hlow
  have hsees : Sees w.tracker mem { w with mem := mem } := ⟨rfl, rfl⟩
  have hchains : ∀ i < nrAtoms mem ptr, Confined (InMapping w.tracker) w.tracker mem
      (panwrapTraceHwChain (mem.read (atomAt mem ptr i) 8)) :=
    fun i hi => confined_chain ht (hsizes i hi)
  constructor
  · intro a n hload
    exact (confined_submission hchains).eventsOf hsees _ hload
  · rintro ⟨w', hr⟩ hstride hmany
    exact lastDependency_read (w := { w with mem := mem }) hstride hmany hr

/-- A submission at 0x4000 of seven atoms, whose jobs are all the one at 0x1000, which sets a
value. -/
def sevenAtoms : Memory := fun a =>
  if a = 0x1010 then 4
  else if a = 0x4009 then 0x50
  else if a = 0x4010 then 7
  else if a = 0x4014 then 48
  else if (a - 0x5000).toNat < 336 ∧ (a - 0x5000).toNat % 48 = 1 then 0x10
  else 0

/-- The byte at 0x5151 is not one of the 336 at 0x5000. -/
theorem submission_reads_seven : ∃ steps w, Run World.plain steps w ∧
    (∀ a n, .load a n ∈
      World.eventsOf { w with mem := sevenAtoms } (ioctlDecodePreJobSubmit 0x4000) →
      SubmissionReads w.tracker sevenAtoms 0x4000 a n) ∧
    .load 0x5151 1 ∈
      World.eventsOf { w with mem := sevenAtoms } (ioctlDecodePreJobSubmit 0x4000) := by
  obtain ⟨steps, w, hrun, ht, hsame, hlow⟩ := lowPage_run
  have hjobs : ∀ i < 7, sevenAtoms.read (atomAt sevenAtoms 0x4000 i) 8 = 0x1000 := by
    decide +kernel
  have hnr : nrAtoms sevenAtoms 0x4000 = 7 := by decide +kernel
  have hsetValue : sevenAtoms.read (0x1000 + 16) 1 >>> 1 = jobTypeSetValue := by decide +kernel
  have hsizes : ∀ i < nrAtoms sevenAtoms 0x4000, ∀ attr,
      JobNames w.tracker sevenAtoms (sevenAtoms.read (atomAt sevenAtoms 0x4000 i) 8) attr →
        (sevenAtoms.read (attr + 16) 8).toNat < 2^63 := by
    intro i hi attr hnames
    rw [hjobs i (hnr ▸ hi)] at hnames
    obtain ⟨h, hh, htype, -⟩ := hnames
    rw [ht] at hh
    obtain rfl : 0x1000 = h := Option.some.inj hh
    rw [hsetValue] at htype
    exact absurd htype (by decide)
  obtain ⟨hreads, hoverrun⟩ := submission_reads hrun hsame hlow sevenAtoms 0x4000 hsizes
  have hstride : sevenAtoms.read (0x4000 + 20) 4 = sizeofJdAtomV2 := by decide +kernel
  have hfits : AtomsFit w.tracker sevenAtoms 0x4000 := by
    refine ⟨by rw [hnr]; decide, fun i hi => ?_⟩
    rw [hjobs i (hnr ▸ hi), ht]
    refine ⟨0x1000, by decide, ?_⟩
    rw [PayloadFits, if_pos hsetValue]
    exact ⟨0x1020, by decide⟩
  have hreturns : ∃ w', ioctlDecodePreJobSubmit 0x4000 { w with mem := sevenAtoms } = .ok () w' :=
    ((ioctlDecodePreJobSubmit_decides hstride).returns_iff ⟨rfl, rfl⟩).mpr hfits
  have hlast := hoverrun hreturns hstride (by rw [hnr]; decide)
  have haddr : sevenAtoms.read (0x4000 + 8) 8 = 0x5000 := by decide +kernel
  rw [atomBytes, hnr, haddr] at hlast
  exact ⟨steps, w, hrun, hreads, hlast⟩

end Panloader
