import Panloader.Runs

/-! The checked translation of GPU addresses: when the comparison keeps an access inside its
mapping, and when the pointer it returns is the right one. -/
namespace Panloader
open Effects

/-- The access of `size` bytes at `gpuVa` lies inside the GPU range of `m`, as integers. -/
def PanwrapMappedMemory.Covers (m : PanwrapMappedMemory) (gpuVa size : U64) : Prop :=
  m.gpuVa.toNat ≤ gpuVa.toNat ∧
    gpuVa.toNat + size.toNat ≤ m.gpuVa.toNat + m.length.toNat

/-- The GPU range of `m` does not wrap around. -/
def PanwrapMappedMemory.GpuFits (m : PanwrapMappedMemory) : Prop :=
  m.gpuVa.toNat + m.length.toNat < 2^64

/-- The sum that is compared with the length does not come out small by wrapping around. -/
def PanwrapMappedMemory.SumHonest (m : PanwrapMappedMemory) (gpuVa size : U64) : Prop :=
  (gpuVa - m.gpuVa).toNat + size.toNat < 2^64 ∨
    2^64 + m.length.toNat < (gpuVa - m.gpuVa).toNat + size.toNat

instance (m : PanwrapMappedMemory) (gpuVa size : U64) : Decidable (m.Covers gpuVa size) := by
  unfold PanwrapMappedMemory.Covers
  infer_instance

instance (m : PanwrapMappedMemory) : Decidable m.GpuFits := by
  unfold PanwrapMappedMemory.GpuFits
  infer_instance

instance (m : PanwrapMappedMemory) (gpuVa size : U64) : Decidable (m.SumHonest gpuVa size) := by
  unfold PanwrapMappedMemory.SumHonest
  infer_instance

section Dereference

variable {w w' : World} {mem : Option PanwrapMappedMemory} {gpuVa size p : U64} {line : ℕ}
  {filename : String}

/-- The function returns when the pure translation has a result. -/
theorem panwrapDerefGpuMem_ok_iff :
    panwrapDerefGpuMem mem gpuVa size line filename w = .ok p w' ↔
      derefGpuMem w.tracker.mmaps mem gpuVa size = some p ∧ w' = w := by
  cases h : derefGpuMem w.tracker.mmaps mem gpuVa size with
  | none =>
    obtain ⟨e, u, hstop⟩ := panwrapDerefMemErr_error (α := U64)
      (usedMapping w.tracker.mmaps mem gpuVa) gpuVa size line filename w
    rw [panwrapDerefGpuMem_none line filename h, hstop]
    constructor
    · intro hr
      exact nomatch hr
    · rintro ⟨hn, -⟩
      exact nomatch hn
  | some q =>
    rw [panwrapDerefGpuMem_some line filename h]
    constructor
    · intro hr
      cases hr
      exact ⟨rfl, rfl⟩
    · rintro ⟨hq, rfl⟩
      rw [Option.some.inj hq]

theorem derefGpuMem_eq_some_iff {mmaps : List PanwrapMappedMemory} :
    derefGpuMem mmaps mem gpuVa size = some p ↔
      ∃ m, usedMapping mmaps mem gpuVa = some m ∧ m.rejects gpuVa size = false ∧
        m.translate gpuVa = p := by
  unfold derefGpuMem
  cases usedMapping mmaps mem gpuVa with
  | none => simp
  | some m => cases hr : m.rejects gpuVa size <;> simp [hr]

end Dereference

section Bounds

variable {m : PanwrapMappedMemory} {gpuVa size : U64}

theorem not_rejects_iff :
    m.rejects gpuVa size = false ↔
      (size.toNat + (gpuVa - m.gpuVa).toNat) % 2^64 ≤ m.length.toNat := by
  rw [PanwrapMappedMemory.rejects, decide_eq_false_iff_not, BitVec.not_lt, BitVec.le_def,
    BitVec.toNat_add]

/-- The distance of an access from the start of a mapping below it. -/
theorem offset_above (hle : m.gpuVa.toNat ≤ gpuVa.toNat) :
    (gpuVa - m.gpuVa).toNat = gpuVa.toNat - m.gpuVa.toNat :=
  BitVec.toNat_sub_of_le (BitVec.le_def.mpr hle)

/-- An access inside the range passes the comparison. -/
theorem PanwrapMappedMemory.Covers.not_rejects (h : m.Covers gpuVa size) :
    m.rejects gpuVa size = false := by
  obtain ⟨hlow, hhigh⟩ := h
  have hoff := offset_above hlow
  have hlen := m.length.isLt
  have hlt : gpuVa.toNat - m.gpuVa.toNat + size.toNat < 2^64 := by omega
  rw [not_rejects_iff, hoff, Nat.add_comm, Nat.mod_eq_of_lt hlt]
  omega

/-- Where the mapping does not wrap, an access below it is as far off as an access behind it. -/
theorem offset_below (hfits : m.GpuFits) (hlt : gpuVa.toNat < m.gpuVa.toNat) :
    m.length.toNat < (gpuVa - m.gpuVa).toNat := by
  have hoff : (gpuVa - m.gpuVa).toNat = 2^64 - (m.gpuVa.toNat - gpuVa.toNat) :=
    BitVec.toNat_sub_of_lt (BitVec.lt_def.mpr hlt)
  unfold PanwrapMappedMemory.GpuFits at hfits
  omega

/-- The comparison passes exactly the accesses inside the range, as long as its sum is
honest. -/
theorem covers_of_not_rejects_iff (hfits : m.GpuFits) :
    (m.rejects gpuVa size = false → m.Covers gpuVa size) ↔ m.SumHonest gpuVa size := by
  have hsize := size.isLt
  have hoff := (gpuVa - m.gpuVa).isLt
  rw [not_rejects_iff, Nat.add_comm]
  constructor
  · intro h
    by_cases hwrap : (gpuVa - m.gpuVa).toNat + size.toNat < 2^64
    · exact .inl hwrap
    · -- a sum that wraps to at most the length would let an access through
      refine .inr (Nat.lt_of_not_le fun hle => ?_)
      obtain ⟨hlow, hhigh⟩ := h (by omega)
      have hdiff := offset_above hlow
      unfold PanwrapMappedMemory.GpuFits at hfits
      omega
  · rintro (hsum | hsum) hle
    · rw [Nat.mod_eq_of_lt hsum] at hle
      have hlow : m.gpuVa.toNat ≤ gpuVa.toNat := by
        apply Nat.le_of_not_lt
        intro hlt
        have hfar := offset_below hfits hlt
        omega
      have hdiff := offset_above hlow
      exact ⟨hlow, by omega⟩
    · omega

end Bounds

/-- A returned pointer means an access inside the mapping that was used, for exactly the
accesses whose sum is honest in it. -/
theorem returned_access_covered_iff {w : World} {mem : Option PanwrapMappedMemory}
    (gpuVa size : U64) (line : ℕ) (filename : String)
    (hfits : ∀ m ∈ w.tracker.mmaps, m.GpuFits)
    (hmem : ∀ m, mem = some m → m ∈ w.tracker.mmaps) :
    (∀ p w', panwrapDerefGpuMem mem gpuVa size line filename w = .ok p w' →
        ∃ m, usedMapping w.tracker.mmaps mem gpuVa = some m ∧ m.Covers gpuVa size) ↔
      ∀ m, usedMapping w.tracker.mmaps mem gpuVa = some m → m.SumHonest gpuVa size := by
  have hused (m : PanwrapMappedMemory) (h : usedMapping w.tracker.mmaps mem gpuVa = some m) :
      m.GpuFits := by
    apply hfits
    cases mem with
    | none => exact List.mem_of_find?_eq_some h
    | some n => exact hmem m h
  constructor
  · intro h m hm
    refine (covers_of_not_rejects_iff (hused m hm)).mp fun hr => ?_
    have hderef : derefGpuMem w.tracker.mmaps mem gpuVa size = some (m.translate gpuVa) :=
      derefGpuMem_eq_some_iff.mpr ⟨m, hm, hr, rfl⟩
    obtain ⟨n, hn, hcov⟩ := h _ w (panwrapDerefGpuMem_ok_iff.mpr ⟨hderef, rfl⟩)
    -- the mapping that is covered is the one that was used
    rw [hm] at hn
    exact Option.some.inj hn ▸ hcov
  · intro h p w' hret
    obtain ⟨m, hm, hr, -⟩ := derefGpuMem_eq_some_iff.mp (panwrapDerefGpuMem_ok_iff.mp hret).1
    exact ⟨m, hm, (covers_of_not_rejects_iff (hused m hm)).mpr (h m hm) hr⟩

/-- The size of an access may wrap the sum around: 2^64-8 bytes from 0x1010 on pass for a
mapping of 0x1000 bytes. -/
theorem returned_access_not_covered :
    ¬∀ (w : World) (mem : Option PanwrapMappedMemory) (gpuVa size : U64) (line : ℕ)
        (filename : String), (∀ m ∈ w.tracker.mmaps, m.GpuFits) →
      (∀ m, mem = some m → m ∈ w.tracker.mmaps) →
      ∀ p w', panwrapDerefGpuMem mem gpuVa size line filename w = .ok p w' →
        ∃ m, usedMapping w.tracker.mmaps mem gpuVa = some m ∧ m.Covers gpuVa size := by
  intro h
  have hret := h (World.plain.withMmaps [⟨0x1000, 0x1000, 0x1000, 3, 0⟩]) none 0x1010 (-8) 60
    decoderFile (by decide) (fun _ hm => nomatch hm) 0x1010 _ rfl
  obtain ⟨m, hm, hcov⟩ := hret
  have heq : m = ⟨0x1000, 0x1000, 0x1000, 3, 0⟩ := Option.some.inj hm.symm
  rw [heq] at hcov
  exact absurd hcov (by decide)

theorem returned_access_covered_inside :
    ∃ m, usedMapping [⟨0x1000, 0x1000, 0x1000, 3, 0⟩] none 0x1010 = some m ∧
      m.Covers 0x1010 16 := by
  let w := World.plain.withMmaps [⟨0x1000, 0x1000, 0x1000, 3, 0⟩]
  have hret : panwrapDerefGpuMem none 0x1010 16 60 decoderFile w = .ok 0x1010 w :=
    panwrapDerefGpuMem_ok_iff.mpr ⟨by decide, rfl⟩
  refine (returned_access_covered_iff (w := w) 0x1010 16 60 decoderFile (by decide)
    (fun m (hm : none = some m) => nomatch hm)).mpr (fun m hm => ?_) 0x1010 w hret
  have heq : m = ⟨0x1000, 0x1000, 0x1000, 3, 0⟩ := Option.some.inj hm.symm
  rw [heq]
  decide

/-- The bytes `[p, p+size)` are bytes of the CPU range of `m`, counted from its start. -/
def PanwrapMappedMemory.CpuCovers (m : PanwrapMappedMemory) (p size : U64) : Prop :=
  (p - m.addr).toNat + size.toNat ≤ m.length.toNat

/-- Adding the displacement `gpu_va - addr` does what subtracting it does. -/
def PanwrapMappedMemory.Symmetric (m : PanwrapMappedMemory) : Prop :=
  m.gpuVa = m.addr ∨ m.gpuVa - m.addr = 0x8000000000000000

theorem eq_neg_self_iff (x : U64) : x = -x ↔ x = 0 ∨ x = 0x8000000000000000 := by
  have hx := x.isLt
  have hzero : (0 : U64).toNat = 0 := rfl
  have hhalf : (0x8000000000000000 : U64).toNat = 2^63 := rfl
  rw [← BitVec.toNat_inj, ← BitVec.toNat_inj, ← BitVec.toNat_inj, BitVec.toNat_neg, hzero, hhalf]
  omega

/-- The code adds the displacement, and the CPU address is reached by subtracting it. -/
theorem translate_eq_iff (m : PanwrapMappedMemory) (gpuVa : U64) :
    m.translate gpuVa = m.addr + (gpuVa - m.gpuVa) ↔ m.Symmetric := by
  have hneg : m.addr + (gpuVa - m.gpuVa) = gpuVa + -(m.gpuVa - m.addr) := by grind
  have hzero : m.gpuVa - m.addr = 0 ↔ m.gpuVa = m.addr := by grind
  rw [PanwrapMappedMemory.translate, hneg, BitVec.add_right_inj, eq_neg_self_iff, hzero]
  rfl

theorem PanwrapMappedMemory.Covers.cpuCovers {m : PanwrapMappedMemory} {gpuVa size : U64}
    (h : m.Covers gpuVa size) : m.CpuCovers (m.addr + (gpuVa - m.gpuVa)) size := by
  obtain ⟨hlow, hhigh⟩ := h
  have hoff := offset_above hlow
  have hback : m.addr + (gpuVa - m.gpuVa) - m.addr = gpuVa - m.gpuVa := by grind
  rw [PanwrapMappedMemory.CpuCovers, hback, hoff]
  omega

/-- Every tracked mapping of a `MALI_MEM_SAME_VA` allocation has one address for both sides. -/
theorem Run.sameVa {w : World} {steps : List Step} {enableTimestamps enableHexdumpTrimming : Bool}
    {clock : ℕ → Timespec}
    (hrun : Run (World.initial enableTimestamps enableHexdumpTrimming clock) steps w) :
    ∀ m ∈ w.tracker.mmaps, m.flags &&& maliMemSameVa ≠ 0 → m.gpuVa = m.addr := by
  refine (hrun.invariant (I := fun w => ∀ m ∈ w.tracker.mmaps,
    m.flags &&& maliMemSameVa ≠ 0 → m.gpuVa = m.addr) ?_ ?_).1
  · exact fun m hm => absurd hm List.not_mem_nil
  · intro w call v w' hw hexec m hm hflag
    rw [Call.exec_tracker hexec] at hm
    rcases Tracker.mem_mmaps_applyOption hm with hold | ⟨mem, gpuVa, addr, length, prot, -, -, rfl⟩
    · exact hw m hold hflag
    · exact mem.mapped_sameVa gpuVa addr length prot hflag

/-- In every reachable state an access inside a tracked mapping is translated correctly just
where the allocation asked for one address on both sides, or the addresses happen to be the
same or half the address space apart. -/
theorem translation_correct_iff {enableTimestamps enableHexdumpTrimming : Bool}
    {clock : ℕ → Timespec} {steps : List Step} {w : World}
    (hrun : Run (World.initial enableTimestamps enableHexdumpTrimming clock) steps w)
    {m : PanwrapMappedMemory} (hm : m ∈ w.tracker.mmaps) {gpuVa size : U64}
    (hcov : m.Covers gpuVa size) (line : ℕ) (filename : String) :
    (∃ p, panwrapDerefGpuMem (some m) gpuVa size line filename w = .ok p w ∧
        p = m.addr + (gpuVa - m.gpuVa) ∧ m.CpuCovers p size) ↔
      m.flags &&& maliMemSameVa ≠ 0 ∨ m.Symmetric := by
  have hderef : derefGpuMem w.tracker.mmaps (some m) gpuVa size = some (m.translate gpuVa) :=
    derefGpuMem_eq_some_iff.mpr ⟨m, rfl, hcov.not_rejects, rfl⟩
  constructor
  · rintro ⟨p, hret, hp, -⟩
    have heq := (panwrapDerefGpuMem_ok_iff.mp hret).1
    rw [hderef, hp] at heq
    exact .inr ((translate_eq_iff m gpuVa).mp (Option.some.inj heq))
  · intro h
    have hsym : m.Symmetric := by
      rcases h with hflag | hsym
      · exact .inl (hrun.sameVa m hm hflag)
      · exact hsym
    have htrans := (translate_eq_iff m gpuVa).mpr hsym
    rw [htrans] at hderef
    exact ⟨_, panwrapDerefGpuMem_ok_iff.mpr ⟨hderef, rfl⟩, rfl, hcov.cpuCovers⟩

/-- An access 16 bytes into a mapping of GPU memory 0x1000 at CPU address 0x7f0000000000 is
sent to 2·0x1000 - 0x7f0000000000 + 16. -/
theorem translation_not_correct :
    ¬∀ (steps : List Step) (w : World), Run World.plain steps w → ∀ m ∈ w.tracker.mmaps,
      ∀ (gpuVa size : U64) (line : ℕ) (filename : String), m.Covers gpuVa size →
        ∃ p, panwrapDerefGpuMem (some m) gpuVa size line filename w = .ok p w ∧
          p = m.addr + (gpuVa - m.gpuVa) ∧ m.CpuCovers p size := by
  intro h
  have htracker : World.plain.trackerAfter [openMali, allocCookie, mapCookie 0x7f0000000000] =
      some ⟨[], [⟨0x1000, 0x7f0000000000, 0x1000, 3, 0⟩]⟩ := by decide +kernel
  obtain ⟨steps, w, hrun, ht⟩ := Run.of_calls htracker
  have hm : ⟨0x1000, 0x7f0000000000, 0x1000, 3, 0⟩ ∈ w.tracker.mmaps := by
    rw [ht]
    exact List.mem_singleton.mpr rfl
  obtain ⟨p, hret, hp, -⟩ := h steps w hrun _ hm 0x1010 4 164 decoderFile (by decide)
  have heq := (panwrapDerefGpuMem_ok_iff.mp hret).1
  rw [hp, ht] at heq
  exact absurd heq (by decide)

theorem translation_correct_same_address :
    ∃ steps w, Run World.plain steps w ∧
      ∃ p, panwrapDerefGpuMem (some ⟨0x1000, 0x1000, 0x1000, 3, 0⟩) 0x1010 4 164 decoderFile w =
        .ok p w ∧ p = 0x1000 + (0x1010 - 0x1000) ∧
        PanwrapMappedMemory.CpuCovers ⟨0x1000, 0x1000, 0x1000, 3, 0⟩ p 4 := by
  have htracker : World.plain.trackerAfter [openMali, allocCookie, mapCookie 0x1000] =
      some ⟨[], [⟨0x1000, 0x1000, 0x1000, 3, 0⟩]⟩ := by decide +kernel
  obtain ⟨steps, w, hrun, ht⟩ := Run.of_calls htracker
  have hm : ⟨0x1000, 0x1000, 0x1000, 3, 0⟩ ∈ w.tracker.mmaps := by
    rw [ht]
    exact List.mem_singleton.mpr rfl
  exact ⟨steps, w, hrun, (translation_correct_iff hrun hm (by decide) 164 decoderFile).mpr
    (.inr (.inl rfl))⟩

end Panloader
