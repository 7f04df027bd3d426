import Mathlib.Data.List.Pairwise
import Panloader.FirstMatch
import Panloader.Translation

/-! Lookup by a contained address, on either side of the mappings. The search accepts the
address right behind a range as well, so it may stop at a neighbour of the owner. -/
namespace Panloader
open FirstMatch

/-- The range that `m` occupies, from `start m` on, holds the address `a`. -/
def PanwrapMappedMemory.Owns (start : PanwrapMappedMemory → U64) (m : PanwrapMappedMemory)
    (a : U64) : Prop :=
  (start m).toNat ≤ a.toNat ∧ a.toNat < (start m).toNat + m.length.toNat

instance (start : PanwrapMappedMemory → U64) (m : PanwrapMappedMemory) (a : U64) :
    Decidable (m.Owns start a) := by
  unfold PanwrapMappedMemory.Owns
  infer_instance

/-- No two entries of a table own the same address. -/
def DisjointRanges (start : PanwrapMappedMemory → U64) (mmaps : List PanwrapMappedMemory) :
    Prop :=
  mmaps.Pairwise fun m n => ∀ a, ¬(m.Owns start a ∧ n.Owns start a)

/-- The ranges of a table do not wrap around and are pairwise disjoint. -/
structure Separate (start : PanwrapMappedMemory → U64) (mmaps : List PanwrapMappedMemory) :
    Prop where
  fits : ∀ m ∈ mmaps, (start m).toNat + m.length.toNat < 2^64
  disjoint : DisjointRanges start mmaps

/-- `find` answers the owner of `a`, and nothing where `a` has none. -/
def FindsOwner (start : PanwrapMappedMemory → U64)
    (find : List PanwrapMappedMemory → U64 → Option PanwrapMappedMemory)
    (mmaps : List PanwrapMappedMemory) (a : U64) : Prop :=
  ∀ m, find mmaps a = some m ↔ m ∈ mmaps ∧ m.Owns start a

/-- Accesses at `a` that lie inside one tracked mapping return. -/
def InsideAccessReturns (w : World) (a : U64) : Prop :=
  ∀ m ∈ w.tracker.mmaps, ∀ size line filename, size ≠ 0 → m.Covers a size →
    ∃ p, panwrapDerefGpuMem none a size line filename w = .ok p w

/-- Every entry whose range ends right at `a` stands behind the owner of `a`, which was then
added after it. -/
def OwnerFirst (start : PanwrapMappedMemory → U64) (mmaps : List PanwrapMappedMemory)
    (a : U64) : Prop :=
  ∀ newer m older, mmaps = newer ++ m :: older →
    (start m).toNat + m.length.toNat = a.toNat → ∃ n ∈ newer, n.Owns start a

/-- The test that both searches make. -/
def PanwrapMappedMemory.touches (start : PanwrapMappedMemory → U64) (a : U64)
    (m : PanwrapMappedMemory) : Bool :=
  start m ≤ a && a ≤ start m + m.length

section Table

variable {start : PanwrapMappedMemory → U64} {mmaps : List PanwrapMappedMemory}

theorem Separate.touches_iff (h : Separate start mmaps) (a : U64) {m : PanwrapMappedMemory}
    (hm : m ∈ mmaps) :
    m.touches start a ↔ m.Owns start a ∨ (start m).toNat + m.length.toNat = a.toNat := by
  have hend : (start m + m.length).toNat = (start m).toNat + m.length.toNat :=
    BitVec.toNat_add_of_lt (h.fits m hm)
  unfold PanwrapMappedMemory.touches PanwrapMappedMemory.Owns
  rw [Bool.and_eq_true, decide_eq_true_iff, decide_eq_true_iff, BitVec.le_def, BitVec.le_def, hend]
  omega

theorem not_both_symm {m n : PanwrapMappedMemory} (h : ∀ a, ¬(m.Owns start a ∧ n.Owns start a)) :
    ∀ a, ¬(n.Owns start a ∧ m.Owns start a) :=
  fun a ha => h a ha.symm

theorem DisjointRanges.owner_unique (h : DisjointRanges start mmaps) (a : U64) :
    ∀ m ∈ mmaps, ∀ n ∈ mmaps, m.Owns start a → n.Owns start a → m = n := by
  intro m hm n hn hma hna
  have hsymm : Std.Symm fun m n : PanwrapMappedMemory =>
      ∀ a, ¬(m.Owns start a ∧ n.Owns start a) := ⟨fun _ _ => not_both_symm⟩
  by_contra hne
  exact List.Pairwise.forall h hm hn hne a ⟨hma, hna⟩

/-- The search finds the owner, or nothing where there is none, exactly if no neighbour of the
owner stands before it. -/
theorem Separate.find?_iff (h : Separate start mmaps) (a : U64) :
    FindsOwner start (fun l a => l.find? (PanwrapMappedMemory.touches start a)) mmaps a ↔
      OwnerFirst start mmaps a := by
  have howner := find?_eq_some_iff_owner (l := mmaps) (p := PanwrapMappedMemory.touches start a)
    (o := fun m => decide (m.Owns start a))
    (fun m hm hma => (h.touches_iff a hm).mpr (.inl (of_decide_eq_true hma)))
    (fun m hm n hn hma hna =>
      h.disjoint.owner_unique a m hm n hn (of_decide_eq_true hma) (of_decide_eq_true hna))
  simp only [decide_eq_true_eq] at howner
  refine howner.trans ?_
  constructor
  · intro hfirst newer m older hl hend
    have hm : m ∈ mmaps := by simp [hl]
    -- an entry that ends at `a` does not own it
    refine hfirst newer m older hl ((h.touches_iff a hm).mpr (.inr hend)) fun hma => ?_
    unfold PanwrapMappedMemory.Owns at hma
    omega
  · intro hfirst newer m older hl htouch hno
    have hm : m ∈ mmaps := by simp [hl]
    rcases (h.touches_iff a hm).mp htouch with hma | hend
    · exact absurd hma hno
    · exact hfirst newer m older hl hend

end Table

theorem PanwrapMappedMemory.Covers.owns {m : PanwrapMappedMemory} {a size : U64}
    (h : m.Covers a size) (hsize : size ≠ 0) : m.Owns PanwrapMappedMemory.gpuVa a := by
  obtain ⟨hlow, hhigh⟩ := h
  have hpos : size.toNat ≠ 0 := fun hz => hsize (BitVec.eq_of_toNat_eq hz)
  exact ⟨hlow, by omega⟩

/-- An access within the mapping that the lookup finds does not abort. -/
theorem deref_found {w : World} {m : PanwrapMappedMemory} {a size : U64}
    (hfind : panwrapFindMappedGpuMemContaining w.tracker.mmaps a = some m) (hcov : m.Covers a size)
    (line : ℕ) (filename : String) :
    ∃ p, panwrapDerefGpuMem none a size line filename w = .ok p w := by
  have hderef : derefGpuMem w.tracker.mmaps none a size = some (m.translate a) :=
    derefGpuMem_eq_some_iff.mpr ⟨m, hfind, hcov.not_rejects, rfl⟩
  exact ⟨_, panwrapDerefGpuMem_ok_iff.mpr ⟨hderef, rfl⟩⟩

/-- In every table of separate ranges, in every order, the lookups of `a` find its owner, and
accesses inside one mapping return, exactly if each range that ends right at `a` belongs to an
entry older than the owner of `a`. -/
theorem lookup_finds_owner_iff (w : World) (a : U64) :
    (Separate PanwrapMappedMemory.gpuVa w.tracker.mmaps →
      (FindsOwner PanwrapMappedMemory.gpuVa panwrapFindMappedGpuMemContaining w.tracker.mmaps a ∧
          InsideAccessReturns w a ↔
        OwnerFirst PanwrapMappedMemory.gpuVa w.tracker.mmaps a)) ∧
    (Separate PanwrapMappedMemory.addr w.tracker.mmaps →
      (FindsOwner PanwrapMappedMemory.addr panwrapFindMappedMemContaining w.tracker.mmaps a ↔
        OwnerFirst PanwrapMappedMemory.addr w.tracker.mmaps a)) := by
  refine ⟨fun hgpu => ?_, fun hcpu => hcpu.find?_iff a⟩
  constructor
  · exact fun h => (hgpu.find?_iff a).mp h.1
  · intro hfirst
    have hfind : FindsOwner PanwrapMappedMemory.gpuVa panwrapFindMappedGpuMemContaining
        w.tracker.mmaps a := (hgpu.find?_iff a).mpr hfirst
    refine ⟨hfind, fun m hm size line filename hsize hcov => ?_⟩
    exact deref_found ((hfind m).mpr ⟨hm, hcov.owns hsize⟩) hcov line filename

theorem disjoint_of_end_le {start : PanwrapMappedMemory → U64} {m n : PanwrapMappedMemory}
    (h : (start n).toNat + n.length.toNat ≤ (start m).toNat) (a : U64) :
    ¬(m.Owns start a ∧ n.Owns start a) := by
  unfold PanwrapMappedMemory.Owns
  omega

/-- Two pages of GPU memory side by side. -/
def lowerPage : PanwrapMappedMemory := ⟨0x1000, 0x10000, 0x1000, 3, 0⟩
def upperPage : PanwrapMappedMemory := ⟨0x1000, 0x20000, 0x2000, 3, 0⟩

theorem lookup_finds_owner_of_newer :
    FindsOwner PanwrapMappedMemory.gpuVa panwrapFindMappedGpuMemContaining [upperPage, lowerPage]
      0x2000 := by
  have hsep : Separate PanwrapMappedMemory.gpuVa [upperPage, lowerPage] :=
    ⟨by decide, List.pairwise_pair.mpr fun a => disjoint_of_end_le (by decide) a⟩
  have hfirst : OwnerFirst PanwrapMappedMemory.gpuVa [upperPage, lowerPage] 0x2000 := by
    rintro (_ | ⟨n, newer⟩) m older hl hend
    · rw [← (List.cons.inj hl).1] at hend
      exact absurd hend (by decide)
    · refine ⟨n, List.mem_cons_self, ?_⟩
      rw [← (List.cons.inj hl).1]
      decide
  exact (((lookup_finds_owner_iff (World.plain.withMmaps [upperPage, lowerPage]) 0x2000).1
    hsep).mpr hfirst).1

/-- Where the lower page was mapped last, the lookup of the upper page's first byte stops at
the lower page. -/
theorem lookup_misses_owner :
    ¬∀ (w : World) (a : U64),
      (Separate PanwrapMappedMemory.gpuVa w.tracker.mmaps →
        FindsOwner PanwrapMappedMemory.gpuVa panwrapFindMappedGpuMemContaining w.tracker.mmaps a ∧
          InsideAccessReturns w a) ∧
      (Separate PanwrapMappedMemory.addr w.tracker.mmaps →
        FindsOwner PanwrapMappedMemory.addr panwrapFindMappedMemContaining w.tracker.mmaps a) := by
  intro h
  have hsep : Separate PanwrapMappedMemory.gpuVa [lowerPage, upperPage] :=
    ⟨by decide, List.pairwise_pair.mpr (not_both_symm (disjoint_of_end_le (by decide)))⟩
  have hfinds := ((h (World.plain.withMmaps [lowerPage, upperPage]) 0x2000).1 hsep).1
  have hupper : panwrapFindMappedGpuMemContaining [lowerPage, upperPage] 0x2000 = some upperPage :=
    (hfinds upperPage).mpr ⟨by decide, by decide⟩
  exact absurd hupper (by decide)

end Panloader
