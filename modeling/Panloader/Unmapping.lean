import Panloader.OwnerLookup

/-! What `munmap` does to the addresses the table covers. The wrapper looks up the start of
the range and drops the whole entry it finds there, whatever the length. -/
namespace Panloader
open FirstMatch

/-- The table covers the CPU address `cpu` and sends it to the GPU address `gpu`. -/
def Maps (mmaps : List PanwrapMappedMemory) (cpu gpu : U64) : Prop :=
  ∃ m ∈ mmaps, m.Owns PanwrapMappedMemory.addr cpu ∧ gpu = m.gpuVa + (cpu - m.addr)

/-- `length` rounded up to whole pages. -/
def roundUp (pageSize length : ℕ) : ℕ := (length + pageSize - 1) / pageSize * pageSize

/-- The addresses that `munmap(addr, length)` removes. -/
def InUnmapped (pageSize : ℕ) (addr length cpu : U64) : Prop :=
  addr.toNat ≤ cpu.toNat ∧ cpu.toNat < addr.toNat + roundUp pageSize length.toNat

instance (pageSize : ℕ) (addr length cpu : U64) :
    Decidable (InUnmapped pageSize addr length cpu) := by
  unfold InUnmapped
  infer_instance

/-- The table `after` is the table `before` without the addresses of the range, and each of
the others keeps its GPU address. -/
def FollowsMunmap (pageSize : ℕ) (addr length : U64) (before after : List PanwrapMappedMemory) :
    Prop :=
  ∀ cpu gpu, Maps after cpu gpu ↔ Maps before cpu gpu ∧ ¬InUnmapped pageSize addr length cpu

/-- Every entry that the range meets is the one the lookup of its start finds, and that one
lies inside the range. -/
def HitsExactly (pageSize : ℕ) (addr length : U64) (mmaps : List PanwrapMappedMemory) : Prop :=
  ∀ m ∈ mmaps, ∀ cpu, m.Owns PanwrapMappedMemory.addr cpu →
    (InUnmapped pageSize addr length cpu ↔ panwrapFindMappedMem mmaps addr = some m)

/-- The entry that the lookup of `addr` finds is the only one taken out. -/
theorem delMapping_perm (t : Tracker) (addr : U64) :
    t.mmaps.Perm ((panwrapFindMappedMem t.mmaps addr).toList ++ (t.delMapping addr).mmaps) := by
  cases hf : panwrapFindMappedMem t.mmaps addr with
  | none =>
    rw [Tracker.delMapping_of_not_found hf]
    exact List.Perm.refl _
  | some m => exact perm_cons_eraseP hf

/-- Among entries that own an address, those that stay are the others than the one found. -/
theorem DisjointRanges.stays_iff {t : Tracker} {addr cpu : U64}
    (hdisj : DisjointRanges PanwrapMappedMemory.addr t.mmaps) {m : PanwrapMappedMemory}
    (hm : m ∈ t.mmaps) (hown : m.Owns PanwrapMappedMemory.addr cpu) :
    m ∈ (t.delMapping addr).mmaps ↔ panwrapFindMappedMem t.mmaps addr ≠ some m := by
  have hperm := delMapping_perm t addr
  have hpair := (hperm.pairwise_iff not_both_symm).mp hdisj
  constructor
  · intro hstays hfound
    -- an entry cannot be disjoint from itself
    rw [hfound] at hpair
    exact (List.pairwise_cons.mp hpair).1 m hstays cpu ⟨hown, hown⟩
  · intro hne
    rcases List.mem_append.mp (hperm.mem_iff.mp hm) with hmem | hmem
    · exact absurd (Option.mem_toList.mp hmem) hne
    · exact hmem

/-- A successful `munmap` takes its range, and nothing else, out of a table of disjoint
entries exactly if it hits whole entries by their start. -/
theorem munmap_follows_iff (pageSize : ℕ) {w w' : World} {addr length : U64} {v : Value}
    (hdisj : DisjointRanges PanwrapMappedMemory.addr w.tracker.mmaps)
    (hexec : (Call.munmap addr length 0).exec w = .ok v w') :
    FollowsMunmap pageSize addr length w.tracker.mmaps w'.tracker.mmaps ↔
      HitsExactly pageSize addr length w.tracker.mmaps := by
  have htracker : w'.tracker = w.tracker.delMapping addr := Call.exec_tracker hexec
  rw [htracker]
  have hrest (m : PanwrapMappedMemory) (hm : m ∈ (w.tracker.delMapping addr).mmaps) :
      m ∈ w.tracker.mmaps :=
    (delMapping_perm w.tracker addr).mem_iff.mpr (List.mem_append_right _ hm)
  constructor
  · intro hfollows m hm cpu hown
    have hstays : m ∈ (w.tracker.delMapping addr).mmaps ↔
        panwrapFindMappedMem w.tracker.mmaps addr ≠ some m := hdisj.stays_iff hm hown
    constructor
    -- a hit entry that is not the one found would stay
    · intro hin
      by_contra hne
      have hmaps : Maps (w.tracker.delMapping addr).mmaps cpu (m.gpuVa + (cpu - m.addr)) :=
        ⟨m, hstays.mpr hne, hown, rfl⟩
      exact ((hfollows cpu _).mp hmaps).2 hin
    -- the found entry is gone, with any address of it outside the range
    · intro hfound
      by_contra hout
      obtain ⟨n, hn, hnown, -⟩ := (hfollows cpu _).mpr ⟨⟨m, hm, hown, rfl⟩, hout⟩
      have hnm : n = m := hdisj.owner_unique cpu n (hrest n hn) m hm hnown hown
      exact hstays.mp (hnm ▸ hn) hfound
  · intro hhits cpu gpu
    constructor
    · rintro ⟨n, hn, hown, hgpu⟩
      refine ⟨⟨n, hrest n hn, hown, hgpu⟩, fun hin => ?_⟩
      exact (hdisj.stays_iff (hrest n hn) hown).mp hn ((hhits n (hrest n hn) cpu hown).mp hin)
    · rintro ⟨⟨m, hm, hown, hgpu⟩, hout⟩
      have hne : panwrapFindMappedMem w.tracker.mmaps addr ≠ some m :=
        fun hfound => hout ((hhits m hm cpu hown).mpr hfound)
      exact ⟨m, (hdisj.stays_iff hm hown).mpr hne, hown, hgpu⟩

theorem munmap_follows_whole_page :
    ∃ w', (Call.munmap 0x10000 0x1000 0).exec (World.plain.withMmaps [lowerPage]) =
        .ok (.int 0) w' ∧
      FollowsMunmap 4096 0x10000 0x1000 [lowerPage] w'.tracker.mmaps := by
  have hexec : (Call.munmap 0x10000 0x1000 0).exec (World.plain.withMmaps [lowerPage]) =
      .ok (.int 0) _ := rfl
  have hhits : HitsExactly 4096 0x10000 0x1000 [lowerPage] := by
    intro m hm cpu hown
    rw [List.mem_singleton.mp hm] at hown ⊢
    exact iff_of_true hown rfl
  have hdisj : DisjointRanges PanwrapMappedMemory.addr
      (World.plain.withMmaps [lowerPage]).tracker.mmaps := List.pairwise_singleton _ _
  exact ⟨_, hexec, (munmap_follows_iff 4096 hdisj hexec).mpr hhits⟩

/-- Unmapping the first page of a mapping of two drops the second one as well. -/
theorem munmap_of_head_drops_tail :
    ¬∀ (steps : List Step) (w : World), Run World.plain steps w →
      DisjointRanges PanwrapMappedMemory.addr w.tracker.mmaps →
      (∀ m ∈ w.tracker.mmaps, m.addr.toNat % 4096 = 0 ∧ m.length.toNat % 4096 = 0) →
      ∀ (addr length : U64) (v : Value) (w' : World), addr.toNat % 4096 = 0 →
        (Call.munmap addr length 0).exec w = .ok v w' →
        FollowsMunmap 4096 addr length w.tracker.mmaps w'.tracker.mmaps := by
  intro h
  have hbefore : World.plain.trackerAfter [openMali, allocCookie,
      .mmap .mmap64 0 0x2000 3 1 3 0x1000 0x10000] =
      some ⟨[], [⟨0x2000, 0x10000, 0x1000, 3, 0⟩]⟩ := by decide +kernel
  have hafter : World.plain.trackerAfter ([openMali, allocCookie,
      .mmap .mmap64 0 0x2000 3 1 3 0x1000 0x10000] ++ [.munmap 0x10000 0x1000 0]) =
      some ⟨[], []⟩ := by decide +kernel
  obtain ⟨steps, w, v, w', hrun, hexec, ht, ht'⟩ := Run.of_trackers hbefore hafter
  have hfollows := h steps w hrun
  rw [ht] at hfollows
  have htail := (hfollows (List.pairwise_singleton _ _) (by decide) 0x10000 0x1000 v w' rfl hexec
    0x11000 0x2000).mpr ⟨⟨_, List.mem_singleton.mpr rfl, by decide, by decide⟩, by decide⟩
  rw [ht'] at htail
  obtain ⟨m, hm, -⟩ := htail
  exact nomatch hm

end Panloader
