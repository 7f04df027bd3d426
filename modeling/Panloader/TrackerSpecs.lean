import Panloader.FirstMatch
import Panloader.PanwrapMmap

/-! The three updates of the tracker, and where the entries of the updated lists come from. -/
namespace Panloader

/-- What a call asks of the tracker. -/
inductive TrackEvent
  | record (mem : PanwrapAllocatedMemory)
  | map (gpuVa addr length : U64) (prot : U32)
  | unmap (addr : U64)

def Tracker.apply (t : Tracker) : TrackEvent → Tracker
  | .record mem => t.addAllocation mem
  | .map gpuVa addr length prot =>
    match t.pendingAllocation gpuVa with
    | none => t
    | some mem => t.addMapping gpuVa (mem.mapped gpuVa addr length prot)
  | .unmap addr => t.delMapping addr

def Tracker.applyOption (t : Tracker) : Option TrackEvent → Tracker
  | none => t
  | some e => t.apply e

theorem Tracker.pendingAllocation_some {t : Tracker} {gpuVa : U64}
    {mem : PanwrapAllocatedMemory} (h : t.pendingAllocation gpuVa = some mem) :
    mem ∈ t.allocations ∧ mem.gpuVa = gpuVa :=
  ⟨List.mem_of_find?_eq_some h, beq_iff_eq.mp (List.find?_some h :)⟩

theorem Tracker.pendingAllocation_eq_none_iff {t : Tracker} {gpuVa : U64} :
    t.pendingAllocation gpuVa = none ↔ ∀ mem ∈ t.allocations, mem.gpuVa ≠ gpuVa := by
  simp [Tracker.pendingAllocation]

theorem panwrapFindMappedMem_some {mmaps : List PanwrapMappedMemory} {addr : U64}
    {m : PanwrapMappedMemory} (h : panwrapFindMappedMem mmaps addr = some m) :
    m ∈ mmaps ∧ m.addr = addr :=
  ⟨List.mem_of_find?_eq_some h, beq_iff_eq.mp (List.find?_some h :)⟩

theorem panwrapFindMappedMem_eq_none_iff {mmaps : List PanwrapMappedMemory} {addr : U64} :
    panwrapFindMappedMem mmaps addr = none ↔ ∀ m ∈ mmaps, m.addr ≠ addr := by
  simp [panwrapFindMappedMem]

/-- Unmapping an address that is not tracked leaves the tracker as it is. -/
theorem Tracker.delMapping_of_not_found {t : Tracker} {addr : U64}
    (h : panwrapFindMappedMem t.mmaps addr = none) : t.delMapping addr = t := by
  rw [Tracker.delMapping, FirstMatch.eraseP_eq_self_of_find?_eq_none h]

/-- A tracked mapping was tracked before the update, or is the one that the update built from
the allocation it found. -/
theorem Tracker.mem_mmaps_applyOption {t : Tracker} {e : Option TrackEvent}
    {m : PanwrapMappedMemory} (hm : m ∈ (t.applyOption e).mmaps) :
    m ∈ t.mmaps ∨ ∃ mem gpuVa addr length prot, e = some (.map gpuVa addr length prot) ∧
      t.pendingAllocation gpuVa = some mem ∧ m = mem.mapped gpuVa addr length prot := by
  rcases e with _ | ⟨mem⟩ | ⟨gpuVa, addr, length, prot⟩ | addr
  · exact .inl hm
  · exact .inl hm
  · rw [Tracker.applyOption, Tracker.apply] at hm
    cases hp : t.pendingAllocation gpuVa with
    | none =>
      rw [hp] at hm
      exact .inl hm
    | some mem =>
      rw [hp] at hm
      rcases List.mem_cons.mp hm with heq | hm
      · exact .inr ⟨mem, gpuVa, addr, length, prot, rfl, hp, heq⟩
      · exact .inl hm
  · exact .inl (List.mem_of_mem_eraseP hm)

/-- The record kept for a `MALI_MEM_SAME_VA` allocation has one address for both sides. -/
theorem PanwrapAllocatedMemory.mapped_sameVa (mem : PanwrapAllocatedMemory)
    (gpuVa addr length : U64) (prot : U32)
    (h : (mem.mapped gpuVa addr length prot).flags &&& maliMemSameVa ≠ 0) :
    (mem.mapped gpuVa addr length prot).gpuVa = (mem.mapped gpuVa addr length prot).addr :=
  if_pos h

end Panloader
