import Panloader.FirstMatch
import Panloader.Runs

/-! Calls that the kernel fails. The wrapper updates its tables without looking at the result,
so they change whenever there is something to change. -/
namespace Panloader
open FirstMatch

/-- The kernel failed the call: a `MALI_IOCTL_MEM_ALLOC` that returns -1 or whose header comes
back with another `rc` than 0, a mapping of the Mali device that is `MAP_FAILED`, a `munmap`
that returns -1. -/
def Call.Fails (maliFd : ℤ) : Call → Prop
  | .ioctl _ request arg env => IsMemAlloc request ∧
      (env.ret = -1 ∨ env.after.read (ioctlPtr request arg env.junk) 4 ≠ 0)
  | .mmap _ _ _ _ _ fd _ ret => fd = maliFd ∧ ret = mapFailed
  | .munmap _ _ ret => ret = -1
  | _ => False

/-- There is nothing for the call to change: an allocation is not decoded, a mapping is not
tracked or has no pending allocation, an unmapped address is not the start of a mapping. -/
def Call.ChangesNothing (maliFd : ℤ) (t : Tracker) : Call → Prop
  | .ioctl fd request arg env =>
    ¬OnDecodingPath maliFd fd ∨ ioctlPtr request arg env.junk = 0
  | .mmap _ _ _ _ _ fd offset _ =>
    ¬OnTrackingPath maliFd fd ∨ ∀ mem ∈ t.allocations, mem.gpuVa ≠ offset
  | .munmap addr _ _ => ∀ m ∈ t.mmaps, m.addr ≠ addr
  | _ => True

theorem Tracker.addAllocation_ne (t : Tracker) (mem : PanwrapAllocatedMemory) :
    t.addAllocation mem ≠ t := by
  intro h
  have hlen := congrArg (fun t : Tracker => t.allocations.length) h
  simp [Tracker.addAllocation] at hlen

theorem Tracker.apply_map_eq_iff (t : Tracker) (gpuVa addr length : U64) (prot : U32) :
    t.apply (.map gpuVa addr length prot) = t ↔ ∀ mem ∈ t.allocations, mem.gpuVa ≠ gpuVa := by
  rw [Tracker.apply]
  cases hp : t.pendingAllocation gpuVa with
  | none => exact iff_of_true rfl (Tracker.pendingAllocation_eq_none_iff.mp hp)
  | some mem =>
    refine iff_of_false (fun h => ?_) fun h => ?_
    · have hlen := congrArg (fun t : Tracker => t.mmaps.length) h
      simp [Tracker.addMapping] at hlen
    · obtain ⟨hmem, hva⟩ := Tracker.pendingAllocation_some hp
      exact h mem hmem hva

theorem Tracker.delMapping_eq_iff (t : Tracker) (addr : U64) :
    t.delMapping addr = t ↔ ∀ m ∈ t.mmaps, m.addr ≠ addr := by
  cases hf : panwrapFindMappedMem t.mmaps addr with
  | none =>
    exact iff_of_true (Tracker.delMapping_of_not_found hf) (panwrapFindMappedMem_eq_none_iff.mp hf)
  | some m =>
    refine iff_of_false (fun h => ?_) fun h => ?_
    · have hlen := congrArg (fun t : Tracker => t.mmaps.length) h
      have hperm : t.mmaps.length = (t.delMapping addr).mmaps.length + 1 :=
        (perm_cons_eraseP hf).length_eq
      omega
    · obtain ⟨hm, haddr⟩ := panwrapFindMappedMem_some hf
      exact h m hm haddr

/-- In every state a failed call keeps the tables exactly if there was nothing for it to
change. -/
theorem failed_call_keeps_tables_iff {w w' : World} {call : Call} {v : Value}
    (hexec : call.exec w = .ok v w') (hfails : call.Fails w.maliFd) :
    w'.tracker = w.tracker ↔ call.ChangesNothing w.maliFd w.tracker := by
  rw [Call.exec_tracker hexec]
  cases call with
  | «open» symbol path flags mode ret => exact hfails.elim
  | close fd ret => exact hfails.elim
  | ioctl fd request arg env =>
    rw [Call.trackEvent, Call.ChangesNothing]
    by_cases h : OnDecodingPath w.maliFd fd ∧ ioctlPtr request arg env.junk ≠ 0
    · -- the decoder adds a record whatever came back
      rw [if_pos ⟨h.1, h.2, hfails.1⟩]
      refine iff_of_false (Tracker.addAllocation_ne _ _) ?_
      rintro (hn | hn)
      · exact hn h.1
      · exact h.2 hn
    · rw [if_neg fun hc => h ⟨hc.1, hc.2.1⟩]
      refine iff_of_true rfl ?_
      by_cases hd : OnDecodingPath w.maliFd fd
      · exact .inr (not_not.mp fun hp => h ⟨hd, hp⟩)
      · exact .inl hd
  | mmap symbol addr length prot flags fd offset ret =>
    rw [Call.trackEvent, Call.ChangesNothing]
    by_cases h : OnTrackingPath w.maliFd fd
    -- a pending record is used up whatever address came back
    · rw [if_pos h]
      refine (Tracker.apply_map_eq_iff _ _ _ _ _).trans ?_
      exact ⟨.inr, fun hc => hc.resolve_left (not_not.mpr h)⟩
    · rw [if_neg h]
      exact iff_of_true rfl (.inl h)
  | munmap addr length ret => exact Tracker.delMapping_eq_iff w.tracker addr

/-- A failed `munmap` of the mapping at 0x7f0000000000 drops it from the table. -/
theorem failed_munmap_changes_tables :
    ¬∀ (steps : List Step) (w : World), Run World.plain steps w → ∀ call v w',
      Call.exec call w = .ok v w' → call.Fails w.maliFd → w'.tracker = w.tracker := by
  intro h
  have hbefore : World.plain.trackerAfter [openMali, allocCookie, mapCookie 0x7f0000000000] =
      some ⟨[], [⟨0x1000, 0x7f0000000000, 0x1000, 3, 0⟩]⟩ := by decide +kernel
  have hafter : World.plain.trackerAfter ([openMali, allocCookie, mapCookie 0x7f0000000000] ++
      [.munmap 0x7f0000000000 0x1000 (-1)]) = some ⟨[], []⟩ := by decide +kernel
  obtain ⟨steps, w, v, w', hrun, hexec, ht, ht'⟩ := Run.of_trackers hbefore hafter
  have hsame := h steps w hrun _ v w' hexec rfl
  rw [ht, ht'] at hsame
  exact absurd hsame (by decide)

theorem failed_munmap_of_untracked :
    ∃ w', (Call.munmap 0x5000 0x1000 (-1)).exec World.plain = .ok (.int (-1)) w' ∧
      w'.tracker = World.plain.tracker := by
  have hexec : (Call.munmap 0x5000 0x1000 (-1)).exec World.plain = .ok (.int (-1)) _ := rfl
  exact ⟨_, hexec, (failed_call_keeps_tables_iff hexec rfl).mpr fun m hm => nomatch hm⟩

end Panloader
