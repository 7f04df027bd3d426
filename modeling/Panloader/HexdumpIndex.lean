import Panloader.IntLoops
import Panloader.SyncDumps

/-! The `int` that counts the bytes of a hexdump, and the sizes that a sync request hands to it
before the call. The dump after the call is trimmed first, and is not covered here. -/
namespace Panloader
open Effects

set_option synthInstance.maxSize 4000

/-- The turn of the first loop of `panwrap_log_hexdump` at the `int` `i`. -/
def hexdumpTurn (data : U64) (i : U32) (alpha : Gutter) : Wrap Gutter :=
  hexdumpCell data alpha i.toNat

/-- The first loop of `panwrap_log_hexdump`, from the start of the call in the state `w`. -/
def HexdumpLoop (data size : U64) (w : World) (is : List U32)
    (r : EStateM.Result Halt World (U32 × Gutter)) : Prop :=
  IntLoop .intOverflow size (hexdumpTurn data) 0 (fun _ => 0) (w.emit (.hexdump data size)) is r

/-- What `panwrap_log_hexdump` does after its first loop has ended with `i`. -/
def residualRow (i : U32) (alpha : Gutter) : Wrap Unit :=
  let col := (i.srem 16).toNat
  if col ≠ 0 then hexdumpPad col (hexdumpRowLen - col) alpha else pure ()

/-- The `int` can count the bytes of the dump. -/
structure IndexCounts (w : World) (data size : U64) : Prop where
  fits : ∀ is u, ¬HexdumpLoop data size w is (.error .intOverflow u)
  visits : ∃ is i alpha u, HexdumpLoop data size w is (.ok (i, alpha) u) ∧
    is.map BitVec.toInt = (List.range size.toNat).map Int.ofNat ∧
    i.srem 16 = BitVec.ofNat 32 (size.toNat % 16) ∧
    panwrapLogHexdump data size w = residualRow i alpha u

section Loops

variable {data size : U64} {alpha : Gutter} {w : World} {is : List U32}
  {r : EStateM.Result Halt World (U32 × Gutter)}

/-- The loop over the cells is the loop with the `int`. -/
theorem hexdumpCells_of_loop {k n : ℕ}
    (h : IntLoop .intOverflow size (hexdumpTurn data) (BitVec.ofNat 32 k) alpha w is r)
    (hk : k < 2^31) (hn : k + n = size.toNat) :
    hexdumpCells data k n alpha w = handedOn r := by
  generalize hi : BitVec.ofNat 32 k = i at h
  induction h generalizing k n with
  | stop hstop =>
    subst hi
    have hnot := mt (counter_lt_iff (by decide) hk).mpr hstop
    obtain rfl : n = 0 := by omega
    rfl
  | abrupt hlt hturn =>
    subst hi
    have hbelow := (counter_lt_iff (by decide) hk).mp hlt
    obtain ⟨n, rfl⟩ : ∃ m, n = m+1 := ⟨n-1, by omega⟩
    rw [hexdumpTurn, toNat_counter hk] at hturn
    exact bind_error hturn
  | last hlt hturn hmax =>
    subst hi
    have hbelow := (counter_lt_iff (by decide) hk).mp hlt
    have htop := (counter_eq_intMax_iff hk).mp hmax
    -- both stop with the overflow
    have hmax : k = intMax := by
      unfold intMax
      omega
    obtain ⟨n, rfl⟩ : ∃ m, n = m+1 := ⟨n-1, by omega⟩
    rw [hexdumpTurn, toNat_counter hk] at hturn
    rw [hexdumpCells, bind_ok hturn, if_pos hmax]
    rfl
  | more hlt hturn hne _ ih =>
    subst hi
    have hbelow := (counter_lt_iff (by decide) hk).mp hlt
    have htop := mt (counter_eq_intMax_iff hk).mpr hne
    have hmore : ¬k = intMax := by
      unfold intMax
      omega
    obtain ⟨n, rfl⟩ : ∃ m, n = m+1 := ⟨n-1, by omega⟩
    rw [hexdumpTurn, toNat_counter hk] at hturn
    rw [hexdumpCells, bind_ok hturn, if_neg hmore]
    exact ih (by omega) (by omega) (BitVec.ofNat_add k 1)

theorem exists_hexdumpLoop (data size : U64) (w : World) : ∃ is r, HexdumpLoop data size w is r :=
  exists_intLoop (k := 0) (by decide) _ _

theorem srem_counter {k : ℕ} (hk : k < 2^31) :
    (BitVec.ofNat 32 k).srem 16 = BitVec.ofNat 32 (k % 16) := by
  have hsixteen : (16 : U32).msb = false := rfl
  have hmod : k % 16 < 2^31 := by omega
  apply BitVec.eq_of_toNat_eq
  rw [BitVec.srem, msb_counter hk, hsixteen, toNat_counter hmod]
  show ((BitVec.ofNat 32 k).umod 16).toNat = _
  rw [BitVec.umod_eq, BitVec.toNat_umod, toNat_counter hk]
  rfl

/-- A loop that ends has gone through all offsets. -/
theorem HexdumpLoop.of_ok {i : U32} {u : World}
    (h : HexdumpLoop data size w is (.ok (i, alpha) u)) :
    size.toNat < 2^31 ∧ i = BitVec.ofNat 32 size.toNat ∧
      is = (List.range size.toNat).map (BitVec.ofNat 32) := by
  have hend := IntLoop.of_ok (k := 0) (by decide) h (by decide) (Nat.zero_le _)
  rwa [Nat.sub_zero, ← List.range_eq_range'] at hend

/-- What comes after the loop starts where the loop has ended. -/
theorem panwrapLogHexdump_of_loop {i : U32} {u : World}
    (h : HexdumpLoop data size w is (.ok (i, alpha) u)) :
    panwrapLogHexdump data size w = residualRow i alpha u := by
  obtain ⟨htop, hi, -⟩ := h.of_ok
  have hcells : hexdumpCells data 0 size.toNat (fun _ => 0) (w.emit (.hexdump data size)) =
      .ok alpha u := hexdumpCells_of_loop h (by decide) (Nat.zero_add _)
  have hemit : emit (.hexdump data size) w = .ok () (w.emit (.hexdump data size)) := rfl
  have hcolumn : (i.srem 16).toNat = size.toNat % hexdumpRowLen := by
    rw [hi, srem_counter htop, toNat_counter (by omega)]
    rfl
  rw [panwrapLogHexdump, bind_ok hemit, bind_ok hcells, residualRow, hcolumn]

/-- From every state, the `int` counts the bytes if and only if they are not more than it can
count. -/
theorem indexCounts_iff : IndexCounts w data size ↔ size.toNat ≤ intMax := by
  have hint : size.toNat ≤ intMax ↔ size.toNat < 2^31 := by
    unfold intMax
    omega
  rw [hint]
  constructor
  · rintro ⟨-, is, i, alpha, u, hloop, -⟩
    exact hloop.of_ok.1
  · intro hbound
    obtain ⟨is, r, hloop⟩ := exists_hexdumpLoop data size w
    have hturn (i : U32) (alpha : Gutter) :
        Total (Sees w.tracker w.mem) (hexdumpTurn data i alpha) := total_hexdumpCell _ _ _
    have hstart : Sees w.tracker w.mem (w.emit (.hexdump data size)) := ⟨rfl, rfl⟩
    obtain ⟨⟨i, alpha⟩, u, rfl⟩ :=
      IntLoop.ok_of_bound (k := 0) (by decide) hturn hbound hloop (by decide) hstart
    obtain ⟨-, hi, his⟩ := hloop.of_ok
    constructor
    · intro is' u' hoverflow
      -- the loop has one run, and it is this one
      cases (hloop.functional hoverflow).2
    · refine ⟨is, i, alpha, u, hloop, ?_, ?_, panwrapLogHexdump_of_loop hloop⟩
      · rw [his, List.map_map]
        apply List.map_congr_left
        intro k hk
        exact toInt_counter (Nat.lt_trans (List.mem_range.mp hk) hbound)
      · rw [hi, srem_counter hbound]

end Loops

section Requests

/-- From `w`, the decoder before the call comes to its hexdump in the state `u` with these
arguments: whatever the hexdump does, the decoder does from `u`, and has a rest. -/
def DumpCalled (w : World) (ptr : U64) (u : World) (data size : U64) : Prop :=
  ∃ rest : Unit → Wrap Unit, ∀ dump : U64 → U64 → Wrap Unit,
    syncDecoder dump .pre ptr w = (dump data size >>= rest) u

/-- In the hexdump that is made before the call for a sync request, the `int` counts all bytes. -/
def SyncIndexCounts (w : World) (ptr : U64) : Prop :=
  ∀ u data size, DumpCalled w ptr u data size → IndexCounts u data size

variable {w : World} {ptr : U64}

/-- The lines up to the test of the type. -/
theorem syncDecoder_pre_run (w : World) (ptr : U64) : ∃ u, Sees w.tracker w.mem u ∧
    ∀ dump : U64 → U64 → Wrap Unit, syncDecoder dump .pre ptr w =
      (if syncType w.mem ptr = maliSyncToDevice then do
        panwrapLog "Dumping memory being synced to device:\n" []
        panwrapIndentIncr
        dump (syncUserAddr w.mem ptr) (syncSize w.mem ptr)
        panwrapIndentDecr
      else pure () : Wrap Unit) u := by
  -- the four members of the request that the decoder reads
  let v : World := (((w.emit (.load (ptr + 8) 8)).emit (.load (ptr + 32) 1)).emit
    (.load (ptr + 16) 8)).emit (.load (ptr + 24) 8)
  have hv : Sees w.tracker w.mem v := ⟨rfl, rfl⟩
  obtain ⟨_, v₁, hlines, hv₁⟩ := (total_logSyncRange (syncHandle w.mem ptr)
    (syncUserAddr w.mem ptr) (syncSize w.mem ptr)
    (panwrapFindMappedGpuMem w.tracker.mmaps (syncHandle w.mem ptr))).returns hv
  obtain ⟨_, v₂, hsize, hv₂⟩ :=
    (total_panwrapLog "size = %ld\n" [.u64 (syncSize w.mem ptr)]).returns hv₁
  obtain ⟨_, u, htype, hu⟩ := (total_panwrapLog "type = %d (%s)\n"
    [.int (syncType w.mem ptr).toNat, .str (syncTypeName (syncType w.mem ptr))]).returns hv₂
  refine ⟨u, hu, fun dump => ?_⟩
  have hreads : syncDecoder dump .pre ptr w = (do
      logSyncRange (syncHandle w.mem ptr) (syncUserAddr w.mem ptr) (syncSize w.mem ptr)
        (panwrapFindMappedGpuMem w.tracker.mmaps (syncHandle w.mem ptr))
      panwrapLog "size = %ld\n" [.u64 (syncSize w.mem ptr)]
      panwrapLog "type = %d (%s)\n"
        [.int (syncType w.mem ptr).toNat, .str (syncTypeName (syncType w.mem ptr))]
      if syncType w.mem ptr = maliSyncToDevice then do
        panwrapLog "Dumping memory being synced to device:\n" []
        panwrapIndentIncr
        dump (syncUserAddr w.mem ptr) (syncSize w.mem ptr)
        panwrapIndentDecr
      else pure () : Wrap Unit) v := rfl
  rw [hreads, bind_ok hlines, bind_ok hsize, bind_ok htype]

/-- A request to the device has its range dumped as it is. -/
theorem dumpCalled_of_toDevice (htype : syncType w.mem ptr = maliSyncToDevice) :
    ∃ u, DumpCalled w ptr u (syncUserAddr w.mem ptr) (syncSize w.mem ptr) := by
  obtain ⟨u, hu, hrun⟩ := syncDecoder_pre_run w ptr
  obtain ⟨_, u₁, hline, hu₁⟩ :=
    (total_panwrapLog "Dumping memory being synced to device:\n" []).returns hu
  have hincr : Total (Sees w.tracker w.mem) panwrapIndentIncr := inferInstance
  obtain ⟨_, u₂, hindent, -⟩ := hincr.returns hu₁
  refine ⟨u₂, fun _ => panwrapIndentDecr, fun dump => ?_⟩
  rw [hrun dump, if_pos htype, bind_ok hline, bind_ok hindent]

/-- Nothing else is dumped before the call. -/
theorem DumpCalled.request {u : World} {data size : U64} (h : DumpCalled w ptr u data size) :
    syncType w.mem ptr = maliSyncToDevice ∧ size = syncSize w.mem ptr := by
  obtain ⟨rest, hcalled⟩ := h
  -- a dump that notes its arguments and stops
  let stop (data size : U64) : Wrap Unit := fun v => .error .deadlock (v.emit (.hexdump data size))
  have hstopped : syncDecoder stop .pre ptr w = .error .deadlock (u.emit (.hexdump data size)) :=
    hcalled stop
  by_cases htype : syncType w.mem ptr = maliSyncToDevice
  · obtain ⟨u', rest', hcalled'⟩ := dumpCalled_of_toDevice htype
    have hstopped' : syncDecoder stop .pre ptr w =
        .error .deadlock (u'.emit (.hexdump (syncUserAddr w.mem ptr) (syncSize w.mem ptr))) :=
      hcalled' stop
    have hsame := congrArg World.trace (EStateM.Result.error.inj (hstopped.symm.trans hstopped')).2
    have hlast := (List.append_inj' hsame rfl).2
    have hevent : Event.hexdump data size =
        .hexdump (syncUserAddr w.mem ptr) (syncSize w.mem ptr) := List.singleton_inj.mp hlast
    exact ⟨htype, (Event.hexdump.inj hevent).2⟩
  · obtain ⟨v, -, hrun⟩ := syncDecoder_pre_run w ptr
    have hreturned := hrun stop
    rw [if_neg htype] at hreturned
    cases hstopped.symm.trans hreturned

/-- The `int` of the hexdump before the call counts all bytes of a sync request if and only if the
request is not to the device or its size is one that an `int` has. -/
theorem sync_index_counts_iff (w : World) (ptr : U64) :
    SyncIndexCounts w ptr ↔
      (syncType w.mem ptr = maliSyncToDevice → (syncSize w.mem ptr).toNat ≤ intMax) := by
  constructor
  · intro h htype
    obtain ⟨u, hcalled⟩ := dumpCalled_of_toDevice htype
    exact indexCounts_iff.mp (h u _ _ hcalled)
  · intro hsize u data size hcalled
    obtain ⟨htype, rfl⟩ := hcalled.request
    exact indexCounts_iff.mpr (hsize htype)

/-- With more bytes the decoder ends in the hexdump. -/
theorem ioctlDecodePreSync_overflow (htype : syncType w.mem ptr = maliSyncToDevice)
    (hsize : intMax < (syncSize w.mem ptr).toNat) :
    ∃ w', ioctlDecodePreSync ptr w = .error .intOverflow w' := by
  obtain ⟨u, rest, hcalled⟩ := dumpCalled_of_toDevice htype
  have hrun : ioctlDecodePreSync ptr w = _ := hcalled panwrapLogHexdump
  have hstops : Ensures (Sees u.tracker u.mem)
      (panwrapLogHexdump (syncUserAddr w.mem ptr) (syncSize w.mem ptr)) (fun _ _ => False)
      fun h _ => h = .intOverflow := panwrapLogHexdump_overflow hsize
  have hend := hstops u (Sees.self u)
  cases hr : panwrapLogHexdump (syncUserAddr w.mem ptr) (syncSize w.mem ptr) u with
  | ok a u' =>
    rw [hr] at hend
    exact hend.elim
  | error e u' =>
    rw [hr] at hend
    obtain rfl : e = .intOverflow := hend
    exact ⟨u', hrun.trans (bind_error hr)⟩

/-- 2 GiB of GPU memory, with the CPU addresses from 0x7f0000000000 on. -/
def hugeMapping : PanwrapMappedMemory := ⟨0x80000000, 0x7f0000000000, 0x100000, 3, 0⟩

/-- A sync of that memory to the device: its handle, its CPU address and its size. -/
def longSync : Memory := fun a =>
  if a = 0x100a then 0x10 else if a = 0x1015 then 0x7f else if a = 0x101b then 0x80 else 0

def longSyncWorld : World := { World.plain.withMmaps [hugeMapping] with mem := longSync }

theorem long_sync_overflows : syncUserAddr longSync 0x1000 = hugeMapping.addr ∧
    syncSize longSync 0x1000 = hugeMapping.length ∧ ¬SyncIndexCounts longSyncWorld 0x1000 := by
  refine ⟨by decide, by decide, fun h => ?_⟩
  have htype : syncType longSync 0x1000 = maliSyncToDevice := by decide
  obtain ⟨u, hcalled⟩ := @dumpCalled_of_toDevice longSyncWorld 0x1000 htype
  have hsize : (syncSize longSync 0x1000).toNat ≤ intMax := indexCounts_iff.mp (h u _ _ hcalled)
  exact absurd hsize (by decide)

end Requests
end Panloader
