import Panloader.EventsAll
import Panloader.HexdumpLength
import Panloader.IoctlCases

/-! The dumps of a sync. The decoders before and after the call hand a buffer of the program to
the hexdump; whether it lies in the mapping that the request is about is up to the request. -/
namespace Panloader
open Effects

set_option synthInstance.maxSize 4000

/-- Neither a read of memory nor a buffer for the hexdump. -/
def Event.Untouching : Event → Prop
  | .load _ _ => False
  | .hexdump _ _ => False
  | _ => True

class Untouching {α : Type} (m : Wrap α) : Prop where
  events (mem : Memory) : Admits mem Event.Untouching m

section Untouching

variable {α β : Type} {m m' : Wrap α} {f : α → Wrap β}

instance untouching_bind [hm : Untouching m] [hf : ∀ a, Untouching (f a)] :
    Untouching (m >>= f) where
  events mem := (hm.events mem).bind fun a => (hf a).events mem

instance untouching_ite {p : Prop} [Decidable p] [hm : Untouching m] [hm' : Untouching m'] :
    Untouching (if p then m else m') := by
  split_ifs
  · exact hm
  · exact hm'

instance untouching_pure (a : α) : Untouching (pure a : Wrap α) where
  events _ := .pure a

instance untouching_halt (h : Halt) : Untouching (halt h : Wrap α) where
  events _ := .halt h

instance untouching_log (format : String) (args : List Arg) :
    Untouching (panwrapLog format args) where
  events _ := .log (fun _ => trivial) fun _ _ => trivial

instance untouching_cont (format : String) (args : List Arg) :
    Untouching (panwrapLogCont format args) where
  events _ := .emit trivial

instance untouching_indentIncr : Untouching panwrapIndentIncr where
  events _ := .of_event (e := fun w => .indent (w.panwrapIndent+1))
    (fun _ => ⟨_, _, rfl, rfl, rfl⟩) fun _ => trivial

instance untouching_indentDecr : Untouching panwrapIndentDecr where
  events _ := .of_event (e := fun w => .indent (w.panwrapIndent-1))
    (fun _ => ⟨_, _, rfl, rfl, rfl⟩) fun _ => trivial

instance untouching_tracker : Untouching tracker where
  events _ := Relates.of_ok fun w => ⟨w.tracker, w, rfl, AllEvents.refl w⟩

instance untouching_trimming : Untouching enableHexdumpTrimming where
  events _ := Relates.of_ok fun w => ⟨w.enableHexdumpTrimming, w, rfl, AllEvents.refl w⟩

instance untouching_logSyncRange (handle userAddr size : U64) (mem : Option PanwrapMappedMemory) :
    Untouching (logSyncRange handle userAddr size mem) := by
  cases mem
  all_goals
    unfold logSyncRange
    infer_instance

end Untouching

section Hexdump

variable {mem : Memory} {data size : U64}

/-- What is read is a byte of the `n` ones at `data`. -/
def Event.ReadsBuffer (data : U64) (n : ℕ) : Event → Prop
  | .load a k => k = 1 ∧ ∃ i < n, a = data + BitVec.ofNat 64 i
  | _ => True

theorem Event.Untouching.readsBuffer {data : U64} {n : ℕ} {e : Event} (h : e.Untouching) :
    e.ReadsBuffer data n := by
  cases e with
  | load => exact h.elim
  | hexdump | log | cont | clock | indent | real => trivial

theorem readsBuffer_of_untouching {α : Type} {m : Wrap α} [hm : Untouching m] {n : ℕ} :
    Admits mem (Event.ReadsBuffer data n) m :=
  (hm.events mem).mono fun _ h => h.readsBuffer

theorem hexdumpCell_reads (alpha : Gutter) {i n : ℕ} (hi : i < n) :
    Admits mem (Event.ReadsBuffer data n) (hexdumpCell data alpha i) := by
  apply readsBuffer_of_untouching.bind
  intro _
  apply readsBuffer_of_untouching.bind
  intro _
  apply Admits.bind
  · by_cases hwraps : data + BitVec.ofNat 64 i < data
    · rw [if_pos hwraps]
      unfold hexdumpWrapped
      exact readsBuffer_of_untouching
    · rw [if_neg hwraps]
      apply Admits.bind
      · exact Admits.read ⟨rfl, i, hi, rfl⟩
      · intro _
        exact readsBuffer_of_untouching
  · intro _
    exact readsBuffer_of_untouching

theorem hexdumpCells_reads (alpha : Gutter) {i c n : ℕ} (hn : i + c ≤ n) :
    Admits mem (Event.ReadsBuffer data n) (hexdumpCells data i c alpha) := by
  induction c generalizing i alpha with
  | zero => exact Admits.pure alpha
  | succ c ih =>
    apply (hexdumpCell_reads alpha (by omega)).bind
    intro _
    apply readsBuffer_of_untouching.bind
    intro _
    exact ih _ (by omega)

theorem hexdumpPad_untouching (i c : ℕ) (alpha : Gutter) : Untouching (hexdumpPad i c alpha) := by
  induction c generalizing i alpha with
  | zero => exact untouching_pure ()
  | succ c ih =>
    unfold hexdumpPad
    infer_instance

theorem panwrapLogHexdump_reads {n : ℕ} (hn : size.toNat ≤ n) :
    Admits mem (Event.ReadsBuffer data n) (panwrapLogHexdump data size) := by
  have hpad := hexdumpPad_untouching
  apply (Admits.emit trivial).bind
  intro _
  apply (hexdumpCells_reads _ (by omega)).bind
  intro _
  exact readsBuffer_of_untouching

/-- The scan goes down from the last byte of the buffer and ends at `-1`, if it starts there or
above. -/
structure ScanOffset (size : U64) (room : ℕ) (trimOffset : ℤ) : Prop where
  room : trimOffset = room - 2^63
  upper : trimOffset ≤ (size - 1).toInt
  lower : -1 ≤ (size - 1).toInt → -1 ≤ trimOffset

theorem ScanOffset.start : ScanOffset size ((size - 1).toInt + 2^63).toNat (size - 1).toInt where
  room := by
    have hlower := (size - 1).le_toInt
    omega
  upper := Int.le_refl _
  lower h := h

theorem ScanOffset.down {room : ℕ} {trimOffset : ℤ} (h : ScanOffset size (room+1) trimOffset)
    (hstop : trimOffset ≠ -1) : ScanOffset size room (trimOffset-1) where
  room := by
    have hroom := h.room
    omega
  upper := by
    have hupper := h.upper
    omega
  lower hlast := by
    have hlower := h.lower hlast
    omega

theorem ScanOffset.byte {room : ℕ} {trimOffset : ℤ} (h : ScanOffset size room trimOffset)
    (hstop : trimOffset ≠ -1) : (BitVec.ofInt 64 trimOffset).toNat < size.toNat := by
  have hroom := h.room
  have hupper := h.upper
  have hlower := h.lower
  have hlast : (size - 1).toInt = if size.toNat = 0 then -1 else
      if size.toNat ≤ 2^63 then (size.toNat : ℤ) - 1 else (size.toNat : ℤ) - 1 - 2^64 := by
    rw [BitVec.toInt_eq_toNat_cond, BitVec.toNat_sub]
    have hone : (1 : U64).toNat = 1 := rfl
    have hsize := size.isLt
    split_ifs <;> omega
  rw [BitVec.toNat_ofInt]
  split_ifs at hlast <;> omega

theorem trimScan_reads {room : ℕ} {trimOffset : ℤ} (h : ScanOffset size room trimOffset) :
    Admits mem (Event.ReadsBuffer data size.toNat) (trimScan data room trimOffset) := by
  have hread {o : ℤ} {r : ℕ} (ho : ScanOffset size r o) (hstop : o ≠ -1) :
      (.load (data + BitVec.ofInt 64 o) 1 : Event).ReadsBuffer data size.toNat := by
    refine ⟨rfl, _, ho.byte hstop, ?_⟩
    rw [BitVec.ofNat_toNat, BitVec.setWidth_eq]
  induction room generalizing trimOffset with
  | zero =>
    unfold trimScan
    dsimp only
    split_ifs with hstop
    · exact Admits.pure _
    · apply (Admits.read (hread h hstop)).bind
      intro _
      exact readsBuffer_of_untouching
  | succ room ih =>
    unfold trimScan
    dsimp only
    split_ifs with hstop
    · exact Admits.pure _
    · apply (Admits.read (hread h hstop)).bind
      intro b
      by_cases hb : b ≠ 0
      · rw [if_pos hb]
        exact Admits.pure _
      · rw [if_neg hb]
        exact ih (h.down hstop)

theorem trimSize_le {trimOffset : ℤ} (hle : trimOffset ≤ (size - 1).toInt)
    (hsome : ¬trimOffset < 0) : (BitVec.ofInt 64 (trimOffset + 1)).toNat ≤ size.toNat := by
  have hlast : (size - 1).toInt < size.toNat := by
    have hone : (1 : U64).toNat = 1 := rfl
    rw [BitVec.toInt_eq_toNat_cond, BitVec.toNat_sub]
    split_ifs <;> omega
  rw [BitVec.toNat_ofInt]
  omega

theorem panwrapLogHexdumpTrimmed_reads :
    Admits mem (Event.ReadsBuffer data size.toNat) (panwrapLogHexdumpTrimmed data size) := by
  apply readsBuffer_of_untouching.bind
  intro trim
  by_cases htrim : trim = true
  · rw [if_neg (by simp [htrim])]
    have hbound : Ensures (fun _ => True)
        (trimScan data ((size - 1).toInt + 2^63).toNat (size - 1).toInt)
        (fun r _ => r ≤ (size - 1).toInt ∧ True) fun h _ => h = .intOverflow :=
      trimScan_le (fun _ _ h => h) _ _
    apply (trimScan_reads ScanOffset.start).after
      (hbound.mono (fun _ _ h => h.1) fun _ _ _ => trivial)
    intro trimOffset hle
    by_cases hnone : trimOffset < 0
    · -- nothing was found, also where the scan ended below -1
      rw [if_pos hnone]
      exact panwrapLogHexdump_reads (Nat.le_refl _)
    · rw [if_neg hnone]
      apply (panwrapLogHexdump_reads ?_).bind
      · intro _
        exact readsBuffer_of_untouching
      · exact trimSize_le hle hnone
  · rw [if_pos (by simp [htrim])]
    exact panwrapLogHexdump_reads (Nat.le_refl _)

end Hexdump

/-- The members of `struct mali_ioctl_sync`. -/
def syncHandle (mem : Memory) (ptr : U64) : U64 := mem.read (ptr + 8) 8
def syncUserAddr (mem : Memory) (ptr : U64) : U64 := mem.read (ptr + 16) 8
def syncSize (mem : Memory) (ptr : U64) : U64 := mem.read (ptr + 24) 8
def syncType (mem : Memory) (ptr : U64) : U8 := mem.read (ptr + 32) 1

/-- The type of sync whose memory is dumped before, or after, the call. -/
def IoctlStage.dumpedType : IoctlStage → U8
  | .pre => maliSyncToDevice
  | .post => maliSyncToCpu

/-- `ioctl_decode_pre_sync` and `ioctl_decode_post_sync` with `dump` for the hexdump. -/
def syncDecoder (dump : U64 → U64 → Wrap Unit) : IoctlStage → U64 → Wrap Unit
  | .pre, ptr => do
    let handle ← load64 (ptr + 8)
    let t ← tracker
    let type ← load8 (ptr + 32)
    let userAddr ← load64 (ptr + 16)
    let size ← load64 (ptr + 24)
    logSyncRange handle userAddr size (panwrapFindMappedGpuMem t.mmaps handle)
    panwrapLog "size = %ld\n" [.u64 size]
    panwrapLog "type = %d (%s)\n" [.int type.toNat, .str (syncTypeName type)]
    if type = maliSyncToDevice then do
      panwrapLog "Dumping memory being synced to device:\n" []
      panwrapIndentIncr
      dump userAddr size
      panwrapIndentDecr
    else pure ()
  | .post, ptr => do
    let type ← load8 (ptr + 32)
    if type ≠ maliSyncToCpu then pure ()
    else do
      let userAddr ← load64 (ptr + 16)
      let size ← load64 (ptr + 24)
      panwrapLog "Dumping memory from device:\n" []
      panwrapIndentIncr
      dump userAddr size
      panwrapIndentDecr

def IoctlStage.decodeSync : IoctlStage → U64 → Wrap Unit
  | .pre => ioctlDecodePreSync
  | .post => ioctlDecodePostSync

def IoctlStage.syncHexdump : IoctlStage → U64 → U64 → Wrap Unit
  | .pre => panwrapLogHexdump
  | .post => panwrapLogHexdumpTrimmed

theorem decodeSync_eq (stage : IoctlStage) :
    stage.decodeSync = syncDecoder stage.syncHexdump stage := by
  cases stage
  · rfl
  · rfl

section Decoders

variable {mem : Memory} {ptr : U64} {q : Event → Prop} {dump : U64 → U64 → Wrap Unit}

/-- What holds of the lines, of the reads of the argument and, where there is one, of the dump. -/
theorem syncDecoder_admits (stage : IoctlStage) (hlines : ∀ e : Event, e.Untouching → q e)
    (hargument : ∀ a n, (a - ptr).toNat + n ≤ 40 → q (.load a n))
    (hdump : syncType mem ptr = stage.dumpedType →
      Admits mem q (dump (syncUserAddr mem ptr) (syncSize mem ptr))) :
    Admits mem q (syncDecoder dump stage ptr) := by
  have hquiet {α : Type} (m : Wrap α) [hm : Untouching m] : Admits mem q m :=
    (hm.events mem).mono hlines
  have hfield (k : U64) (n : ℕ) (hk : k.toNat + n ≤ 40) : q (.load (ptr + k) n) := by
    apply hargument
    rw [BitVec.add_comm, BitVec.add_sub_cancel]
    exact hk
  cases stage with
  | pre =>
    apply Admits.load (hfield 8 8 (by decide))
    apply (hquiet tracker).bind
    intro t
    apply Admits.load (hfield 32 1 (by decide))
    apply Admits.load (hfield 16 8 (by decide))
    apply Admits.load (hfield 24 8 (by decide))
    -- the range, the size and the type
    apply (hquiet _).bind
    intro _
    apply (hquiet _).bind
    intro _
    apply (hquiet _).bind
    intro _
    by_cases htype : mem.read (ptr + 32) 1 = maliSyncToDevice
    · rw [if_pos htype]
      apply (hquiet _).bind
      intro _
      apply (hquiet _).bind
      intro _
      apply (hdump htype).bind
      intro _
      exact hquiet _
    · rw [if_neg htype]
      exact hquiet _
  | post =>
    apply Admits.load (hfield 32 1 (by decide))
    by_cases htype : mem.read (ptr + 32) 1 = maliSyncToCpu
    · rw [if_neg (not_not_intro htype)]
      apply Admits.load (hfield 16 8 (by decide))
      apply Admits.load (hfield 24 8 (by decide))
      apply (hquiet _).bind
      intro _
      apply (hquiet _).bind
      intro _
      apply (hdump htype).bind
      intro _
      exact hquiet _
    · rw [if_pos htype]
      exact hquiet _

instance total_logSyncRange {t : Tracker} (handle userAddr size : U64)
    (m : Option PanwrapMappedMemory) :
    Total (Sees t mem) (logSyncRange handle userAddr size m) := by
  cases m
  all_goals
    unfold logSyncRange
    infer_instance

/-- What the dump is certain to leave. -/
theorem syncDecoder_certain {t : Tracker} {stage : IoctlStage} [∀ d n, Plain (dump d n)]
    (htype : syncType mem ptr = stage.dumpedType)
    (hdump : Certain t mem q (dump (syncUserAddr mem ptr) (syncSize mem ptr))) :
    Certain t mem q (syncDecoder dump stage ptr) := by
  cases stage with
  | pre =>
    have htracker : Total (Sees t mem) tracker := ⟨fun _ hw => hw⟩
    apply Certain.load
    apply Certain.seq
    intro t'
    apply Certain.load
    apply Certain.load
    apply Certain.load
    iterate 3
      apply Certain.seq
      intro _
    have htype' : mem.read (ptr + 32) 1 = maliSyncToDevice := htype
    rw [if_pos htype']
    iterate 2
      apply Certain.seq
      intro _
    exact Certain.first hdump
  | post =>
    apply Certain.load
    have htype' : mem.read (ptr + 32) 1 = maliSyncToCpu := htype
    rw [if_neg (not_not_intro htype')]
    apply Certain.load
    apply Certain.load
    iterate 2
      apply Certain.seq
      intro _
    exact Certain.first hdump

end Decoders

section Claims

def PanwrapMappedMemory.Holds (m : PanwrapMappedMemory) (a : U64) : Prop :=
  m.addr.toNat ≤ a.toNat ∧ a.toNat < m.addr.toNat + m.length.toNat

/-- The `size` bytes at `addr` do not wrap, and end where the mapping ends or before. -/
structure PanwrapMappedMemory.HasRange (m : PanwrapMappedMemory) (addr size : U64) : Prop where
  lower : m.addr ≤ addr
  upper : addr.toNat + size.toNat ≤ m.addr.toNat + m.length.toNat
  flat : addr.toNat + size.toNat ≤ 2^64

theorem PanwrapMappedMemory.hasRange_iff {m : PanwrapMappedMemory} {addr size : U64}
    (hsize : size ≠ 0) :
    m.HasRange addr size ↔ ∀ k < size.toNat, m.Holds (addr + BitVec.ofNat 64 k) := by
  have hbyte (k : ℕ) (hk : k < size.toNat) :
      (addr + BitVec.ofNat 64 k).toNat = (addr.toNat + k) % 2^64 := by
    rw [BitVec.toNat_add, BitVec.toNat_ofNat, Nat.add_mod_mod]
  constructor
  · rintro ⟨hlower, hupper, hflat⟩ k hk
    have hlower' := BitVec.le_def.mp hlower
    unfold PanwrapMappedMemory.Holds
    rw [hbyte k hk]
    omega
  · intro h
    have hpos : 0 < size.toNat := by bv_omega
    unfold PanwrapMappedMemory.Holds at h
    have hfirst := h 0 hpos
    have hlast := h (size.toNat - 1) (by omega)
    rw [hbyte 0 hpos] at hfirst
    rw [hbyte _ (by omega)] at hlast
    have haddr := addr.isLt
    -- a range that wraps has the first and the last byte of the address space
    have hflat : addr.toNat + size.toNat ≤ 2^64 := by
      by_contra hwraps
      have hlow := h (2^64 - addr.toNat) (by omega)
      have htop := h (2^64 - 1 - addr.toNat) (by omega)
      rw [hbyte _ (by omega)] at hlow htop
      have hlength := m.length.isLt
      omega
    exact ⟨BitVec.le_def.mpr (by omega), by omega, hflat⟩

/-- The buffers that a sync decoder hands to the hexdump are noted instead of dumped. -/
def noteBuffer (data size : U64) : Wrap Unit := emit (.hexdump data size)

/-- All bytes handed to the hexdump belong to the mapping that the handle of the request
finds. -/
def SyncDumpTracked (stage : IoctlStage) (w : World) (ptr : U64) : Prop :=
  ∀ data size, .hexdump data size ∈ w.eventsOf (syncDecoder noteBuffer stage ptr) →
    ∀ k < size.toNat, ∃ m,
      panwrapFindMappedGpuMem w.tracker.mmaps (syncHandle w.mem ptr) = some m ∧
        m.Holds (data + BitVec.ofNat 64 k)

/-- The request is for another stage, or its range is empty or inside that mapping. -/
def SyncInRange (stage : IoctlStage) (w : World) (ptr : U64) : Prop :=
  syncType w.mem ptr = stage.dumpedType → syncSize w.mem ptr ≠ 0 → ∃ m,
    panwrapFindMappedGpuMem w.tracker.mmaps (syncHandle w.mem ptr) = some m ∧
      m.HasRange (syncUserAddr w.mem ptr) (syncSize w.mem ptr)

variable {stage : IoctlStage} {w : World} {ptr : U64}

theorem syncInRange_of_tracked (h : SyncDumpTracked stage w ptr) : SyncInRange stage w ptr := by
  intro htype hsize
  have hnoted : Certain w.tracker w.mem
      (· = .hexdump (syncUserAddr w.mem ptr) (syncSize w.mem ptr))
      (syncDecoder noteBuffer stage ptr) := by
    have hplain (d n : U64) : Plain (noteBuffer d n) := plain_hexdump d n
    apply syncDecoder_certain htype
    rintro u - _ rfl
    exact ⟨_, rfl, _, List.mem_singleton.mpr rfl, rfl⟩
  obtain ⟨_, he, rfl⟩ := hnoted.eventsOf
  have hbytes := h _ _ he
  have hpos : 0 < (syncSize w.mem ptr).toNat := by bv_omega
  -- one mapping holds all the bytes
  obtain ⟨m, hm, -⟩ := hbytes 0 hpos
  refine ⟨m, hm, (PanwrapMappedMemory.hasRange_iff hsize).mpr fun k hk => ?_⟩
  obtain ⟨m', hm', hholds⟩ := hbytes k hk
  rw [hm] at hm'
  rwa [Option.some.inj hm']

theorem syncDumpTracked_of_inRange (h : SyncInRange stage w ptr) :
    SyncDumpTracked stage w ptr := by
  have hnoted : Admits w.mem (fun e => ∀ d n, e = .hexdump d n →
      syncType w.mem ptr = stage.dumpedType ∧ d = syncUserAddr w.mem ptr ∧
        n = syncSize w.mem ptr) (syncDecoder noteBuffer stage ptr) := by
    apply syncDecoder_admits
    · rintro _ hquiet d n rfl
      exact hquiet.elim
    · intro a n _ d n' he
      exact nomatch he
    · intro htype
      apply Admits.emit
      intro d n he
      cases he
      exact ⟨htype, rfl, rfl⟩
  intro data size he k hk
  obtain ⟨htype, rfl, rfl⟩ := hnoted.eventsOf _ he data size rfl
  have hsize : syncSize w.mem ptr ≠ 0 := by bv_omega
  obtain ⟨m, hm, hholds⟩ := h htype hsize
  exact ⟨m, hm, (PanwrapMappedMemory.hasRange_iff hsize).mp hholds k hk⟩

/-- Before and after the call, nothing but bytes of the request's mapping is dumped if and only if
the request names nothing else. -/
theorem sync_dump_tracked_iff (stage : IoctlStage) (w : World) (ptr : U64) :
    SyncDumpTracked stage w ptr ↔ SyncInRange stage w ptr :=
  ⟨syncInRange_of_tracked, syncDumpTracked_of_inRange⟩

/-- Memory is then read in the argument and in the mapping only. -/
theorem sync_reads_tracked (hrange : SyncInRange stage w ptr) {a : U64} {n : ℕ}
    (hload : .load a n ∈ w.eventsOf (stage.decodeSync ptr)) :
    (a - ptr).toNat + n ≤ 40 ∨ ∃ m,
      panwrapFindMappedGpuMem w.tracker.mmaps (syncHandle w.mem ptr) = some m ∧ m.Holds a := by
  have hreads : Admits w.mem (fun e => ∀ a n, e = .load a n → (a - ptr).toNat + n ≤ 40 ∨
      syncType w.mem ptr = stage.dumpedType ∧
        ∃ i < (syncSize w.mem ptr).toNat, a = syncUserAddr w.mem ptr + BitVec.ofNat 64 i)
      (stage.decodeSync ptr) := by
    rw [decodeSync_eq]
    apply syncDecoder_admits
    · rintro _ hquiet a n rfl
      exact hquiet.elim
    · rintro _ _ hargument a n he
      cases he
      exact Or.inl hargument
    · intro htype
      have hdump : Admits w.mem
          (Event.ReadsBuffer (syncUserAddr w.mem ptr) (syncSize w.mem ptr).toNat)
          (stage.syncHexdump (syncUserAddr w.mem ptr) (syncSize w.mem ptr)) := by
        cases stage
        · exact panwrapLogHexdump_reads (Nat.le_refl _)
        · exact panwrapLogHexdumpTrimmed_reads
      apply hdump.mono
      rintro _ hbuffer a n rfl
      exact Or.inr ⟨htype, hbuffer.2⟩
  obtain hargument | ⟨htype, i, hi, rfl⟩ := hreads.eventsOf _ hload a n rfl
  · exact Or.inl hargument
  · have hsize : syncSize w.mem ptr ≠ 0 := by bv_omega
    obtain ⟨m, hm, hholds⟩ := hrange htype hsize
    exact Or.inr ⟨m, hm, (PanwrapMappedMemory.hasRange_iff hsize).mp hholds i hi⟩

/-- A sync of one byte to the device, with the handle 0. -/
def oneByteSync : Memory := fun a => if a = 0x1018 then 1 else 0

/-- Its byte is dumped though no mapping has this handle. -/
theorem unknown_handle_dumped :
    ¬SyncDumpTracked .pre { World.plain with mem := oneByteSync } 0x1000 := by
  intro h
  obtain ⟨m, hm, -⟩ := syncInRange_of_tracked h (by decide) (by decide)
  exact absurd hm (by simp [World.plain, World.initial, panwrapFindMappedGpuMem])

end Claims
end Panloader
