import Mathlib.Data.List.Perm.Basic
import Panloader.Runs

/-! Where tracked memory comes from. A ledger notes for every record the step that made it,
for every mapping the step that mapped it and the record it used up, and for every mapping
that is gone the step that unmapped it. -/
namespace Panloader
open FirstMatch

/-- A record that is still pending. -/
structure PendingEntry where
  madeAt : ℕ
  mem : PanwrapAllocatedMemory

/-- A mapping and the record it used up. -/
structure MappedEntry where
  madeAt : ℕ
  mem : PanwrapAllocatedMemory
  mappedAt : ℕ
  mapping : PanwrapMappedMemory

/-- A mapping that was unmapped. -/
structure GoneEntry extends MappedEntry where
  unmappedAt : ℕ

structure Ledger where
  pending : List PendingEntry
  mapped : List MappedEntry
  gone : List GoneEntry

/-- The mappings made so far. -/
def Ledger.consumed (book : Ledger) : List MappedEntry :=
  book.mapped ++ book.gone.map GoneEntry.toMappedEntry

/-- What the steps of a run asked of the tracker, in their order. -/
abbrev History := List (Option TrackEvent)

def history (steps : List Step) : History := steps.map fun s => s.call.trackEvent s.before.maliFd

/-- The steps that made a record. -/
def recordSteps (es : History) : List ℕ :=
  (List.range es.length).filter fun i =>
    match es[i]? with
    | some (some (.record _)) => true
    | _ => false

/-- The mapping was made by a mapping step, out of the record of an earlier step for the GPU
address it was mapped at: it has that record's flags, and the record's GPU address or, for
`MALI_MEM_SAME_VA`, its own CPU address. -/
structure MappedEntry.Born (es : History) (e : MappedEntry) : Prop where
  order : e.madeAt < e.mappedAt
  made : es[e.madeAt]? = some (some (.record e.mem))
  mapped : es[e.mappedAt]? =
    some (some (.map e.mem.gpuVa e.mapping.addr e.mapping.length e.mapping.prot))
  flags : e.mapping.flags = e.mem.flags
  gpuVa : e.mapping.gpuVa =
    if e.mem.flags &&& maliMemSameVa ≠ 0 then e.mapping.addr else e.mem.gpuVa

/-- The ledger accounts for both tables after the history `es`. -/
structure Provenance (es : History) (t : Tracker) (book : Ledger) : Prop where
  /-- The ledger lists the entries of the tables. -/
  allocations : t.allocations = book.pending.map PendingEntry.mem
  mmaps : t.mmaps = book.mapped.map MappedEntry.mapping
  /-- Every pending record was made by its step, the newer ones later. -/
  pending : ∀ p ∈ book.pending, es[p.madeAt]? = some (some (.record p.mem))
  newest : book.pending.Pairwise fun p q => q.madeAt < p.madeAt
  /-- Every mapping was made by one step out of one record. -/
  born : ∀ e ∈ book.consumed, e.Born es
  once : (book.consumed.map MappedEntry.mappedAt).Nodup
  /-- A later record for the same GPU address had been used up when the mapping was made. -/
  latest : ∀ e ∈ book.consumed, ∀ k mem, e.madeAt < k → k < e.mappedAt →
    es[k]? = some (some (.record mem)) → mem.gpuVa = e.mem.gpuVa →
    ∃ e' ∈ book.consumed, e'.madeAt = k ∧ e'.mappedAt < e.mappedAt
  /-- Every mapping that is gone was unmapped at its address by one later step. -/
  gone : ∀ g ∈ book.gone, g.mappedAt < g.unmappedAt ∧
    es[g.unmappedAt]? = some (some (.unmap g.mapping.addr))
  goneOnce : (book.gone.map GoneEntry.unmappedAt).Nodup
  /-- Every record is pending, mapped or gone, and just one of these. -/
  conserved : (book.pending.map PendingEntry.madeAt ++
    book.consumed.map MappedEntry.madeAt).Perm (recordSteps es)

section History

variable {es : History} {e : Option TrackEvent} {i : ℕ}

theorem getElem?_snoc_of_eq_some {x : Option TrackEvent} (h : es[i]? = some x) :
    (es ++ [e])[i]? = some x := by
  obtain ⟨hi, -⟩ := List.getElem?_eq_some_iff.mp h
  rw [List.getElem?_append_left hi, h]

theorem getElem?_of_snoc {x : Option TrackEvent} (hi : i < es.length)
    (h : (es ++ [e])[i]? = some x) : es[i]? = some x := by
  rwa [List.getElem?_append_left hi] at h

theorem lt_length_of_eq_some {x : Option TrackEvent} (h : es[i]? = some x) : i < es.length :=
  (List.getElem?_eq_some_iff.mp h).1

theorem mem_recordSteps {mem : PanwrapAllocatedMemory}
    (h : es[i]? = some (some (.record mem))) : i ∈ recordSteps es := by
  refine List.mem_filter.mpr ⟨List.mem_range.mpr (lt_length_of_eq_some h), ?_⟩
  rw [h]

/-- A step that makes no record adds none to the count. -/
theorem recordSteps_snoc (es : History) (e : Option TrackEvent) :
    recordSteps (es ++ [e]) = recordSteps es ++
      match e with
      | some (.record _) => [es.length]
      | _ => [] := by
  have hold : (List.range es.length).filter (fun i => match (es ++ [e])[i]? with
      | some (some (.record _)) => true
      | _ => false) = recordSteps es := by
    apply List.filter_congr
    intro i hi
    rw [List.getElem?_append_left (List.mem_range.mp hi)]
  unfold recordSteps
  rw [List.length_append, List.length_singleton, List.range_succ, List.filter_append, hold]
  rcases e with _ | ⟨mem⟩ | ⟨gpuVa, addr, length, prot⟩ | addr <;> simp [recordSteps]

theorem MappedEntry.Born.snoc {m : MappedEntry} (h : m.Born es) : m.Born (es ++ [e]) :=
  ⟨h.order, getElem?_snoc_of_eq_some h.made, getElem?_snoc_of_eq_some h.mapped, h.flags, h.gpuVa⟩

end History

section Steps

variable {es : History} {t : Tracker} {book : Ledger}

theorem Provenance.start : Provenance [] ⟨[], []⟩ ⟨[], [], []⟩ where
  allocations := rfl
  mmaps := rfl
  pending := fun _ hp => nomatch hp
  newest := List.Pairwise.nil
  born := fun _ he => nomatch he
  once := List.nodup_nil
  latest := fun _ he => nomatch he
  gone := fun _ hg => nomatch hg
  goneOnce := List.nodup_nil
  conserved := List.Perm.refl _

theorem Provenance.mappedAt_lt (h : Provenance es t book) {e : MappedEntry}
    (he : e ∈ book.consumed) : e.mappedAt < es.length :=
  lt_length_of_eq_some (h.born e he).mapped

/-- The later records that a mapping had to pass over were used up before it. -/
theorem Provenance.latest_snoc (h : Provenance es t book) (x : Option TrackEvent) :
    ∀ e ∈ book.consumed, ∀ k mem, e.madeAt < k → k < e.mappedAt →
      (es ++ [x])[k]? = some (some (.record mem)) → mem.gpuVa = e.mem.gpuVa →
      ∃ e' ∈ book.consumed, e'.madeAt = k ∧ e'.mappedAt < e.mappedAt := by
  intro e he k mem hmade hmapped hk hva
  have hlt : k < es.length := Nat.lt_trans hmapped (h.mappedAt_lt he)
  exact h.latest e he k mem hmade hmapped (getElem?_of_snoc hlt hk) hva

/-- A step that makes no record and leaves the tables alone. -/
theorem Provenance.idle (h : Provenance es t book) {x : Option TrackEvent}
    (hx : recordSteps (es ++ [x]) = recordSteps es) : Provenance (es ++ [x]) t book where
  allocations := h.allocations
  mmaps := h.mmaps
  pending p hp := getElem?_snoc_of_eq_some (h.pending p hp)
  newest := h.newest
  born e he := (h.born e he).snoc
  once := h.once
  latest := h.latest_snoc x
  gone g hg := ⟨(h.gone g hg).1, getElem?_snoc_of_eq_some (h.gone g hg).2⟩
  goneOnce := h.goneOnce
  conserved := hx ▸ h.conserved

theorem Provenance.record (h : Provenance es t book) (mem : PanwrapAllocatedMemory) :
    Provenance (es ++ [some (.record mem)]) (t.addAllocation mem)
      { book with pending := ⟨es.length, mem⟩ :: book.pending } where
  allocations := by rw [Tracker.addAllocation, h.allocations, List.map_cons]
  mmaps := h.mmaps
  pending p hp := by
    rcases List.mem_cons.mp hp with rfl | hp
    · exact List.getElem?_concat_length
    · exact getElem?_snoc_of_eq_some (h.pending p hp)
  newest := List.pairwise_cons.mpr
    ⟨fun p hp => lt_length_of_eq_some (h.pending p hp), h.newest⟩
  born e he := (h.born e he).snoc
  once := h.once
  latest := h.latest_snoc _
  gone g hg := ⟨(h.gone g hg).1, getElem?_snoc_of_eq_some (h.gone g hg).2⟩
  goneOnce := h.goneOnce
  conserved := by
    rw [recordSteps_snoc]
    exact (h.conserved.cons es.length).trans (List.perm_append_singleton _ _).symm

/-- A record that is newer than the newest pending one for its address has been used up. -/
theorem Provenance.used_up (h : Provenance es t book) {p : PendingEntry}
    {mem : PanwrapAllocatedMemory} {k : ℕ}
    (hp : book.pending.find? ((fun pos => pos.gpuVa == mem.gpuVa) ∘ PendingEntry.mem) = some p)
    (hnewer : p.madeAt < k) (hrec : es[k]? = some (some (.record mem))) :
    ∃ e ∈ book.consumed, e.madeAt = k := by
  have hin := h.conserved.mem_iff.mpr (mem_recordSteps hrec)
  rcases List.mem_append.mp hin with hpending | hconsumed
  · obtain ⟨q, hq, rfl⟩ := List.mem_map.mp hpending
    have hqmem : q.mem = mem := by
      have hqrec := h.pending q hq
      rw [hrec] at hqrec
      cases hqrec
      rfl
    have hqva : ((fun pos : PanwrapAllocatedMemory => pos.gpuVa == mem.gpuVa) ∘
        PendingEntry.mem) q = true := by
      rw [Function.comp_apply, hqmem]
      exact beq_self_eq_true mem.gpuVa
    -- it would be pending, and `p` is the newest of those
    have hle := newest_of_find? h.newest hp hq hqva
    omega
  · exact List.mem_map.mp hconsumed

/-- A mapping step that finds a pending record uses up the newest one for its GPU address. -/
theorem Provenance.map_found (h : Provenance es t book) {gpuVa : U64}
    {mem : PanwrapAllocatedMemory} (hfound : t.pendingAllocation gpuVa = some mem)
    (addr length : U64) (prot : U32) :
    ∃ book', Provenance (es ++ [some (.map gpuVa addr length prot)])
      (t.addMapping gpuVa (mem.mapped gpuVa addr length prot)) book' := by
  have hva : mem.gpuVa = gpuVa := (Tracker.pendingAllocation_some hfound).2
  rw [Tracker.pendingAllocation, h.allocations, List.find?_map] at hfound
  obtain ⟨p, hp, rfl⟩ := Option.map_eq_some_iff.mp hfound
  have hmem : p ∈ book.pending := List.mem_of_find?_eq_some hp
  have hmade := h.pending p hmem
  let e : MappedEntry := ⟨p.madeAt, p.mem, es.length, p.mem.mapped gpuVa addr length prot⟩
  let book' : Ledger :=
    ⟨book.pending.eraseP ((fun pos => pos.gpuVa == gpuVa) ∘ PendingEntry.mem), e :: book.mapped,
      book.gone⟩
  have hidle : recordSteps (es ++ [some (.map gpuVa addr length prot)]) = recordSteps es := by
    rw [recordSteps_snoc, List.append_nil]
  have hbefore := h.idle hidle
  have hborn : e.Born (es ++ [some (.map gpuVa addr length prot)]) := by
    refine ⟨lt_length_of_eq_some hmade, getElem?_snoc_of_eq_some hmade, ?_, rfl, ?_⟩
    · rw [hva]
      exact List.getElem?_concat_length
    · rw [hva]
      rfl
  refine ⟨book', ?_, ?_, ?_, ?_, ?_, ?_, ?_, hbefore.gone, h.goneOnce, ?_⟩
  · rw [Tracker.addMapping, h.allocations, List.eraseP_map]
  · rw [Tracker.addMapping, h.mmaps]
    rfl
  · exact fun q hq => hbefore.pending q (List.mem_of_mem_eraseP hq)
  · exact h.newest.sublist (List.eraseP_sublist)
  · intro m hm
    rcases List.mem_cons.mp hm with rfl | hm
    · exact hborn
    · exact hbefore.born m hm
  -- the step is a new one
  · refine List.nodup_cons.mpr ⟨fun hm => ?_, h.once⟩
    obtain ⟨m, hm, heq⟩ := List.mem_map.mp hm
    exact Nat.ne_of_lt (h.mappedAt_lt hm) heq
  · intro m hm k mem' hlow hhigh hk hsame
    rcases List.mem_cons.mp hm with rfl | hm
    · have hrec : es[k]? = some (some (.record mem')) := getElem?_of_snoc hhigh hk
      have hnewest : book.pending.find? ((fun pos => pos.gpuVa == mem'.gpuVa) ∘
          PendingEntry.mem) = some p := by
        rw [hsame, hva]
        exact hp
      obtain ⟨m, hm, hk⟩ := h.used_up hnewest hlow hrec
      exact ⟨m, List.mem_cons_of_mem _ hm, hk, h.mappedAt_lt hm⟩
    · obtain ⟨m', hm', hk', hlt⟩ := hbefore.latest m hm k mem' hlow hhigh hk hsame
      exact ⟨m', List.mem_cons_of_mem _ hm', hk', hlt⟩
  -- the record moves from the pending ones to the consumed ones
  · calc book'.pending.map PendingEntry.madeAt ++ book'.consumed.map MappedEntry.madeAt
        = book'.pending.map PendingEntry.madeAt ++
            (p.madeAt :: book.consumed.map MappedEntry.madeAt) := rfl
      List.Perm _ (book.pending.map PendingEntry.madeAt ++
            book.consumed.map MappedEntry.madeAt) := perm_move PendingEntry.madeAt hp _
      List.Perm _ (recordSteps es) := h.conserved
      _ = recordSteps (es ++ [some (.map gpuVa addr length prot)]) := hidle.symm

/-- An unmapping step that finds a mapping moves it to those that are gone. -/
theorem Provenance.unmap_found (h : Provenance es t book) {addr : U64}
    {m : PanwrapMappedMemory} (hfound : panwrapFindMappedMem t.mmaps addr = some m) :
    ∃ book', Provenance (es ++ [some (.unmap addr)]) (t.delMapping addr) book' := by
  have haddr : m.addr = addr := (panwrapFindMappedMem_some hfound).2
  rw [panwrapFindMappedMem, h.mmaps, List.find?_map] at hfound
  obtain ⟨e, he, rfl⟩ := Option.map_eq_some_iff.mp hfound
  have hcons : e ∈ book.consumed :=
    List.mem_append_left _ (List.mem_of_find?_eq_some he)
  let book' : Ledger :=
    ⟨book.pending, book.mapped.eraseP ((fun pos => pos.addr == addr) ∘ MappedEntry.mapping),
      ⟨e, es.length⟩ :: book.gone⟩
  have hidle : recordSteps (es ++ [some (.unmap addr)]) = recordSteps es := by
    rw [recordSteps_snoc, List.append_nil]
  have hbefore := h.idle hidle
  -- the mappings made so far are the same, in another order
  have hperm : book.consumed.Perm book'.consumed := by
    have hmove := (perm_move id he (book.gone.map GoneEntry.toMappedEntry)).symm
    rwa [List.map_id, List.map_id] at hmove
  have hmem {e' : MappedEntry} : e' ∈ book'.consumed ↔ e' ∈ book.consumed := hperm.mem_iff.symm
  refine ⟨book', h.allocations, ?_, hbefore.pending, h.newest, ?_, ?_, ?_, ?_, ?_, ?_⟩
  · rw [Tracker.delMapping, h.mmaps, List.eraseP_map]
  · exact fun e' he' => hbefore.born e' (hmem.mp he')
  · exact (hperm.map MappedEntry.mappedAt).nodup_iff.mp h.once
  · intro e' he' k mem hlow hhigh hk hsame
    obtain ⟨e'', he'', hk', hlt⟩ := hbefore.latest e' (hmem.mp he') k mem hlow hhigh hk hsame
    exact ⟨e'', hmem.mpr he'', hk', hlt⟩
  · intro g hg
    rcases List.mem_cons.mp hg with rfl | hg
    · refine ⟨h.mappedAt_lt hcons, ?_⟩
      rw [haddr]
      exact List.getElem?_concat_length
    · exact hbefore.gone g hg
  · refine List.nodup_cons.mpr ⟨fun hg => ?_, h.goneOnce⟩
    obtain ⟨g, hg, heq⟩ := List.mem_map.mp hg
    exact Nat.ne_of_lt (lt_length_of_eq_some (h.gone g hg).2) heq
  · exact ((hperm.map MappedEntry.madeAt).symm.append_left _).trans hbefore.conserved

/-- Every step can be entered in the ledger. -/
theorem Provenance.step (h : Provenance es t book) (x : Option TrackEvent) :
    ∃ book', Provenance (es ++ [x]) (t.applyOption x) book' := by
  rcases x with _ | ⟨mem⟩ | ⟨gpuVa, addr, length, prot⟩ | addr
  · exact ⟨book, h.idle (by rw [recordSteps_snoc, List.append_nil])⟩
  · exact ⟨_, h.record mem⟩
  · rw [Tracker.applyOption, Tracker.apply]
    cases hp : t.pendingAllocation gpuVa with
    | none => exact ⟨book, h.idle (by rw [recordSteps_snoc, List.append_nil])⟩
    | some mem => exact h.map_found hp addr length prot
  · rw [Tracker.applyOption, Tracker.apply]
    cases hf : panwrapFindMappedMem t.mmaps addr with
    | none =>
      rw [Tracker.delMapping_of_not_found hf]
      exact ⟨book, h.idle (by rw [recordSteps_snoc, List.append_nil])⟩
    | some m => exact h.unmap_found hf

theorem recordSteps_nodup (es : History) : (recordSteps es).Nodup :=
  List.nodup_range.filter _

/-- The number of records made is the number of those pending, mapped and gone. -/
theorem Provenance.count (h : Provenance es t book) :
    (recordSteps es).length = t.allocations.length + t.mmaps.length + book.gone.length := by
  rw [← h.conserved.length_eq, h.allocations, h.mmaps, Ledger.consumed]
  simp only [List.length_append, List.length_map]
  omega

end Steps

/-- The calls that may change the tables: `MALI_IOCTL_MEM_ALLOC`, mappings of the Mali device,
and `munmap`. -/
def Call.Tracks (maliFd : ℤ) : Call → Prop
  | .ioctl _ request _ _ => IsMemAlloc request
  | .mmap _ _ _ _ _ fd _ _ => fd = maliFd
  | .munmap _ _ _ => True
  | _ => False

theorem Call.trackEvent_eq_none {maliFd : ℤ} {call : Call} (h : ¬call.Tracks maliFd) :
    call.trackEvent maliFd = none := by
  cases call with
  | «open» symbol path flags mode ret => rfl
  | close fd ret => rfl
  | ioctl fd request arg env => exact if_neg fun hc => h hc.2.2
  | mmap symbol addr length prot flags fd offset ret => exact if_neg fun hp => hp (.inr h)
  | munmap addr length ret => exact absurd trivial h

/-- In every reachable state there is a ledger that accounts for both tables: every mapping
comes from one mapping step and the newest pending record for its address, no record serves
twice, and none is lost. No other call changes the tables. -/
theorem tracked_memory_provenance {enableTimestamps enableHexdumpTrimming : Bool}
    {clock : ℕ → Timespec} {steps : List Step} {w : World}
    (hrun : Run (World.initial enableTimestamps enableHexdumpTrimming clock) steps w) :
    (∃ book, Provenance (history steps) w.tracker book ∧
      (book.pending.map PendingEntry.madeAt ++
        book.consumed.map MappedEntry.madeAt).Nodup ∧
      (recordSteps (history steps)).length =
        w.tracker.allocations.length + w.tracker.mmaps.length + book.gone.length) ∧
    ∀ s ∈ steps, ¬s.call.Tracks s.before.maliFd → s.after.tracker = s.before.tracker := by
  have hbook : ∃ book, Provenance (history steps) w.tracker book := by
    induction hrun with
    | nil => exact ⟨_, Provenance.start⟩
    | @snoc steps w w' call value hrun hexec ih =>
      obtain ⟨book, hbook⟩ := ih
      rw [Call.exec_tracker hexec, history, List.map_append]
      exact hbook.step _
  obtain ⟨book, hbook⟩ := hbook
  refine ⟨⟨book, hbook, ?_, hbook.count⟩, fun s hs hother => ?_⟩
  · exact hbook.conserved.nodup_iff.mpr (recordSteps_nodup _)
  · have hexec := hrun.exec_of_mem hs
    rw [Call.exec_tracker hexec, Call.trackEvent_eq_none hother]
    rfl

theorem tracked_memory_provenance_of_one_page :
    ∃ steps w book, Run World.plain steps w ∧
      w.tracker = ⟨[], [⟨0x1000, 0x7f0000000000, 0x1000, 3, 0⟩]⟩ ∧
      Provenance (history steps) w.tracker book := by
  have htracker : World.plain.trackerAfter [openMali, allocCookie, mapCookie 0x7f0000000000] =
      some ⟨[], [⟨0x1000, 0x7f0000000000, 0x1000, 3, 0⟩]⟩ := by decide +kernel
  obtain ⟨steps, w, hrun, ht⟩ := Run.of_calls htracker
  obtain ⟨⟨book, hbook, -, -⟩, -⟩ := tracked_memory_provenance hrun
  exact ⟨steps, w, book, hrun, ht, hbook⟩

end Panloader
