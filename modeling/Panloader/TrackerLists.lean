import Mathlib.Data.Fintype.Card
import Panloader.TrackerHeap
import Panloader.TrackerSpecs

/-! The lists on the heap stay circles of live records, and hold what the tracker's lists hold. -/
namespace Panloader
open IntrusiveList

/-- A record of one of the lists, and where it lies. -/
structure Entry extends HeapRecord where
  addr : U64

def Entry.node (e : Entry) : Node := .record e.addr

/-- The list that a record of this kind belongs to. -/
def RecordData.list : RecordData → ListName
  | .allocated _ => .allocations
  | .mapped _ => .mmaps

/-- Each list is a circle through the nodes of its entries, newest first; the entries are live
records, and every live record is an entry of the list it belongs to. -/
structure Heap.Holds (h : Heap) (entries : ListName → List Entry) : Prop where
  ring : ∀ list, Ring h.links (.head list) ((entries list).map Entry.node)
  records : ∀ list, ∀ e ∈ entries list, h.record e.addr = some e.toHeapRecord ∧ e.data.list = list
  live : ∀ p r, h.record p = some r → ∃ e ∈ entries r.data.list, e.addr = p
  newest : ∀ list, (entries list).Pairwise fun e f => f.born < e.born
  past : ∀ p r, h.record p = some r → r.born < h.mallocs

section Records

variable (h : Heap) {p q : U64} (list : ListName) (data : RecordData)

theorem Heap.insertRecord_self : (h.insertRecord list p data).record p = some ⟨h.mallocs, data⟩ :=
  Function.update_self _ _ _

theorem Heap.insertRecord_of_ne (hq : q ≠ p) :
    (h.insertRecord list p data).record q = h.record q :=
  Function.update_of_ne hq _ _

theorem Heap.dropRecord_self : (h.dropRecord p).record p = none := by
  simp [Heap.dropRecord, Heap.free]

theorem Heap.dropRecord_of_ne (hq : q ≠ p) : (h.dropRecord p).record q = h.record q :=
  Function.update_of_ne hq _ _

end Records

section Invariant

variable {h : Heap} {entries : ListName → List Entry}

theorem Heap.initial_holds (garbage : Links Node) : (Heap.initial garbage).Holds fun _ => [] where
  ring list := by
    cases list with
    | allocations =>
      -- the second head leaves the first alone
      refine (listInit_ring garbage (.head .allocations)).congr fun y hy => listInit_sameAt ?_
      rw [List.mem_singleton.mp hy]
      decide
    | mmaps => exact listInit_ring _ _
  records _ _ he := absurd he List.not_mem_nil
  live _ _ hr := nomatch hr
  newest _ := List.Pairwise.nil
  past _ _ hr := nomatch hr

theorem Heap.Holds.mem_node {list : ListName} {p : U64} (hh : h.Holds entries)
    (hp : Node.record p ∈ Node.head list :: (entries list).map Entry.node) :
    ∃ e ∈ entries list, e.addr = p ∧ h.record p = some e.toHeapRecord := by
  rcases List.mem_cons.mp hp with heq | hm
  · exact nomatch heq
  · obtain ⟨e, he, heq⟩ := List.mem_map.mp hm
    have haddr : e.addr = p := Node.record.inj heq
    exact ⟨e, he, haddr, haddr ▸ (hh.records list e he).1⟩

/-- A record that is not in use is on no list. -/
theorem Heap.Holds.fresh {p : U64} (hh : h.Holds entries) (hp : h.record p = none)
    (list : ListName) : Node.record p ∉ Node.head list :: (entries list).map Entry.node := by
  intro hm
  obtain ⟨e, -, -, hrec⟩ := hh.mem_node hm
  rw [hp] at hrec
  exact nomatch hrec

/-- The two lists have no node in common. -/
theorem Heap.Holds.disjoint {list other : ListName} (hh : h.Holds entries) (hne : other ≠ list) :
    ∀ y ∈ Node.head other :: (entries other).map Entry.node,
      y ∉ Node.head list :: (entries list).map Entry.node := by
  intro y hy hy'
  cases y with
  | head l =>
    have hnot (l' : ListName) (hl : Node.head l ∈ Node.head l' :: (entries l').map Entry.node) :
        l = l' := by
      rcases List.mem_cons.mp hl with heq | hm
      · exact Node.head.inj heq
      · obtain ⟨e, -, heq⟩ := List.mem_map.mp hm
        exact nomatch heq
    exact hne ((hnot other hy).symm.trans (hnot list hy'))
  | record p =>
    obtain ⟨e, he, -, hrec⟩ := hh.mem_node hy
    obtain ⟨f, hf, -, hrec'⟩ := hh.mem_node hy'
    -- one record has one kind, and so one list
    have hsame : e.toHeapRecord = f.toHeapRecord := Option.some.inj (hrec.symm.trans hrec')
    have hlist := (hh.records other e he).2
    rw [hsame] at hlist
    exact hne (hlist.symm.trans (hh.records list f hf).2)

theorem Heap.Holds.length_lt (hh : h.Holds entries) (list : ListName) :
    ((entries list).map Entry.node).length < walkBound := by
  have hnodup := (List.nodup_cons.mp (hh.ring list).nodup).2
  have haddrs : ((entries list).map fun e => e.addr.toFin).Nodup := by
    have hmap : (entries list).map Entry.node =
        ((entries list).map fun e => e.addr.toFin).map fun i => Node.record (.ofFin i) := by
      rw [List.map_map]
      rfl
    rw [hmap] at hnodup
    exact hnodup.of_map _
  have hcard := haddrs.length_le_card
  rw [Fintype.card_fin, List.length_map] at hcard
  rw [List.length_map, walkBound]
  omega

theorem Heap.Holds.nodup (hh : h.Holds entries) (list : ListName) : (entries list).Nodup :=
  (List.nodup_cons.mp (hh.ring list).nodup).2.of_map Entry.node

/-- Different entries lie at different addresses. -/
theorem Heap.Holds.eq_of_addr {list other : ListName} {e f : Entry} (hh : h.Holds entries)
    (he : e ∈ entries list) (hf : f ∈ entries other) (haddr : e.addr = f.addr) :
    e = f ∧ list = other := by
  obtain ⟨hrec, hkind⟩ := hh.records list e he
  obtain ⟨hrec', hkind'⟩ := hh.records other f hf
  rw [haddr] at hrec
  have hsame : e.toHeapRecord = f.toHeapRecord := Option.some.inj (hrec.symm.trans hrec')
  refine ⟨?_, ?_⟩
  · cases e
    cases f
    simp_all
  · rw [← hkind, ← hkind', hsame]

theorem Heap.Holds.insertRecord {p : U64} (hh : h.Holds entries) (hp : h.record p = none)
    (data : RecordData) :
    (h.insertRecord data.list p data).Holds
      (Function.update entries data.list (⟨⟨h.mallocs, data⟩, p⟩ :: entries data.list)) where
  ring list := by
    by_cases hl : list = data.list
    · subst hl
      rw [Function.update_self]
      exact (hh.ring data.list).insert (hh.fresh hp data.list)
    · rw [Function.update_of_ne hl]
      exact (hh.ring list).insert_other (hh.ring data.list) (hh.fresh hp list)
        (hh.fresh hp data.list) (hh.disjoint hl)
  records list e he := by
    -- the new record does not take the place of an old one
    have hold (e : Entry) (he : e ∈ entries list) :
        (h.insertRecord data.list p data).record e.addr = some e.toHeapRecord ∧
          e.data.list = list := by
      obtain ⟨hrec, hkind⟩ := hh.records list e he
      have hne : e.addr ≠ p := by
        rintro rfl
        rw [hp] at hrec
        exact nomatch hrec
      exact ⟨(h.insertRecord_of_ne _ data hne).trans hrec, hkind⟩
    by_cases hl : list = data.list
    · subst hl
      rw [Function.update_self] at he
      rcases List.mem_cons.mp he with rfl | he
      · exact ⟨h.insertRecord_self _ data, rfl⟩
      · exact hold e he
    · rw [Function.update_of_ne hl] at he
      exact hold e he
  live q r hr := by
    by_cases hq : q = p
    · subst hq
      rw [h.insertRecord_self] at hr
      have hnew : (⟨h.mallocs, data⟩ : HeapRecord) = r := Option.some.inj hr
      subst hnew
      rw [Function.update_self]
      exact ⟨_, List.mem_cons_self, rfl⟩
    · rw [h.insertRecord_of_ne _ data hq] at hr
      obtain ⟨e, he, haddr⟩ := hh.live q r hr
      refine ⟨e, ?_, haddr⟩
      by_cases hl : r.data.list = data.list
      · rw [hl, Function.update_self]
        exact List.mem_cons_of_mem _ (hl ▸ he)
      · rwa [Function.update_of_ne hl]
  newest list := by
    by_cases hl : list = data.list
    · subst hl
      rw [Function.update_self]
      refine List.pairwise_cons.mpr ⟨fun e he => ?_, hh.newest data.list⟩
      exact hh.past e.addr _ (hh.records data.list e he).1
    · rw [Function.update_of_ne hl]
      exact hh.newest list
  past q r hr := by
    show r.born < h.mallocs + 1
    by_cases hq : q = p
    · subst hq
      rw [h.insertRecord_self] at hr
      have hnew : (⟨h.mallocs, data⟩ : HeapRecord) = r := Option.some.inj hr
      rw [← hnew]
      exact Nat.lt_succ_self h.mallocs
    · rw [h.insertRecord_of_ne _ data hq] at hr
      have hlt := hh.past q r hr
      omega

/-- An entry leaves its list, at any place, and its record is freed. -/
theorem Heap.Holds.dropRecord (hh : h.Holds entries) (list : ListName) {e : Entry}
    {us vs : List Entry} (hsplit : entries list = us ++ e :: vs) :
    (h.dropRecord e.addr).Holds (Function.update entries list (us ++ vs)) := by
  have hmem : e ∈ entries list := by simp [hsplit]
  have hnodup := hh.nodup list
  rw [hsplit] at hnodup
  have hnot : e ∉ us ++ vs := (List.nodup_cons.mp (List.nodup_middle.mp hnodup)).1
  have hnodes : (entries list).map Entry.node = us.map Entry.node ++ e.node :: vs.map Entry.node := by
    simp [hsplit]
  have hkept (l : ListName) (f : Entry) (hf : f ∈ Function.update entries list (us ++ vs) l) :
      f ∈ entries l ∧ f.addr ≠ e.addr := by
    by_cases hl : l = list
    · subst hl
      rw [Function.update_self] at hf
      have hf' : f ∈ entries l := by
        rw [hsplit]
        simp only [List.mem_append, List.mem_cons] at hf ⊢
        tauto
      refine ⟨hf', fun heq => hnot ?_⟩
      rwa [← (hh.eq_of_addr hf' hmem heq).1]
    · rw [Function.update_of_ne hl] at hf
      exact ⟨hf, fun heq => hl (hh.eq_of_addr hf hmem heq).2⟩
  have hring := hh.ring list
  rw [hnodes] at hring
  refine ⟨fun l => ?_, fun l f hf => ?_, fun q r hr => ?_, fun l => ?_, fun q r hr => ?_⟩
  · by_cases hl : l = list
    · subst hl
      rw [Function.update_self, List.map_append]
      exact listDel_ring hring
    · rw [Function.update_of_ne hl]
      apply (hh.ring l).remove_other hring
      intro y hy
      rw [← hnodes]
      exact hh.disjoint hl y hy
  · obtain ⟨hf', hne⟩ := hkept l f hf
    obtain ⟨hrec, hkind⟩ := hh.records l f hf'
    exact ⟨(h.dropRecord_of_ne hne).trans hrec, hkind⟩
  · have hq : q ≠ e.addr := by
      rintro rfl
      rw [h.dropRecord_self] at hr
      exact nomatch hr
    obtain ⟨f, hf, haddr⟩ := hh.live q r ((h.dropRecord_of_ne hq).symm.trans hr)
    refine ⟨f, ?_, haddr⟩
    by_cases hl : r.data.list = list
    · -- the entry that was found is not the one that left
      have hne : f ≠ e := by
        rintro rfl
        exact hq haddr.symm
      rw [hl, hsplit] at hf
      rw [hl, Function.update_self]
      simp only [List.mem_append, List.mem_cons] at hf ⊢
      tauto
    · rwa [Function.update_of_ne hl]
  · by_cases hl : l = list
    · subst hl
      have hnewest := hh.newest l
      rw [hsplit] at hnewest
      rw [Function.update_self]
      exact List.Pairwise.sublist ((List.sublist_cons_self e vs).append_left us) hnewest
    · rw [Function.update_of_ne hl]
      exact hh.newest l
  · have hq : q ≠ e.addr := by
      rintro rfl
      rw [h.dropRecord_self] at hr
      exact nomatch hr
    exact hh.past q r ((h.dropRecord_of_ne hq).symm.trans hr)

/-- The loop over a list ends, with one turn for each entry. -/
theorem Heap.Holds.walk (hh : h.Holds entries) (list : ListName) :
    IntrusiveList.walk h.links (.head list) walkBound (h.links.next (.head list)) =
      some ((entries list).map Entry.node) :=
  (hh.ring list).walk (hh.length_lt list)

theorem Heap.Holds.forEachEntry {β : Type} {list : ListName}
    {body : U64 → RecordData → Option (Option β)} {f : Entry → Option β} (hh : h.Holds entries)
    (hbody : ∀ e ∈ entries list, body e.addr e.data = some (f e)) :
    h.forEachEntry list body = some ((entries list).findSome? f) := by
  apply forEachEntry_of_walk (hh.walk list)
  intro e he
  show (h.record e.addr).bind (fun r => body e.addr r.data) = some (f e)
  rw [(hh.records list e he).1]
  exact hbody e he

end Invariant

/-- The records of the tracker's lists. -/
def Tracker.records (t : Tracker) : ListName → List RecordData
  | .allocations => t.allocations.map .allocated
  | .mmaps => t.mmaps.map .mapped

/-- What a call asks of the tracker. -/
def ListCall.trackEvent : ListCall → TrackEvent
  | .trackAllocation addr flags _ => .record ⟨addr, flags⟩
  | .trackMmap gpuVa addr length prot _ _ => .map gpuVa addr length prot
  | .trackMunmap addr => .unmap addr
  | .munmap addr _ => .unmap addr

/-- The heap holds the lists of `t`. -/
def Heap.Represents (h : Heap) (entries : ListName → List Entry) (t : Tracker) : Prop :=
  h.Holds entries ∧ ∀ list, (entries list).map (·.data) = t.records list

section Refinement

variable {h : Heap} {entries : ListName → List Entry} {t : Tracker}

/-- A search of the heap finds the record that holds the first match of the tracker's list. -/
theorem Heap.Represents.findRecord {δ : Type} {ds : List δ} (hr : h.Represents entries t)
    (list : ListName) (wrap : δ → RecordData) (get : RecordData → Option δ)
    (hds : t.records list = ds.map wrap) (hget : ∀ d, get (wrap d) = some d) (test : δ → Bool) :
    match ds.find? test with
    | none => h.findRecord list get test = some none
    | some d => ∃ us e vs, entries list = us ++ e :: vs ∧
        h.findRecord list get test = some (some (e.addr, d)) ∧
        (us ++ vs).map (·.data) = (ds.eraseP test).map wrap := by
  let f : Entry → Option (U64 × δ) := fun e =>
    (get e.data).bind fun pos => if test pos then some (e.addr, pos) else none
  have hdata := (hr.2 list).trans hds
  have hf (e : Entry) (d : δ) (hd : e.data = wrap d) :
      f e = if test d then some (e.addr, d) else none := by
    simp only [f, hd, hget, Option.bind_some]
  have hloop : h.findRecord list get test = some ((entries list).findSome? f) := by
    apply hr.1.forEachEntry
    intro e he
    have hmem : e.data ∈ ds.map wrap := hdata ▸ List.mem_map_of_mem he
    obtain ⟨d, -, hd⟩ := List.mem_map.mp hmem
    rw [hf e d hd.symm, ← hd, hget]
    rfl
  have hnone {es : List Entry} {ds : List δ} (hes : es.map (·.data) = ds.map wrap)
      (htest : ∀ d ∈ ds, ¬test d) : es.findSome? f = none := by
    apply List.findSome?_eq_none_iff.mpr
    intro e he
    have hmem : e.data ∈ ds.map wrap := hes ▸ List.mem_map_of_mem he
    obtain ⟨d, hd, heq⟩ := List.mem_map.mp hmem
    rw [hf e d heq.symm, if_neg (htest d hd)]
  rw [hloop]
  cases hfind : ds.find? test with
  | none => exact congrArg some (hnone hdata (List.find?_eq_none.mp hfind))
  | some d =>
    obtain ⟨before, after, rfl, hbefore, herase, hd⟩ := FirstMatch.split_of_find? hfind
    -- the entries split where the list of the tracker does
    rw [List.map_append, List.map_cons] at hdata
    obtain ⟨us, rest, hsplit, hus, hrest⟩ := List.map_eq_append_iff.mp hdata
    obtain ⟨e, vs, rfl, he, hvs⟩ := List.map_eq_cons_iff.mp hrest
    refine ⟨us, e, vs, hsplit, ?_, ?_⟩
    · rw [hsplit, List.findSome?_append, hnone hus hbefore, Option.none_or,
        List.findSome?_cons, hf e d he, if_pos hd]
    · rw [herase, List.map_append, List.map_append, hus, hvs]

theorem Heap.Represents.trackAllocation (hr : h.Represents entries t) (addr : U64) (flags : U32)
    {p : U64} (hp : h.record p = none) :
    ∃ entries', (h.panwrapTrackAllocation addr flags p).Represents entries'
      (t.addAllocation ⟨addr, flags⟩) := by
  refine ⟨_, hr.1.insertRecord hp (.allocated ⟨addr, flags⟩), fun list => ?_⟩
  cases list with
  | allocations => exact congrArg (RecordData.allocated ⟨addr, flags⟩ :: ·) (hr.2 .allocations)
  | mmaps => exact hr.2 .mmaps

theorem Heap.Represents.trackMmap (hr : h.Represents entries t) (gpuVa addr length : U64)
    (prot flags : U32) {p : U64} (hp : h.record p = none) :
    ∃ h' entries', h.panwrapTrackMmap gpuVa addr length prot flags p = some h' ∧
      h'.Represents entries' (t.apply (.map gpuVa addr length prot)) := by
  have hfind := hr.findRecord .allocations .allocated RecordData.allocated? rfl (fun _ => rfl)
    fun pos => pos.gpuVa == gpuVa
  rw [Tracker.apply, Tracker.pendingAllocation]
  simp only [Heap.panwrapTrackMmap, Heap.findAllocation]
  cases hm : t.allocations.find? (fun pos => pos.gpuVa == gpuVa) with
  | none =>
    rw [hm] at hfind
    exact ⟨h, entries, by rw [hfind]; rfl, hr⟩
  | some mem =>
    rw [hm] at hfind
    obtain ⟨us, e, vs, hsplit, hfound, hrest⟩ := hfind
    have hinsert := hr.1.insertRecord hp (.mapped (mem.mapped gpuVa addr length prot))
    -- the insertion into the other list leaves the entry that was found where it is
    have hdrop := hinsert.dropRecord .allocations hsplit
    refine ⟨_, _, by rw [hfound]; rfl, hdrop, fun list => ?_⟩
    cases list with
    | allocations => exact hrest
    | mmaps => exact congrArg (RecordData.mapped _ :: ·) (hr.2 .mmaps)

theorem Heap.Represents.trackMunmap (hr : h.Represents entries t) (addr : U64) :
    ∃ h' entries', h.panwrapTrackMunmap addr = some h' ∧
      h'.Represents entries' (t.delMapping addr) := by
  have hfind := hr.findRecord .mmaps .mapped RecordData.mapped? rfl (fun _ => rfl)
    fun pos => pos.addr == addr
  simp only [Heap.panwrapTrackMunmap, Heap.panwrapFindMappedMem]
  cases hm : t.mmaps.find? (fun pos => pos.addr == addr) with
  | none =>
    rw [hm] at hfind
    rw [Tracker.delMapping_of_not_found hm]
    exact ⟨h, entries, by rw [hfind]; rfl, hr⟩
  | some m =>
    rw [hm] at hfind
    obtain ⟨us, e, vs, hsplit, hfound, hrest⟩ := hfind
    refine ⟨_, _, by rw [hfound]; rfl, hr.1.dropRecord .mmaps hsplit, fun list => ?_⟩
    cases list with
    | allocations => exact hr.2 .allocations
    | mmaps => exact hrest

/-- A call returns, and does to the lists on the heap what it does to the tracker's. -/
theorem Heap.Represents.exec (hr : h.Represents entries t) {call : ListCall}
    (hfresh : call.Fresh h) :
    ∃ h' entries', call.exec h = some h' ∧ h'.Represents entries' (t.apply call.trackEvent) := by
  cases call with
  | trackAllocation addr flags p =>
    obtain ⟨entries', hr'⟩ := hr.trackAllocation addr flags hfresh
    exact ⟨_, entries', rfl, hr'⟩
  | trackMmap gpuVa addr length prot flags p =>
    exact hr.trackMmap gpuVa addr length prot flags hfresh
  | trackMunmap addr => exact hr.trackMunmap addr
  | munmap addr length => exact hr.trackMunmap addr

end Refinement

/-- The tracker's lists after the calls. -/
def trackerOf (calls : List ListCall) : Tracker :=
  calls.foldl (fun t call => t.apply call.trackEvent) ⟨[], []⟩

theorem HeapRun.represents {garbage : Links Node} {calls : List ListCall} {h : Heap}
    (hrun : HeapRun (Heap.initial garbage) calls h) :
    ∃ entries, h.Represents entries (trackerOf calls) := by
  induction hrun with
  | nil =>
    refine ⟨_, Heap.initial_holds garbage, fun list => ?_⟩
    cases list <;> rfl
  | snoc hrun hfresh hexec ih =>
    obtain ⟨entries, hr⟩ := ih
    obtain ⟨h', entries', hexec', hr'⟩ := hr.exec hfresh
    rw [hexec] at hexec'
    obtain rfl := Option.some.inj hexec'
    refine ⟨entries', ?_⟩
    rwa [trackerOf, List.foldl_append]

/-- Both lists of the heap are circular doubly linked lists, with these entries. -/
structure Heap.WellFormed (h : Heap) (entries : ListName → List Entry) : Prop where
  inverse : ∀ list, ∀ y ∈ Node.head list :: (entries list).map Entry.node,
    h.links.prev (h.links.next y) = y ∧ h.links.next (h.links.prev y) = y
  reached : ∀ list, ∀ e ∈ entries list,
    (∃ k, h.links.next^[k] (.head list) = e.node) ∧ ∃ k, h.links.next^[k] e.node = .head list
  records : ∀ list, ∀ e ∈ entries list, h.record e.addr = some e.toHeapRecord ∧ e.data.list = list
  -- a live record is in one of the lists, and not twice or in both
  live : ∀ p, h.record p ≠ none → ∃ list, ∃ e ∈ entries list, e.addr = p
  once : ∀ list other, ∀ e ∈ entries list, ∀ f ∈ entries other,
    e.addr = f.addr → e = f ∧ list = other
  freed : ∀ p, h.record p = none → ∀ list k, h.links.next^[k] (.head list) ≠ .record p
  visits : ∀ list, walk h.links (.head list) walkBound (h.links.next (.head list)) =
    some ((entries list).map Entry.node)
  nodup : ∀ list, ((entries list).map Entry.node).Nodup
  newest : ∀ list, (entries list).Pairwise fun e f => f.born < e.born

theorem Heap.Holds.wellFormed {h : Heap} {entries : ListName → List Entry}
    (hh : h.Holds entries) : h.WellFormed entries where
  inverse list := (hh.ring list).inverse
  reached list e he := (hh.ring list).reaches (List.mem_map_of_mem he)
  records := hh.records
  live p hp := by
    obtain ⟨r, hr⟩ := Option.ne_none_iff_exists'.mp hp
    obtain ⟨e, he, haddr⟩ := hh.live p r hr
    exact ⟨r.data.list, e, he, haddr⟩
  once _ _ _ he _ hf haddr := hh.eq_of_addr he hf haddr
  freed p hp list k heq := hh.fresh hp list (heq ▸ (hh.ring list).closed k)
  visits := hh.walk
  nodup list := (List.nodup_cons.mp (hh.ring list).nodup).2
  newest := hh.newest

/-- After any calls the lists on the heap are well formed and hold what the tracker's lists hold,
and the next call returns. -/
theorem heap_lists_well_formed {garbage : Links Node} {calls : List ListCall} {h : Heap}
    (hrun : HeapRun (Heap.initial garbage) calls h) :
    (∃ entries, h.WellFormed entries ∧
      ∀ list, (entries list).map (·.data) = (trackerOf calls).records list) ∧
      ∀ call : ListCall, call.Fresh h → ∃ h', call.exec h = some h' := by
  obtain ⟨entries, hr⟩ := hrun.represents
  refine ⟨⟨entries, hr.1.wellFormed, hr.2⟩, fun call hfresh => ?_⟩
  obtain ⟨h', -, hexec, -⟩ := hr.exec hfresh
  exact ⟨h', hexec⟩

/-- An allocation at 0x1000 is recorded and mapped. -/
theorem heap_lists_well_formed_mapped :
    ∃ h, HeapRun (Heap.initial ⟨id, id⟩)
        [.trackAllocation 0x1000 0 0x10, .trackMmap 0x1000 0x7000 0x1000 3 1 0x20] h ∧
      ∃ entries, h.WellFormed entries := by
  have hfirst : (ListCall.trackAllocation 0x1000 0 0x10).exec (Heap.initial ⟨id, id⟩) =
      some _ := rfl
  have hsecond : (ListCall.trackMmap 0x1000 0x7000 0x1000 3 1 0x20).exec
      ((Heap.initial ⟨id, id⟩).panwrapTrackAllocation 0x1000 0 0x10) = some _ := rfl
  have hfresh : (ListCall.trackAllocation 0x1000 0 0x10).Fresh (Heap.initial ⟨id, id⟩) := rfl
  have hfresh' : (ListCall.trackMmap 0x1000 0x7000 0x1000 3 1 0x20).Fresh
      ((Heap.initial ⟨id, id⟩).panwrapTrackAllocation 0x1000 0 0x10) := rfl
  have hrun := (HeapRun.nil.snoc hfresh hfirst).snoc hfresh' hsecond
  obtain ⟨⟨entries, hentries, -⟩, -⟩ := heap_lists_well_formed hrun
  exact ⟨_, hrun, entries, hentries⟩

end Panloader
