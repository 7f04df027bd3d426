import Mathlib.Data.List.Nodup
import Panloader.AttributeWalk

/-! Attribute lists. The walk over one ends in the mapping it began in; it asks for more room
than its entries take; and it does not scale the indices of the records. -/
namespace Panloader
open Effects

section Termination

/-- The addresses of `m` and the one right behind it. -/
def PanwrapMappedMemory.Reaches (m : PanwrapMappedMemory) (p : U64) : Prop :=
  m.gpuVa.toNat ≤ p.toNat ∧ p.toNat ≤ m.gpuVa.toNat + m.length.toNat

/-- The mapping lies in the user half of the address space. -/
def PanwrapMappedMemory.InUserHalf (m : PanwrapMappedMemory) : Prop :=
  m.gpuVa.toNat + m.length.toNat ≤ 2^63

theorem findContaining_reaches {mmaps : List PanwrapMappedMemory} {p : U64}
    {m : PanwrapMappedMemory} (h : panwrapFindMappedGpuMemContaining mmaps p = some m)
    (hm : m.InUserHalf) : m ∈ mmaps ∧ m.Reaches p := by
  have htest := List.find?_some h
  simp only [Bool.and_eq_true, decide_eq_true_eq, BitVec.le_def, BitVec.toNat_add] at htest
  unfold PanwrapMappedMemory.InUserHalf at hm
  refine ⟨List.mem_of_find?_eq_some h, htest.1, ?_⟩
  omega

section Mapping

variable {m : PanwrapMappedMemory} {p : U64}

/-- In such a mapping the sum of the bounds check does not wrap around. -/
theorem PanwrapMappedMemory.Reaches.covers (hp : m.Reaches p) (hm : m.InUserHalf) {size : U64}
    (hsize : size.toNat ≤ 2^62) (haccept : m.rejects p size = false) : m.Covers p size := by
  obtain ⟨hlow, hhigh⟩ := hp
  unfold PanwrapMappedMemory.InUserHalf at hm
  have hfits : m.GpuFits := by
    unfold PanwrapMappedMemory.GpuFits
    omega
  apply (covers_of_not_rejects_iff hfits).mpr _ haccept
  left
  rw [offset_above hlow]
  omega

/-- How many entries there is room for behind `p`. -/
def PanwrapMappedMemory.room (m : PanwrapMappedMemory) (p : U64) : ℕ :=
  (m.gpuVa.toNat + m.length.toNat - p.toNat) / 8

theorem PanwrapMappedMemory.Covers.next (h : m.Covers p 8) (hm : m.InUserHalf) :
    m.Reaches (nextEntry p) ∧ m.room (nextEntry p) < m.room p := by
  obtain ⟨hlow, hhigh⟩ := h
  unfold PanwrapMappedMemory.InUserHalf at hm
  have height : (8 : U64).toNat = 8 := rfl
  have hnext : (nextEntry p).toNat = p.toNat + 8 := by
    rw [nextEntry, BitVec.toNat_add]
    omega
  unfold PanwrapMappedMemory.Reaches PanwrapMappedMemory.room
  omega

end Mapping

/-- The number of turns that a walk through `attrMem` can take. -/
def turnBound : Option PanwrapMappedMemory → ℕ
  | none => 1
  | some m => m.length.toNat / 8 + 1

/-- What a walk from `attributeMeta` does: it reads the entries one after the other, all of them
inside `attrMem`, and ends at the first that is zero or by an abort. -/
structure WalkEnds (t : Tracker) (mem : Memory) (attrMem : Option PanwrapMappedMemory)
    (attributeMeta : U64) (ps : List U64) (r : EStateM.Result Halt World Unit) : Prop where
  consecutive : ps = (List.range ps.length).map (entryAt attributeMeta)
  inside : ∀ p ∈ ps, ∀ size, size = 8 ∨ size = sizeofMappedMemory →
    (derefGpuMem t.mmaps attrMem p size).isSome → ∃ m, attrMem = some m ∧ m.Covers p size
  bounded : ps.length ≤ turnBound attrMem
  ends : ∃ earlier last, ps = earlier ++ [last] ∧
    (∀ p ∈ earlier, ∃ word, entryWord t mem attrMem p = some word ∧ word ≠ 0) ∧
    ((entryWord t mem attrMem last = some 0 ∧ ∃ w', r = .ok () w') ∨ ∃ e w', r = .error e w')

section Walks

variable {t : Tracker} {mem : Memory} {decode : U64 → Wrap Unit} {v attributeMeta : U64}
  {w : World}

/-- Without a mapping the first entry ends the walk. -/
theorem walkEnds_none (hw : Sees t mem w)
    (hnone : panwrapFindMappedGpuMemContaining t.mmaps attributeMeta = none) :
    ∃ r, Loop (attributeTurn decode v none) nextEntry attributeMeta w [attributeMeta] r ∧
      WalkEnds t mem none attributeMeta [attributeMeta] r := by
  have hreject (size : U64) : derefGpuMem t.mmaps none attributeMeta size = none := by
    simp only [derefGpuMem, usedMapping, hnone]
  have hderef := @panwrapDerefGpuMem_ensures t mem none attributeMeta 8 126 decoderFile w hw
  cases hr : panwrapDerefGpuMem none attributeMeta 8 126 decoderFile w with
  | ok p u =>
    rw [hr, hreject] at hderef
    cases hderef.1
  | error e u =>
    refine ⟨.error e u, .abrupt (bind_error hr), ?_, ?_, le_rfl, ?_⟩
    · simp [entryAt]
    · intro p hp size _ hsome
      rw [List.mem_singleton.mp hp, hreject] at hsome
      cases hsome
    · exact ⟨[], attributeMeta, rfl, by simp, .inr ⟨e, u, rfl⟩⟩

/-- Through a mapping every entry that is read leaves less room in it. -/
theorem walkEnds_some (hdecode : KeepsMemory decode) (hw : Sees t mem w) {m : PanwrapMappedMemory}
    (hm : m.InUserHalf) (hreach : m.Reaches attributeMeta) :
    ∃ ps r, Loop (attributeTurn decode v (some m)) nextEntry attributeMeta w ps r ∧
      WalkEnds t mem (some m) attributeMeta ps r := by
  have haccepted {p size : U64} (hp : m.Reaches p) (hsize : size.toNat ≤ 2^62)
      (hsome : (derefGpuMem t.mmaps (some m) p size).isSome) : m.Covers p size := by
    obtain ⟨q, hq⟩ := Option.isSome_iff_exists.mp hsome
    obtain ⟨n, hn, haccept, _⟩ := derefGpuMem_eq_some_iff.mp hq
    obtain rfl : m = n := Option.some.inj hn
    exact hp.covers hm hsize haccept
  -- the invariant of the walk, and its variant
  have hturn : ∀ p u u', (Sees t mem u ∧ m.Reaches p) →
      attributeTurn decode v (some m) p u = .ok true u' →
      (Sees t mem u' ∧ m.Reaches (nextEntry p)) ∧ m.room (nextEntry p) < m.room p := by
    rintro p u u' ⟨hu, hp⟩ hr
    obtain ⟨⟨word, hword, -⟩, hu'⟩ := (attributeTurn_ensures hdecode).ok hu hr
    have hsome : (derefGpuMem t.mmaps (some m) p 8).isSome := by
      rw [entryWord] at hword
      simpa using congrArg Option.isSome hword
    have hnext := (haccepted hp (by decide) hsome).next hm
    exact ⟨⟨hu', hnext.1⟩, hnext.2⟩
  obtain ⟨ps, r, hloop, hlength⟩ := exists_loop_of_variant hturn ⟨hw, hreach⟩
  obtain ⟨earlier, last, u, hps, ⟨hu, hlast⟩, hearlier, hend⟩ :=
    hloop.turns (fun p u u' hp hr => (hturn p u u' hp hr).1) ⟨hw, hreach⟩
  refine ⟨ps, r, hloop, ?_, ?_, ?_, earlier, last, hps, ?_, ?_⟩
  · have hcursors := hloop.cursors
    rw [← List.range_map_iterate] at hcursors
    simpa only [nextEntry_iterate] using hcursors
  · intro p hp size hsize hsome
    refine ⟨m, rfl, haccepted ?_ ?_ hsome⟩
    · rw [hps] at hp
      obtain hp | hp := List.mem_append.mp hp
      · obtain ⟨_, _, ⟨_, hreach'⟩, _⟩ := hearlier p hp
        exact hreach'
      · rwa [List.mem_singleton.mp hp]
    · obtain rfl | rfl := hsize <;> decide
  · apply hlength.trans
    unfold PanwrapMappedMemory.room
    have hlow := hreach.1
    show _ ≤ m.length.toNat / 8 + 1
    omega
  · intro p hp
    obtain ⟨a, b, ⟨ha, _⟩, hr⟩ := hearlier p hp
    obtain ⟨⟨word, hword, hmore⟩, _⟩ := (attributeTurn_ensures hdecode).ok ha hr
    exact ⟨word, hword, hmore.mp rfl⟩
  · obtain ⟨w', hr, rfl⟩ | ⟨e, w', hr, rfl⟩ := hend
    · obtain ⟨⟨word, hword, hmore⟩, _⟩ := (attributeTurn_ensures hdecode).ok hu hr
      have hzero : word = 0 := by
        by_contra hne
        cases hmore.mpr hne
      exact .inl ⟨hzero ▸ hword, w', rfl⟩
    · exact .inr ⟨e, w', rfl⟩

end Walks

/-- The walk ends on every memory contents, in the mapping found for its first entry. -/
theorem attribute_walk_terminates {decode : U64 → Wrap Unit} (hdecode : KeepsMemory decode)
    {w : World} (huser : ∀ m ∈ w.tracker.mmaps, m.InUserHalf) (v attributeMeta : U64) :
    ∃ ps r, Loop (attributeTurn decode v
        (panwrapFindMappedGpuMemContaining w.tracker.mmaps attributeMeta)) nextEntry attributeMeta
        w ps r ∧
      attributeWalk decode v (panwrapFindMappedGpuMemContaining w.tracker.mmaps attributeMeta)
        attributeListPeriod attributeMeta w = r ∧
      WalkEnds w.tracker w.mem (panwrapFindMappedGpuMemContaining w.tracker.mmaps attributeMeta)
        attributeMeta ps r := by
  cases hfind : panwrapFindMappedGpuMemContaining w.tracker.mmaps attributeMeta with
  | none =>
    obtain ⟨r, hloop, hends⟩ := @walkEnds_none _ _ decode v _ _ (Sees.self w) hfind
    exact ⟨_, r, hloop, hloop.loopFor_eq Nat.one_le_two_pow, hends⟩
  | some m =>
    have hm := huser m (List.mem_of_find?_eq_some hfind)
    have hreach := (findContaining_reaches hfind hm).2
    obtain ⟨ps, r, hloop, hends⟩ := @walkEnds_some _ _ _ v _ _ hdecode (Sees.self w) m hm hreach
    refine ⟨ps, r, hloop, hloop.loopFor_eq ?_, hends⟩
    have hbounded : ps.length ≤ m.length.toNat / 8 + 1 := hends.bounded
    unfold PanwrapMappedMemory.InUserHalf at hm
    unfold attributeListPeriod
    omega

/-- A mapping full of entries, none of them zero. -/
theorem attribute_walk_terminates_without_terminator :
    ∃ ps r, Loop (attributeTurn (panwrapDecodeAttributes none) 0x1000
        (some ⟨0x1000, 0x1000, 0x1000, 3, 0⟩)) nextEntry 0x1ff0
        { World.plain.withMmaps [⟨0x1000, 0x1000, 0x1000, 3, 0⟩] with mem := fun _ => 1 } ps r ∧
      ps.length ≤ 513 := by
  have hfind : panwrapFindMappedGpuMemContaining [⟨0x1000, 0x1000, 0x1000, 3, 0⟩] 0x1ff0 =
      some ⟨0x1000, 0x1000, 0x1000, 3, 0⟩ := by decide
  let w : World :=
    { World.plain.withMmaps [⟨0x1000, 0x1000, 0x1000, 3, 0⟩] with mem := fun _ => 1 }
  have huser : ∀ m ∈ w.tracker.mmaps, m.InUserHalf := by
    intro m hm
    rw [List.mem_singleton.mp hm]
    show 0x1000 + 0x1000 ≤ 2^63
    omega
  obtain ⟨ps, r, hloop, -, hends⟩ := attribute_walk_terminates
    (panwrapDecodeAttributes_keepsMemory none) huser 0x1000 0x1ff0
  have hbounded := hends.bounded
  have hsame : panwrapFindMappedGpuMemContaining w.tracker.mmaps 0x1ff0 =
      some ⟨0x1000, 0x1000, 0x1000, 3, 0⟩ := hfind
  rw [hsame] at hloop hbounded
  exact ⟨ps, r, hloop, hbounded⟩

end Termination

section Acceptance

variable {t : Tracker} {mem : Memory} {v p : U64} {n : ℕ} {attrMem : Option PanwrapMappedMemory}

/-- The word that the GPU has at `a`, in the mapping `m`. -/
def gpuWord (mem : Memory) (m : PanwrapMappedMemory) (a : U64) : U64 :=
  mem.read (m.addr + (a - m.gpuVa)) 8

/-- Element `k` of the array of attribute records at `attributes`. -/
def elementAt (attributes k : U64) : U64 := attributes + k * sizeofVertexTilerAttr

/-- A list of `n` entries and a zero at `p`, inside the tracked mapping `m`. The records that
the entries name, and their buffers, lie inside tracked mappings as well. -/
structure ListInMapping (t : Tracker) (mem : Memory) (m : PanwrapMappedMemory) (v p : U64)
    (n : ℕ) : Prop where
  tracked : m ∈ t.mmaps
  inside : m.gpuVa.toNat ≤ p.toNat ∧ p.toNat + 8 * (n+1) ≤ m.gpuVa.toNat + m.length.toNat
  entries : ∀ i < n, gpuWord mem m (entryAt p i) ≠ 0
  terminator : gpuWord mem m (entryAt p n) = 0
  records : ∀ i < n, ∃ attr,
    Lies t (elementAt (mem.read (v + 96) 8) (gpuWord mem m (entryAt p i) &&& 0xff))
      sizeofVertexTilerAttr attr ∧
    mem.read (attr + 8) 8 ≠ 0 ∧
    ∃ buffer, Lies t ((mem.read attr 8 >>> 2) <<< 2) (mem.read (attr + 16) 8) buffer

/-- The condition under which a turn goes on, and under which it stops. -/
def TurnFits (t : Tracker) (mem : Memory) (v : U64) (attrMem : Option PanwrapMappedMemory)
    (p : U64) : Bool → Prop
  | true => (∃ word, entryWord t mem attrMem p = some word ∧ word ≠ 0) ∧
      EntryFits t mem v attrMem p
  | false => entryWord t mem attrMem p = some 0

/-- The mapping the walk goes through leaves 48 bytes from every entry on and has the zero, what
is read there are the entries, and the records they are taken to name are accepted. -/
def ListAccepted (t : Tracker) (mem : Memory) (v : U64) (attrMem : Option PanwrapMappedMemory)
    (p : U64) (n : ℕ) : Prop :=
  (∀ i < n, TurnFits t mem v attrMem (entryAt p i) true) ∧
    TurnFits t mem v attrMem (entryAt p n) false

theorem turnFits_functional (p : U64) (b c : Bool) (hb : TurnFits t mem v attrMem p b)
    (hc : TurnFits t mem v attrMem p c) : b = c := by
  cases b <;> cases c
  · rfl
  · obtain ⟨⟨word, hword, hne⟩, _⟩ := hc
    exact absurd (Option.some.inj (hword.symm.trans hb)) hne
  · obtain ⟨⟨word, hword, hne⟩, _⟩ := hb
    exact absurd (Option.some.inj (hword.symm.trans hc)) hne
  · rfl

theorem attributeTurn_fits (p : U64) :
    Ensures (Sees t mem) (attributeTurn (panwrapDecodeAttributes none) v attrMem p)
      (fun more w => TurnFits t mem v attrMem p more ∧ Sees t mem w)
      (fun _ _ => ∀ more, ¬TurnFits t mem v attrMem p more) := by
  apply (panwrapDerefGpuMem_ensures.mono_error fun _ _ hnone => ?_).bind
  · intro entry
    apply Ensures.of_fact
    intro hentry
    have hword : entryWord t mem attrMem p = some (mem.read entry 8) := by
      simp only [entryWord, hentry, Option.map_some]
    apply ((load_ensures 8 entry).mono_error fun _ _ h => h.elim).bind_eq
    by_cases hzero : mem.read entry 8 ≠ 0
    · rw [if_pos hzero]
      have hbody : Decides (Sees t mem)
          (attributeEntry (panwrapDecodeAttributes none) v attrMem p)
          (EntryFits t mem v attrMem p) := decodeAttributeEntry_decides v attrMem p
      apply (hbody.mono_error fun _ _ hnot => ?_).bind
      · exact fun _ w hw => ⟨⟨⟨_, hword, hzero⟩, hw.1⟩, hw.2⟩
      · -- the body ends abruptly, and a zero would have stopped the walk
        intro more hfits
        cases more with
        | true => exact hnot hfits.2
        | false => exact hzero (Option.some.inj (hword.symm.trans hfits))
    · rw [if_neg hzero]
      rw [not_not.mp hzero] at hword
      exact fun w hw => ⟨hword, hw⟩
  · intro more hfits
    have hnoWord : entryWord t mem attrMem p = none := by
      simp only [entryWord, hnone, Option.map_none]
    cases more with
    | true =>
      obtain ⟨⟨word, hword, _⟩, _⟩ := hfits
      cases hnoWord.symm.trans hword
    | false => cases hnoWord.symm.trans hfits

/-- The addresses of the entries are distinct. -/
theorem ListInMapping.nodup {m : PanwrapMappedMemory} (h : ListInMapping t mem m v p n) :
    ((List.range (n+1)).map (entryAt p)).Nodup := by
  apply List.Nodup.map_on _ List.nodup_range
  intro i hi j hj heq
  obtain ⟨hlow, hhigh⟩ := h.inside
  have hlength := m.length.isLt
  have hoffset : 8 * BitVec.ofNat 64 i = 8 * BitVec.ofNat 64 j := (BitVec.add_right_inj p).mp heq
  have hnat := congrArg BitVec.toNat hoffset
  have height : (8 : U64).toNat = 8 := rfl
  simp only [BitVec.toNat_mul, BitVec.toNat_ofNat, height] at hnat
  simp only [List.mem_range] at hi hj
  omega

/-- A list inside a tracked mapping is walked entry by entry, each once, up to its zero, exactly
if it is accepted through the mapping that is found for its address. -/
theorem attribute_list_accepted_iff {w : World} {m : PanwrapMappedMemory}
    (hlist : ListInMapping w.tracker w.mem m v p n) :
    ((∃ w', Loop (attributeTurn (panwrapDecodeAttributes none) v
        (panwrapFindMappedGpuMemContaining w.tracker.mmaps p)) nextEntry p w
        ((List.range (n+1)).map (entryAt p)) (.ok () w')) ∧
      ((List.range (n+1)).map (entryAt p)).Nodup) ↔
    ListAccepted w.tracker w.mem v (panwrapFindMappedGpuMemContaining w.tracker.mmaps p) p n := by
  have hmap (k : ℕ) : (List.range k).map (entryAt p) = List.iterate nextEntry p k := by
    simp only [← List.range_map_iterate, nextEntry_iterate]
  rw [and_iff_left hlist.nodup, hmap]
  apply (loop_ok_iff attributeTurn_fits turnFits_functional n (Sees.self w)).trans
  unfold ListAccepted
  rw [← hmap, nextEntry_iterate]
  apply and_congr_left
  intro _
  simp

theorem entryAt_toNat {m : PanwrapMappedMemory} (h : ListInMapping t mem m v p n)
    (hm : m.InUserHalf) {i : ℕ} (hi : i ≤ n) : (entryAt p i).toNat = p.toNat + 8 * i := by
  obtain ⟨hlow, hhigh⟩ := h.inside
  unfold PanwrapMappedMemory.InUserHalf at hm
  have height : (8 : U64).toNat = 8 := rfl
  simp only [entryAt, BitVec.toNat_add, BitVec.toNat_mul, BitVec.toNat_ofNat, height]
  omega

/-- With correct pointers and accepted records, what a list is accepted for is 32 bytes behind
its zero. -/
theorem ListInMapping.accepted_iff_room {m : PanwrapMappedMemory}
    (h : ListInMapping t mem m v p n) (hm : m.InUserHalf) (hsym : m.Symmetric)
    (hrecords : ∀ i < n, AttributesFit t mem none
      (mem.read (v + 96) 8 + (gpuWord mem m (entryAt p i) &&& 0xff))) :
    ListAccepted t mem v (some m) p n ↔
      n = 0 ∨ p.toNat + 8 * n + 40 ≤ m.gpuVa.toNat + m.length.toNat := by
  obtain ⟨hlow, hhigh⟩ := h.inside
  have height : (8 : U64).toNat = 8 := rfl
  have hrecord : sizeofMappedMemory.toNat = 48 := rfl
  have haccepted {a size : U64} (hcov : m.Covers a size) :
      derefGpuMem t.mmaps (some m) a size = some (m.addr + (a - m.gpuVa)) :=
    derefGpuMem_eq_some_iff.mpr ⟨m, rfl, hcov.not_rejects, (translate_eq_iff m a).mpr hsym⟩
  have hword {i : ℕ} (hi : i ≤ n) :
      entryWord t mem (some m) (entryAt p i) = some (gpuWord mem m (entryAt p i)) := by
    have haddr := entryAt_toNat h hm hi
    have hcov : m.Covers (entryAt p i) 8 := by
      unfold PanwrapMappedMemory.Covers
      omega
    rw [entryWord, haccepted hcov]
    rfl
  -- the second check of an entry takes the size of the mapping's record
  have hentry {i : ℕ} (hi : i < n) : EntryFits t mem v (some m) (entryAt p i) ↔
      p.toNat + 8 * i + 48 ≤ m.gpuVa.toNat + m.length.toNat := by
    have haddr := entryAt_toNat h hm hi.le
    constructor
    · rintro ⟨attrMeta, hderef, _⟩
      obtain ⟨m', hm', haccept, _⟩ := derefGpuMem_eq_some_iff.mp hderef
      obtain rfl : m = m' := Option.some.inj hm'
      have hreach : m.Reaches (entryAt p i) := by
        unfold PanwrapMappedMemory.Reaches
        omega
      have hcov := (hreach.covers hm (by decide) haccept).2
      omega
    · intro hroom
      have hcov : m.Covers (entryAt p i) sizeofMappedMemory := by
        unfold PanwrapMappedMemory.Covers
        omega
      exact ⟨_, haccepted hcov, hrecords i hi⟩
  constructor
  · rintro ⟨hall, _⟩
    by_cases hn : n = 0
    · exact .inl hn
    · have hlast := (hentry (show n-1 < n by omega)).mp (hall (n-1) (by omega)).2
      right
      omega
  · intro hroom
    refine ⟨fun i hi => ⟨⟨_, hword hi.le, h.entries i hi⟩, (hentry hi).mpr ?_⟩, ?_⟩
    · omega
    · show entryWord t mem (some m) (entryAt p n) = some 0
      rw [hword le_rfl, h.terminator]

/-- One entry at `p`, of index 0, which names a record of one vertex. -/
def oneEntryList (p : U64) : Memory := fun a =>
  if a = p + 1 then 1 else if a = 0x2061 then 1 else if a = 0x2062 then 1
  else if a = 0x10101 then 2 else if a = 0x10102 then 1
  else if a = 0x10108 then 4 else if a = 0x10110 then 4 else 0

def attributePage : PanwrapMappedMemory := ⟨0x1000, 0x10000, 0x10000, 3, 0⟩

theorem oneEntryList_inMapping {p : U64} (hp : p = 0x10f00 ∨ p = 0x10ff0) :
    ListInMapping ⟨[], [attributePage]⟩ (oneEntryList p) attributePage 0x2000 p 1 := by
  have hmem : attributePage ∈ [attributePage] := List.mem_singleton.mpr rfl
  have hrecord : Lies ⟨[], [attributePage]⟩ 0x10100 sizeofVertexTilerAttr 0x10100 :=
    ⟨attributePage, hmem, by decide, by decide⟩
  have hbuffer : Lies ⟨[], [attributePage]⟩ 0x10200 4 0x10200 :=
    ⟨attributePage, hmem, by decide, by decide⟩
  obtain rfl | rfl := hp
  all_goals
    refine ⟨hmem, by decide, fun i hi => ?_, by decide, fun i hi => ?_⟩
    all_goals obtain rfl : i = 0 := Nat.lt_one_iff.mp hi
    · decide
    · exact ⟨0x10100, hrecord, by decide, 0x10200, hbuffer⟩

/-- The list ends where the mapping ends, and its only entry is refused. -/
theorem attribute_list_rejected_at_end :
    ListInMapping ⟨[], [attributePage]⟩ (oneEntryList 0x10ff0) attributePage 0x2000 0x10ff0 1 ∧
      ¬∃ w', Loop (attributeTurn (panwrapDecodeAttributes none) 0x2000
        (panwrapFindMappedGpuMemContaining [attributePage] 0x10ff0)) nextEntry 0x10ff0
        { World.plain.withMmaps [attributePage] with mem := oneEntryList 0x10ff0 }
        [0x10ff0, 0x10ff8] (.ok () w') := by
  refine ⟨oneEntryList_inMapping (.inr rfl), fun ⟨w', hloop⟩ => ?_⟩
  cases hloop with
  | more hturn hrest =>
    have hsees : Sees ⟨[], [attributePage]⟩ (oneEntryList 0x10ff0)
        { World.plain.withMmaps [attributePage] with mem := oneEntryList 0x10ff0 } := ⟨rfl, rfl⟩
    obtain ⟨⟨_, attrMeta, hderef, _⟩, _⟩ := (attributeTurn_fits _).ok hsees hturn
    have hnone : derefGpuMem [attributePage]
        (panwrapFindMappedGpuMemContaining [attributePage] 0x10ff0) 0x10ff0
        sizeofMappedMemory = none := by decide
    exact nomatch hnone.symm.trans hderef

theorem attribute_list_accepted_with_room :
    ∃ w', Loop (attributeTurn (panwrapDecodeAttributes none) 0x2000
        (panwrapFindMappedGpuMemContaining [attributePage] 0x10f00)) nextEntry 0x10f00
        { World.plain.withMmaps [attributePage] with mem := oneEntryList 0x10f00 }
        [0x10f00, 0x10f08] (.ok () w') := by
  have haccepted : ListAccepted ⟨[], [attributePage]⟩ (oneEntryList 0x10f00) 0x2000
      (panwrapFindMappedGpuMemContaining [attributePage] 0x10f00) 0x10f00 1 := by
    refine ⟨fun i hi => ?_, ?_⟩
    · obtain rfl : i = 0 := Nat.lt_one_iff.mp hi
      exact ⟨⟨0x100, by decide, by decide⟩, 0x10f00, by decide, 0x10100, by decide, 0x10200,
        by decide, by decide, by decide, by decide⟩
    · show entryWord _ _ _ _ = some 0
      decide
  have hlist : ListInMapping
      { World.plain.withMmaps [attributePage] with mem := oneEntryList 0x10f00 }.tracker
      (oneEntryList 0x10f00) attributePage 0x2000 0x10f00 1 := oneEntryList_inMapping (.inl rfl)
  exact ((attribute_list_accepted_iff
    (w := { World.plain.withMmaps [attributePage] with mem := oneEntryList 0x10f00 })
    hlist).mpr haccepted).1

end Acceptance

section Records

variable {t : Tracker} {mem : Memory} {v p : U64} {attrMem : Option PanwrapMappedMemory}

/-- The attribute list at `p`, read through `attrMem`, up to its zero. -/
def EntriesFrom (t : Tracker) (mem : Memory) (attrMem : Option PanwrapMappedMemory) :
    U64 → List U64 → Prop
  | p, [] => entryWord t mem attrMem p = some 0
  | p, word :: words => entryWord t mem attrMem p = some word ∧ word ≠ 0 ∧
      EntriesFrom t mem attrMem (nextEntry p) words

/-- The field `index` of an entry. -/
def entryIndex (word : U64) : U64 := word &&& 0xff

/-- The body of the loop, at the entry at `p`, comes to decode the record at `addr`. -/
def RecordDecoded (t : Tracker) (mem : Memory) (v : U64) (attrMem : Option PanwrapMappedMemory)
    (p addr : U64) : Prop :=
  ∀ w, Sees t mem w → ∃ u, Sees t mem u ∧ ∀ decode : U64 → Wrap Unit,
    attributeEntry decode v attrMem p w = (do
      decode addr
      panwrapIndentDecr) u

/-- The records at `a` and at `b` have no byte in common. -/
def RecordsApart (a b : U64) : Prop :=
  ∀ i j : ℕ, i < 24 → j < 24 → a + BitVec.ofNat 64 i ≠ b + BitVec.ofNat 64 j

theorem EntriesFrom.word {words : List U64} (h : EntriesFrom t mem attrMem p words) {k : ℕ}
    {word : U64} (hk : words[k]? = some word) :
    entryWord t mem attrMem (nextEntry^[k] p) = some word := by
  induction words generalizing p k with
  | nil => exact nomatch hk
  | cons first words ih =>
    cases k with
    | zero =>
      obtain rfl : first = word := Option.some.inj hk
      exact h.1
    | succ k => exact ih h.2.2 hk

/-- A read of memory and what follows it. -/
theorem load64_run {w : World} (hw : Sees t mem w) (a : U64) :
    ∃ u, Sees t mem u ∧ load64 a w = .ok (mem.read a 8) u :=
  ⟨w.emit (.load a 8), ⟨hw.tracker, hw.mem⟩, by rw [← hw.mem]; rfl⟩

/-- The index is added as it is. -/
theorem recordDecoded_index {attrMeta : U64}
    (h : derefGpuMem t.mmaps attrMem p sizeofMappedMemory = some attrMeta) :
    RecordDecoded t mem v attrMem p (mem.read (v + 96) 8 + entryIndex (mem.read attrMeta 8)) := by
  intro w hw
  rw [← hw.tracker] at h
  obtain ⟨w₁, hw₁, hword⟩ := load64_run hw attrMeta
  obtain ⟨_, w₂, hindex, hw₂⟩ :=
    (total_panwrapLog "%x:\n" [.int (mem.read attrMeta 8 &&& 0xff).toNat]).returns hw₁
  have hindent : Total (Sees t mem) panwrapIndentIncr := inferInstance
  obtain ⟨_, w₃, hincr, hw₃⟩ := hindent.returns hw₂
  obtain ⟨_, w₄, hflags, hw₄⟩ :=
    (total_panwrapLog "flags = 0x%014lx\n" [.u64 (mem.read attrMeta 8 >>> 8)]).returns hw₃
  obtain ⟨w₅, hw₅, hattributes⟩ := load64_run hw₄ (v + 96)
  refine ⟨w₅, hw₅, fun decode => ?_⟩
  rw [attributeEntry, bind_ok (panwrapDerefGpuMem_some 128 decoderFile h), bind_ok hword,
    bind_ok hindex, bind_ok hincr, bind_ok hflags, bind_ok hattributes]
  rfl

/-- An entry that is refused does not get to a record. -/
theorem not_recordDecoded {addr : U64}
    (h : derefGpuMem t.mmaps attrMem p sizeofMappedMemory = none) :
    ¬RecordDecoded t mem v attrMem p addr := by
  intro hrecord
  let w : World := { World.plain with tracker := t, mem := mem }
  obtain ⟨u, -, hdecode⟩ := hrecord w ⟨rfl, rfl⟩
  have hderef := @panwrapDerefGpuMem_ensures t mem attrMem p sizeofMappedMemory 128 decoderFile w
    ⟨rfl, rfl⟩
  cases hr : panwrapDerefGpuMem attrMem p sizeofMappedMemory 128 decoderFile w with
  | ok q u' =>
    rw [hr, h] at hderef
    exact nomatch hderef.1
  | error e u' => exact nomatch (bind_error hr).symm.trans (hdecode fun _ => pure ())

/-- A decoder that refuses one of two records tells them apart. -/
theorem RecordDecoded.unique {a b : U64} (ha : RecordDecoded t mem v attrMem p a)
    (hb : RecordDecoded t mem v attrMem p b) : a = b := by
  by_contra hne
  let w : World := { World.plain with tracker := t, mem := mem }
  let decode : U64 → Wrap Unit := fun addr => if addr = a then halt .assertFailed else pure ()
  obtain ⟨u, -, hu⟩ := ha w ⟨rfl, rfl⟩
  obtain ⟨u', -, hu'⟩ := hb w ⟨rfl, rfl⟩
  have hstops : decode a u = .error .assertFailed u := by simp only [decode, if_true]; rfl
  have hreturns : decode b u' = .ok () u' := by
    simp only [decode, if_neg (Ne.symm hne)]
    rfl
  have hsame := (hu decode).symm.trans (hu' decode)
  rw [bind_error hstops, bind_ok hreturns] at hsame
  exact nomatch hsame

theorem elementAt_eq_iff (attributes word : U64) :
    attributes + entryIndex word = elementAt attributes (entryIndex word) ↔
      entryIndex word = 0 := by
  have hsmall : (entryIndex word).toNat ≤ 255 := by
    unfold entryIndex
    rw [BitVec.toNat_and]
    exact Nat.and_le_right
  unfold elementAt sizeofVertexTilerAttr
  have hfactor : (24 : U64).toNat = 24 := rfl
  have hzero : (0 : U64).toNat = 0 := rfl
  rw [BitVec.add_right_inj, ← BitVec.toNat_inj, ← BitVec.toNat_inj, BitVec.toNat_mul, hfactor,
    hzero]
  omega

/-- In every list the records that are decoded are the elements of the array that the indices
name, and those of different indices have no byte in common, exactly if every index that is
used is 0. -/
theorem records_are_elements_iff {words : List U64} (hlist : EntriesFrom t mem attrMem p words) :
    ((∀ k word, words[k]? = some word → ∀ addr,
        RecordDecoded t mem v attrMem (entryAt p k) addr →
          addr = elementAt (mem.read (v + 96) 8) (entryIndex word)) ∧
      ∀ k k' word word', words[k]? = some word → words[k']? = some word' → ∀ addr addr',
        RecordDecoded t mem v attrMem (entryAt p k) addr →
        RecordDecoded t mem v attrMem (entryAt p k') addr' →
        entryIndex word ≠ entryIndex word' → RecordsApart addr addr') ↔
    ∀ k word, words[k]? = some word →
      (derefGpuMem t.mmaps attrMem (entryAt p k) sizeofMappedMemory).isSome →
      entryIndex word = 0 := by
  -- the entry that names a record is the word that the loop tested
  have hrecord {k : ℕ} {word : U64} (hk : words[k]? = some word)
      (hsome : (derefGpuMem t.mmaps attrMem (entryAt p k) sizeofMappedMemory).isSome) :
      RecordDecoded t mem v attrMem (entryAt p k) (mem.read (v + 96) 8 + entryIndex word) := by
    obtain ⟨attrMeta, hmeta⟩ := Option.isSome_iff_exists.mp hsome
    have hword := hlist.word hk
    rw [nextEntry_iterate, entryWord] at hword
    obtain ⟨entry, hentry, rfl⟩ := Option.map_eq_some_iff.mp hword
    obtain ⟨m, hm, _, rfl⟩ := derefGpuMem_eq_some_iff.mp hmeta
    obtain ⟨m', hm', _, rfl⟩ := derefGpuMem_eq_some_iff.mp hentry
    obtain rfl : m = m' := Option.some.inj (hm.symm.trans hm')
    exact recordDecoded_index hmeta
  have haccepted {k : ℕ} {addr : U64} (h : RecordDecoded t mem v attrMem (entryAt p k) addr) :
      (derefGpuMem t.mmaps attrMem (entryAt p k) sizeofMappedMemory).isSome := by
    by_contra hnone
    exact not_recordDecoded (Option.not_isSome_iff_eq_none.mp hnone) h
  constructor
  · rintro ⟨helement, _⟩ k word hk hsome
    exact (elementAt_eq_iff _ word).mp (helement k word hk _ (hrecord hk hsome))
  · intro hzero
    constructor
    · intro k word hk addr haddr
      rw [haddr.unique (hrecord hk (haccepted haddr))]
      exact (elementAt_eq_iff _ word).mpr (hzero k word hk (haccepted haddr))
    · intro k k' word word' hk hk' addr addr' haddr haddr' hne
      rw [hzero k word hk (haccepted haddr), hzero k' word' hk' (haccepted haddr')] at hne
      exact absurd rfl hne

/-- One entry, of index 1, and an array of records at 0x10100. -/
def indexOneList : Memory := fun a =>
  if a = 0x10f00 then 1 else if a = 0x2061 then 1 else if a = 0x2062 then 1 else 0

/-- The record is taken from the second byte of the array. -/
theorem record_index_not_scaled :
    EntriesFrom ⟨[], [attributePage]⟩ indexOneList (some attributePage) 0x10f00 [1] ∧
      RecordDecoded ⟨[], [attributePage]⟩ indexOneList 0x2000 (some attributePage) 0x10f00
        0x10101 ∧
      0x10101 ≠ elementAt (indexOneList.read (0x2000 + 96) 8) (entryIndex 1) := by
  have hderef : derefGpuMem [attributePage] (some attributePage) 0x10f00 sizeofMappedMemory =
      some 0x10f00 := by decide
  have haddr : indexOneList.read (0x2000 + 96) 8 + entryIndex (indexOneList.read 0x10f00 8) =
      0x10101 := by decide
  refine ⟨⟨by decide, by decide, ?_⟩, ?_, by decide⟩
  · show entryWord _ _ _ _ = some 0
    decide
  · rw [← haddr]
    exact recordDecoded_index hderef

theorem records_are_elements_at_index_zero :
    RecordDecoded ⟨[], [attributePage]⟩ (oneEntryList 0x10f00) 0x2000 (some attributePage)
        (entryAt 0x10f00 0) 0x10100 ∧
      0x10100 = elementAt ((oneEntryList 0x10f00).read (0x2000 + 96) 8) (entryIndex 0x100) := by
  have hlist : EntriesFrom ⟨[], [attributePage]⟩ (oneEntryList 0x10f00) (some attributePage)
      0x10f00 [0x100] := by
    refine ⟨by decide, by decide, ?_⟩
    show entryWord _ _ _ _ = some 0
    decide
  have hderef : derefGpuMem [attributePage] (some attributePage) (entryAt 0x10f00 0)
      sizeofMappedMemory = some 0x10f00 := by decide
  have haddr : (oneEntryList 0x10f00).read (0x2000 + 96) 8 +
      entryIndex ((oneEntryList 0x10f00).read 0x10f00 8) = 0x10100 := by decide
  have hrecord : RecordDecoded ⟨[], [attributePage]⟩ (oneEntryList 0x10f00) 0x2000
      (some attributePage) (entryAt 0x10f00 0) 0x10100 := by
    rw [← haddr]
    exact recordDecoded_index hderef
  have hzero (k : ℕ) (word : U64) (hk : [(0x100 : U64)][k]? = some word) :
      entryIndex word = 0 := by
    obtain rfl : word = 0x100 := List.mem_singleton.mp (List.mem_of_getElem? hk)
    decide
  have helements := (records_are_elements_iff (v := 0x2000) hlist).mpr fun k word hk _ =>
    hzero k word hk
  exact ⟨hrecord, helements.1 0 0x100 rfl 0x10100 hrecord⟩

end Records
end Panloader
