import Panloader.Histories
import Panloader.Observers
import Panloader.Submission

/-! The rows that are printed for an attribute record: every row is the first one. -/
namespace Panloader
open Effects Histories

/-- A row begins, or has one component more. -/
inductive RowToken
  | row
  | value (bits : U32)
deriving DecidableEq

/-- The rows printed, and the addresses of the 32-bit words that were read. -/
structure RowLog where
  tokens : List RowToken
  reads : List U64
deriving DecidableEq

def RowLog.component (s : RowLog) : List Arg → RowLog
  | .float bits :: _ => { s with tokens := s.tokens ++ [.value bits] }
  | _ => s

def rowObserver : Observer RowLog where
  line s format _ := if format = "<" then { s with tokens := s.tokens ++ [.row] } else s
  cont s format args := if format = "%f%s" then s.component args else s
  load s a n := if n = 4 then { s with reads := s.reads ++ [a] } else s

/-- `n` rows of `k` components. -/
def rowTokens (n k : ℕ) (word : ℕ → ℕ → U32) : List RowToken :=
  (List.range n).flatMap fun r => .row :: (List.range k).map fun c => .value (word r c)

/-- Word `c` of the buffer at `p`. -/
def wordAt (p : U64) (c : ℕ) : U64 := p + 4 * BitVec.ofNat 64 c

theorem rowTokens_succ (n k : ℕ) (word : ℕ → ℕ → U32) :
    rowTokens (n+1) k word =
      rowTokens n k word ++ .row :: (List.range k).map fun c => .value (word n c) := by
  simp only [rowTokens, List.range_succ, List.flatMap_append, List.flatMap_singleton]

/-- Rows of the same number of components are the same rows word by word. -/
theorem rowTokens_eq_iff {n k : ℕ} {f g : ℕ → ℕ → U32} :
    rowTokens n k f = rowTokens n k g ↔ ∀ r < n, ∀ c < k, f r c = g r c := by
  unfold rowTokens
  rw [flatMap_range_eq_iff fun r => by simp]
  simp [List.map_inj_left]

section Rows

variable {t : Tracker} {mem : Memory}

theorem logAttributeRow_shows (buffer componentCount : U64) (s : RowLog) :
    Shows rowObserver t mem s (logAttributeRow buffer componentCount) ()
      { tokens := s.tokens ++ .row ::
          (List.range componentCount.toNat).map fun c => .value (mem.read (wordAt buffer c) 4)
        reads := s.reads ++ (List.range componentCount.toNat).map (wordAt buffer) } := by
  -- after `i` components
  let states (i : ℕ) : RowLog :=
    { tokens := s.tokens ++ .row ::
        (List.range i).map fun c => .value (mem.read (wordAt buffer c) 4)
      reads := s.reads ++ (List.range i).map (wordAt buffer) }
  have hturn (i : ℕ) : Shows rowObserver t mem (states i) (do
      let f ← load32 (buffer + 4 * BitVec.ofNat 64 i)
      panwrapLogCont "%f%s"
        [.float f, .str (if BitVec.ofNat 64 i < componentCount - 1 then ", " else "")]) ()
      (states (i+1)) := by
    have hnext : states (i+1) =
        { tokens := (states i).tokens ++ [.value (mem.read (wordAt buffer i) 4)]
          reads := (states i).reads ++ [wordAt buffer i] } := by
      simp [states, List.range_succ]
    rw [hnext]
    exact (Shows.load 4 _).bind (Shows.cont _ _)
  unfold logAttributeRow
  apply (Shows.log "<" []).bind
  have hstart : rowObserver.line s "<" [] = states 0 := by simp [rowObserver, states]
  rw [hstart]
  exact (Shows.forInt hturn componentCount.toNat).bind (Shows.cont ">\n" [])

/-- The rows of a record whose pointers are accepted. -/
theorem panwrapDecodeAttributes_shows {m : Option PanwrapMappedMemory} {addr attr buffer : U64}
    (hattr : derefGpuMem t.mmaps m addr sizeofVertexTilerAttr = some attr)
    (hbuffer : derefGpuMem t.mmaps none ((mem.read attr 8 >>> 2) <<< 2)
      (mem.read (attr + 16) 8) = some buffer) :
    Shows rowObserver t mem ⟨[], []⟩ (panwrapDecodeAttributes m addr) ()
      { tokens := rowTokens (mem.read (attr + 16) 8 / mem.read (attr + 8) 8).toNat
          (mem.read (attr + 8) 8 / 4).toNat fun _ c => mem.read (wordAt buffer c) 4
        reads := (List.range (mem.read (attr + 16) 8 / mem.read (attr + 8) 8).toNat).flatMap
          fun _ => (List.range (mem.read (attr + 8) 8 / 4).toNat).map (wordAt buffer) } := by
  -- after `r` rows
  let states (r : ℕ) : RowLog :=
    { tokens := rowTokens r (mem.read (attr + 8) 8 / 4).toNat
        fun _ c => mem.read (wordAt buffer c) 4
      reads := (List.range r).flatMap
        fun _ => (List.range (mem.read (attr + 8) 8 / 4).toNat).map (wordAt buffer) }
  have hturn (r : ℕ) : Shows rowObserver t mem (states r)
      (logAttributeRow buffer (mem.read (attr + 8) 8 / 4)) () (states (r+1)) := by
    have hnext : states (r+1) =
        { tokens := (states r).tokens ++ .row :: (List.range (mem.read (attr + 8) 8 / 4).toNat).map
            fun c => .value (mem.read (wordAt buffer c) 4)
          reads := (states r).reads ++
            (List.range (mem.read (attr + 8) 8 / 4).toNat).map (wordAt buffer) } := by
      simp [states, rowTokens_succ, List.range_succ]
    rw [hnext]
    exact logAttributeRow_shows buffer _ (states r)
  unfold panwrapDecodeAttributes
  apply Shows.deref
  intro attr' hattr'
  obtain rfl : attr = attr' := Option.some.inj (hattr.symm.trans hattr')
  apply (Shows.load 8 attr).bind
  apply (Shows.load 8 (attr + 16)).bind
  apply Shows.deref
  intro buffer' hbuffer'
  obtain rfl : buffer = buffer' := Option.some.inj (hbuffer.symm.trans hbuffer')
  apply (Shows.load 8 (attr + 8)).bind
  apply Shows.udiv
  intro _
  apply Shows.udiv
  intro _
  apply (Shows.log _ _).bind
  apply Shows.indentIncr.bind
  exact (Shows.forInt hturn _).bind Shows.indentDecr

end Rows

/-- Word `c` of row `r` of a buffer at `p`. -/
def vertexWord (mem : Memory) (p stride : U64) (r c : ℕ) : U32 :=
  mem.read (wordAt (p + stride * BitVec.ofNat 64 r) c) 4

/-- The record at `attr` is decoded with the rows of its buffer, which the CPU has at `element`:
`size/stride` of them with `stride/4` words each, all read inside the buffer that was checked. -/
def RowsShown (w : World) (m : Option PanwrapMappedMemory) (addr attr element : U64) : Prop :=
  ∃ buffer w' es,
    derefGpuMem w.tracker.mmaps none ((w.mem.read attr 8 >>> 2) <<< 2) (w.mem.read (attr + 16) 8) =
      some buffer ∧
    panwrapDecodeAttributes m addr w = .ok () w' ∧ w'.trace = w.trace ++ es ∧
    (es.foldl rowObserver.step ⟨[], []⟩).tokens =
      rowTokens (w.mem.read (attr + 16) 8 / w.mem.read (attr + 8) 8).toNat
        (w.mem.read (attr + 8) 8 / 4).toNat
        (vertexWord w.mem element (w.mem.read (attr + 8) 8)) ∧
    ∀ a ∈ (es.foldl rowObserver.step ⟨[], []⟩).reads,
      (a - buffer).toNat + 4 ≤ (w.mem.read (attr + 16) 8).toNat

/-- The buffer is accepted, its rows and components can be counted, and each of its rows has the
words that the first row has at the pointer. -/
def RowsRepeat (w : World) (attr element : U64) : Prop :=
  ∃ buffer,
    derefGpuMem w.tracker.mmaps none ((w.mem.read attr 8 >>> 2) <<< 2) (w.mem.read (attr + 16) 8) =
      some buffer ∧
    (w.mem.read (attr + 16) 8 / w.mem.read (attr + 8) 8).toNat ≤ intMax ∧
    ∀ r < (w.mem.read (attr + 16) 8 / w.mem.read (attr + 8) 8).toNat,
      (w.mem.read (attr + 8) 8 / 4).toNat ≤ intMax ∧
      ∀ c < (w.mem.read (attr + 8) 8 / 4).toNat, w.mem.read (wordAt buffer c) 4 =
        vertexWord w.mem element (w.mem.read (attr + 8) 8) r c

/-- A word of the first row lies inside the buffer, if there is a row. -/
theorem wordAt_inside {buffer size stride : U64} {r c : ℕ} (hr : r < (size / stride).toNat)
    (hc : c < (stride / 4).toNat) : (wordAt buffer c - buffer).toNat + 4 ≤ size.toNat := by
  have hfour : (4 : U64).toNat = 4 := rfl
  rw [BitVec.toNat_udiv] at hr hc
  rw [hfour] at hc
  have hoffset : wordAt buffer c - buffer = 4 * BitVec.ofNat 64 c := by
    unfold wordAt
    grind
  have hstride : stride.toNat ≤ size.toNat := by
    by_contra hlt
    rw [Nat.div_eq_of_lt (by omega)] at hr
    omega
  have hsmall := stride.isLt
  rw [hoffset, BitVec.toNat_mul, BitVec.toNat_ofNat, hfour]
  omega

section Records

variable {w : World} {m : Option PanwrapMappedMemory} {addr attr element : U64}

theorem RowsShown.rowsRepeat
    (hattr : derefGpuMem w.tracker.mmaps m addr sizeofVertexTilerAttr = some attr)
    (h : RowsShown w m addr attr element) : RowsRepeat w attr element := by
  obtain ⟨buffer, w', es, hbuffer, hr, htrace, htokens, _⟩ := h
  have hok := (panwrapDecodeAttributes_decides m addr).returns_iff (Sees.self w)
  obtain ⟨attr', hattr', buffer', hbuffer', _, hrows, hcomponents⟩ := hok.mp ⟨w', hr⟩
  obtain rfl : attr = attr' := Option.some.inj (hattr.symm.trans hattr')
  rw [Shows.folds (panwrapDecodeAttributes_shows hattr hbuffer) hr htrace] at htokens
  have hwords := rowTokens_eq_iff.mp htokens
  exact ⟨buffer, hbuffer, hrows, fun r hr => ⟨hcomponents r hr, hwords r hr⟩⟩

theorem RowsRepeat.rowsShown
    (hattr : derefGpuMem w.tracker.mmaps m addr sizeofVertexTilerAttr = some attr)
    (hstride : w.mem.read (attr + 8) 8 ≠ 0) (h : RowsRepeat w attr element) :
    RowsShown w m addr attr element := by
  obtain ⟨buffer, hbuffer, hrows, hwords⟩ := h
  have hfits : AttributesFit w.tracker w.mem m addr :=
    ⟨attr, hattr, buffer, hbuffer, hstride, hrows, fun r hr => (hwords r hr).1⟩
  obtain ⟨w', hr⟩ := ((panwrapDecodeAttributes_decides m addr).returns_iff (Sees.self w)).mpr hfits
  obtain ⟨-, -, es, htrace, hseen⟩ :=
    panwrapDecodeAttributes_shows hattr hbuffer w () w' (Sees.self w) hr
  refine ⟨buffer, w', es, hbuffer, hr, htrace, ?_, ?_⟩
  · rw [hseen]
    exact rowTokens_eq_iff.mpr fun r hr => (hwords r hr).2
  · rw [hseen]
    intro a ha
    obtain ⟨r, hr, ha⟩ := List.mem_flatMap.mp ha
    obtain ⟨c, hc, rfl⟩ := List.mem_map.mp ha
    exact wordAt_inside (List.mem_range.mp hr) (List.mem_range.mp hc)

/-- The rows are those of the buffer exactly if all of them are alike, and like what is found at
the pointer to it. -/
theorem attribute_rows_iff
    (hattr : derefGpuMem w.tracker.mmaps m addr sizeofVertexTilerAttr = some attr)
    (hstride : w.mem.read (attr + 8) 8 ≠ 0) :
    RowsShown w m addr attr element ↔ RowsRepeat w attr element :=
  ⟨fun h => h.rowsRepeat hattr, fun h => h.rowsShown hattr hstride⟩

end Records

/-- A record at 0x10100 with two vertices of one word at 0x10200, of which the second starts with
the byte `b`. -/
def twoVertices (b : U8) : Memory := fun a =>
  if a = 0x10101 then 2 else if a = 0x10102 then 1 else if a = 0x10108 then 4
  else if a = 0x10110 then 8 else if a = 0x10204 then b else 0

def twoVerticesWorld (b : U8) : World :=
  { World.plain.withMmaps [vertexPage] with mem := twoVertices b }

/-- The second row is printed like the first one, 0 for 1. -/
theorem attribute_rows_not_shown :
    Lies (twoVerticesWorld 1).tracker ((((twoVerticesWorld 1).mem.read 0x10100 8) >>> 2) <<< 2)
        ((twoVerticesWorld 1).mem.read (0x10100 + 16) 8) 0x10200 ∧
      ¬RowsShown (twoVerticesWorld 1) none 0x10100 0x10100 0x10200 := by
  refine ⟨⟨vertexPage, List.mem_singleton.mpr rfl, by decide, by decide⟩, fun h => ?_⟩
  obtain ⟨buffer, hbuffer, _, hwords⟩ := h.rowsRepeat (by decide)
  have hpointer : derefGpuMem (twoVerticesWorld 1).tracker.mmaps none
      ((((twoVerticesWorld 1).mem.read 0x10100 8) >>> 2) <<< 2)
      ((twoVerticesWorld 1).mem.read (0x10100 + 16) 8) = some 0x10200 := by decide
  obtain rfl : 0x10200 = buffer := Option.some.inj (hpointer.symm.trans hbuffer)
  exact absurd ((hwords 1 (by decide)).2 0 (by decide)) (by decide)

theorem attribute_rows_shown_alike :
    RowsShown (twoVerticesWorld 0) none 0x10100 0x10100 0x10200 := by
  have hrepeat : RowsRepeat (twoVerticesWorld 0) 0x10100 0x10200 :=
    ⟨0x10200, by decide, by decide, by decide⟩
  exact (attribute_rows_iff (by decide) (by decide)).mpr hrepeat

end Panloader
