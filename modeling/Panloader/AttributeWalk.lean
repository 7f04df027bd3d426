import Panloader.CursorLoops
import Panloader.Submission

/-! The walk over the attribute list of a vertex or tiler job, turn by turn. The decoder of the
records is a parameter. -/
namespace Panloader
open Effects

/-- The body of the attribute list's loop with `decode` for `panwrap_decode_attributes`. -/
def attributeEntry (decode : U64 → Wrap Unit) (v : U64) (attrMem : Option PanwrapMappedMemory)
    (p : U64) : Wrap Unit := do
  let attrMeta ← panwrapDerefGpuMem attrMem p sizeofMappedMemory 128 decoderFile
  let word ← load64 attrMeta
  let index := word &&& 0xff
  panwrapLog "%x:\n" [.int index.toNat]
  panwrapIndentIncr
  panwrapLog "flags = 0x%014lx\n" [.u64 (word >>> 8)]
  let attributes ← load64 (v + 96)
  decode (attributes + index)
  panwrapIndentDecr

/-- The test of the loop and, where it holds, the body. -/
def attributeTurn (decode : U64 → Wrap Unit) (v : U64) (attrMem : Option PanwrapMappedMemory)
    (p : U64) : Wrap Bool := do
  let entry ← panwrapDerefGpuMem attrMem p 8 126 decoderFile
  let word ← load64 entry
  if word ≠ 0 then do
    attributeEntry decode v attrMem p
    pure true
  else pure false

/-- `p += sizeof(u64)` -/
def nextEntry (p : U64) : U64 := p + 8

def attributeWalk (decode : U64 → Wrap Unit) (v : U64) (attrMem : Option PanwrapMappedMemory) :
    ℕ → U64 → Wrap Unit :=
  loopFor (attributeTurn decode v attrMem) nextEntry (halt .endlessLoop)

/-- The loop of the program is the walk with its own decoder of records. -/
theorem decodeAttributeList_eq (v : U64) (attrMem : Option PanwrapMappedMemory) (n : ℕ) (p : U64) :
    decodeAttributeList v attrMem n p =
      attributeWalk (panwrapDecodeAttributes none) v attrMem n p := by
  induction n generalizing p with
  | zero => rfl
  | succ n ih =>
    simp only [decodeAttributeList, attributeWalk, loopFor, attributeTurn, bind_assoc]
    congr 1
    funext entry
    congr 1
    funext word
    by_cases hword : word ≠ 0
    · simp only [if_pos hword, bind_assoc, pure_bind, if_true]
      congr 1
      funext done
      exact ih (nextEntry p)
    · simp only [if_neg hword, pure_bind, Bool.false_eq_true, if_false]

/-- The address of entry `k` of the list at `p`. -/
def entryAt (p : U64) (k : ℕ) : U64 := p + 8 * BitVec.ofNat 64 k

theorem nextEntry_iterate (p : U64) (k : ℕ) : nextEntry^[k] p = entryAt p k := by
  induction k with
  | zero => simp [entryAt]
  | succ k ih =>
    rw [Function.iterate_succ_apply', ih, nextEntry, entryAt, entryAt, BitVec.ofNat_add]
    grind

/-- The word that the test of the loop reads for the entry at `p`. -/
def entryWord (t : Tracker) (mem : Memory) (attrMem : Option PanwrapMappedMemory) (p : U64) :
    Option U64 :=
  (derefGpuMem t.mmaps attrMem p 8).map fun entry => mem.read entry 8

/-- Where it returns, `decode` has left the tracker and the program's memory as they were. -/
def KeepsMemory (decode : U64 → Wrap Unit) : Prop :=
  ∀ t mem addr, Ensures (Sees t mem) (decode addr) (fun _ => Sees t mem) (fun _ _ => True)

theorem panwrapDecodeAttributes_keepsMemory (m : Option PanwrapMappedMemory) :
    KeepsMemory (panwrapDecodeAttributes m) := by
  intro t mem addr
  apply Ensures.mono (panwrapDecodeAttributes_decides m addr)
  · exact fun _ _ h => h.2
  · exact fun _ _ _ => trivial

section Turns

variable {t : Tracker} {mem : Memory} {decode : U64 → Wrap Unit} {v p : U64}
  {attrMem : Option PanwrapMappedMemory}

theorem Total.keeps {α : Type} {m : Wrap α} [h : Total (Sees t mem) m] :
    Ensures (Sees t mem) m (fun _ => Sees t mem) (fun _ _ => True) :=
  h.ensures.mono_error fun _ _ _ => trivial

theorem attributeEntry_keeps (hdecode : KeepsMemory decode) :
    Ensures (Sees t mem) (attributeEntry decode v attrMem p) (fun _ => Sees t mem)
      (fun _ _ => True) := by
  have hderef : Ensures (Sees t mem)
      (panwrapDerefGpuMem attrMem p sizeofMappedMemory 128 decoderFile) (fun _ => Sees t mem)
      (fun _ _ => True) :=
    panwrapDerefGpuMem_ensures.mono (fun _ _ h => h.2) fun _ _ _ => trivial
  apply hderef.bind
  intro attrMeta
  apply Total.keeps.bind
  intro word
  refine Total.keeps.bind fun _ => Total.keeps.bind fun _ => Total.keeps.bind fun _ => ?_
  apply Total.keeps.bind
  intro attributes
  exact (hdecode t mem _).bind fun _ => Total.keeps

/-- A turn that ends normally has read a word, and goes on unless it is zero. -/
theorem attributeTurn_ensures (hdecode : KeepsMemory decode) :
    Ensures (Sees t mem) (attributeTurn decode v attrMem p)
      (fun more w => (∃ word, entryWord t mem attrMem p = some word ∧ (more = true ↔ word ≠ 0)) ∧
        Sees t mem w) (fun _ _ => True) := by
  apply (panwrapDerefGpuMem_ensures.mono_error fun _ _ _ => trivial).bind
  intro entry
  apply Ensures.of_fact
  intro hentry
  have hword : entryWord t mem attrMem p = some (mem.read entry 8) := by
    simp only [entryWord, hentry, Option.map_some]
  apply ((load_ensures 8 entry).mono_error fun _ _ h => h.elim).bind_eq
  by_cases hzero : mem.read entry 8 ≠ 0
  · rw [if_pos hzero]
    apply (attributeEntry_keeps hdecode).bind
    intro _ w hw
    exact ⟨⟨_, hword, iff_of_true rfl hzero⟩, hw⟩
  · rw [if_neg hzero]
    exact fun w hw => ⟨⟨_, hword, iff_of_false Bool.false_ne_true hzero⟩, hw⟩

end Turns
end Panloader
