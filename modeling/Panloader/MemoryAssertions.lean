import Panloader.HexdumpLength
import Panloader.Submission

/-! The assertions about GPU memory: which bytes they accept, where a plain `char` is signed and
where it is not. -/
namespace Panloader
open Effects

set_option synthInstance.maxSize 4000

def SameBytes (mem : Memory) (size a b : U64) : Prop :=
  ∀ i < size.toNat, mem (a + BitVec.ofNat 64 i) = mem (b + BitVec.ofNat 64 i)

instance (mem : Memory) (size a b : U64) : Decidable (SameBytes mem size a b) := by
  unfold SameBytes
  infer_instance

/-- A plain `char` has the value of the octet. -/
def PlainByte (charSigned : Bool) (c : U8) : Prop := charSigned = true → c.toNat < 0x80

instance (charSigned : Bool) (c : U8) : Decidable (PlainByte charSigned c) := by
  unfold PlainByte
  infer_instance

/-- The comparison of an octet with a plain `char` that has not got its value fails always. -/
theorem promotedChar_eq_iff {charSigned : Bool} {c d : U8} :
    promotedChar charSigned c = d.toNat ↔ c = d ∧ PlainByte charSigned c := by
  unfold promotedChar PlainByte
  have hc := c.isLt
  have hd := d.isLt
  have hsame : c = d ↔ c.toNat = d.toNat := BitVec.toNat_inj.symm
  rw [hsame]
  cases charSigned with
  | false =>
    rw [if_neg Bool.false_ne_true]
    simp only [Bool.false_eq_true, false_implies, and_true]
    omega
  | true =>
    rw [if_pos rfl, BitVec.toInt_eq_toNat_cond]
    simp only [forall_const]
    split_ifs <;> omega

theorem promotedChar_eq_zero_iff {charSigned : Bool} {c : U8} :
    promotedChar charSigned c = 0 ↔ c = 0 := by
  have hzero : (0 : ℤ) = (0 : U8).toNat := rfl
  rw [hzero, promotedChar_eq_iff]
  refine and_iff_left_of_imp ?_
  rintro rfl
  exact fun _ => by decide

section Outcomes

variable {α : Type} {t : Tracker} {mem : Memory} {trim charSigned : Bool}
  {m : Option PanwrapMappedMemory} {gpuVa size data buffer : U64}

theorem trimmed_endsWith :
    EndsWith .assertFailed (SeesTrim t mem trim) (panwrapLogHexdumpTrimmed data size)
      (Dumpable trim mem data size) := by
  apply EndsWith.of_decides panwrapLogHexdumpTrimmed_decides
  rintro w ⟨hw, -⟩
  have hall : Ensures (Sees t mem) (panwrapLogHexdumpTrimmed data size) (fun _ => Sees t mem)
      fun h _ => h = .intOverflow := panwrapLogHexdumpTrimmed_stops
  have hstops := hall w hw
  cases hr : panwrapLogHexdumpTrimmed data size w with
  | ok => trivial
  | error h u =>
    rw [hr] at hstops
    have hh : h = .intOverflow := hstops
    rw [hh]
    exact fun hne => nomatch hne

theorem neverReturns_halt (h : Halt) : NeverReturns (halt h : Wrap α) := by
  intro w a u hok
  cases hok

/-- Each report ends in `abort`. -/
theorem failGpuSame_never : NeverReturns (failGpuSame gpuVa size buffer data) := by
  unfold failGpuSame
  iterate 8
    apply NeverReturns.after
    intro _
  exact neverReturns_halt _

theorem failGpuMemZero_never : NeverReturns (failGpuMemZero gpuVa size buffer) := by
  unfold failGpuMemZero
  iterate 4
    apply NeverReturns.after
    intro _
  exact neverReturns_halt _

theorem failGpuSame_endsWith :
    EndsWith .assertFailed (SeesTrim t mem trim) (failGpuSame gpuVa size buffer data)
      (Dumpable trim mem data size ∧ Dumpable trim mem buffer size) := by
  have habort : EndsWith .assertFailed (SeesTrim t mem trim)
      (halt .assertFailed : Wrap Unit) True :=
    EndsWith.of_error fun _ _ => rfl
  have hgot : EndsWith .assertFailed (SeesTrim t mem trim) (do
      panwrapIndentDecr
      panwrapLog "Instead got:\n" []
      panwrapIndentIncr
      panwrapLogHexdumpTrimmed buffer size
      panwrapIndentDecr
      halt .assertFailed : Wrap Unit) (Dumpable trim mem buffer size) := by
    iterate 3
      apply EndsWith.seq
      intro _
    apply (EndsWith.bind panwrapLogHexdumpTrimmed_decides trimmed_endsWith ?_).congr
    · exact and_iff_left fun _ => trivial
    · intro _
      exact EndsWith.seq fun _ => habort
  unfold failGpuSame
  iterate 2
    apply EndsWith.seq
    intro _
  -- the expected bytes come first, and the others if these could be dumped
  apply (EndsWith.bind panwrapLogHexdumpTrimmed_decides trimmed_endsWith fun _ => hgot).congr
  exact and_congr_right fun h => ⟨fun hrest => hrest h, fun hrest _ => hrest⟩

/-- The turn of `panwrap_assert_gpu_same` at byte `i`. -/
def sameTurn (charSigned : Bool) (gpuVa size buffer data : U64) (i : ℕ) : Wrap Unit := do
  let got ← load8 (buffer + BitVec.ofNat 64 i)
  let expected ← load8 (data + BitVec.ofNat 64 i)
  if promotedChar charSigned got ≠ expected.toNat then failGpuSame gpuVa size buffer data
  else pure ()

/-- The byte at `i` is the expected one, and a plain `char` has its value. -/
def Accepted (charSigned : Bool) (mem : Memory) (buffer data : U64) (i : ℕ) : Prop :=
  mem (buffer + BitVec.ofNat 64 i) = mem (data + BitVec.ofNat 64 i) ∧
    PlainByte charSigned (mem (buffer + BitVec.ofNat 64 i))

theorem load8_ensures (a : U64) : Ensures (SeesTrim t mem trim) (load8 a)
    (fun v w => v = mem a ∧ SeesTrim t mem trim w) fun _ _ => False := by
  have hload : Ensures (Sees t mem) (load 1 a) (fun v w => v = mem.read a 1 ∧ Sees t mem w)
      fun _ _ => False := load_ensures 1 a
  rw [Memory.read_byte] at hload
  exact ensures_seesTrim hload

theorem sameTurn_decides (i : ℕ) :
    Decides (SeesTrim t mem trim) (sameTurn charSigned gpuVa size buffer data i)
      (Accepted charSigned mem buffer data i) := by
  unfold sameTurn Accepted
  apply Decides.seq_value (load8_ensures _)
  apply Decides.seq_value (load8_ensures _)
  rw [← promotedChar_eq_iff]
  apply (failGpuSame_never.decides.ite Decides.of_total).congr
  split_ifs with hne
  · exact iff_of_false not_false hne
  · exact iff_of_true trivial (not_not.mp hne)

theorem sameTurn_endsWith (i : ℕ) :
    EndsWith .assertFailed (SeesTrim t mem trim) (sameTurn charSigned gpuVa size buffer data i)
      (¬Accepted charSigned mem buffer data i →
        Dumpable trim mem data size ∧ Dumpable trim mem buffer size) := by
  unfold sameTurn Accepted
  apply EndsWith.seq_value (load8_ensures _)
  apply EndsWith.seq_value (load8_ensures _)
  rw [← promotedChar_eq_iff]
  apply (failGpuSame_endsWith.ite EndsWith.of_total).congr
  split_ifs with hne
  · exact ⟨fun h _ => h, fun h => h hne⟩
  · exact iff_of_true trivial fun h => absurd h hne

/-- The turn of `panwrap_assert_gpu_mem_zero` at byte `i`. -/
def zeroTurn (charSigned : Bool) (gpuVa size buffer : U64) (i : ℕ) : Wrap Unit := do
  let got ← load8 (buffer + BitVec.ofNat 64 i)
  if promotedChar charSigned got ≠ 0 then failGpuMemZero gpuVa size buffer else pure ()

theorem zeroTurn_decides (i : ℕ) :
    Decides (SeesTrim t mem trim) (zeroTurn charSigned gpuVa size buffer i)
      (mem (buffer + BitVec.ofNat 64 i) = 0) := by
  unfold zeroTurn
  apply Decides.seq_value (load8_ensures _)
  apply (failGpuMemZero_never.decides.ite Decides.of_total).congr
  split_ifs with hne
  · exact iff_of_false not_false fun h => hne (promotedChar_eq_zero_iff.mpr h)
  · exact iff_of_true trivial (promotedChar_eq_zero_iff.mp (not_not.mp hne))

end Outcomes

section Claims

variable {charSigned : Bool} {w : World} {m : Option PanwrapMappedMemory} {gpuVa size data p : U64}

/-- With the pointer at hand, the loops are what is left of the assertions. -/
theorem panwrapAssertGpuSame_eq (hp : derefGpuMem w.tracker.mmaps m gpuVa size = some p) :
    panwrapAssertGpuSame charSigned m gpuVa size data w =
      countFrom (sameTurn charSigned gpuVa size p data) 0 size.toNat w :=
  bind_ok (panwrapDerefGpuMem_some 181 mmapFile hp)

theorem panwrapAssertGpuMemZero_eq (hp : derefGpuMem w.tracker.mmaps m gpuVa size = some p) :
    panwrapAssertGpuMemZero charSigned m gpuVa size w =
      countFrom (zeroTurn charSigned gpuVa size p) 0 size.toNat w :=
  bind_ok (panwrapDerefGpuMem_some 204 mmapFile hp)

theorem panwrapAssertGpuSame_returns_iff
    (hp : derefGpuMem w.tracker.mmaps m gpuVa size = some p) :
    (∃ w', panwrapAssertGpuSame charSigned m gpuVa size data w = .ok () w') ↔
      ∀ i < size.toNat, Accepted charSigned w.mem p data i := by
  rw [panwrapAssertGpuSame_eq hp]
  exact (Decides.checks sameTurn_decides _).returns_iff (SeesTrim.self w)

theorem panwrapAssertGpuSame_aborts_iff
    (hp : derefGpuMem w.tracker.mmaps m gpuVa size = some p)
    (hnot : ¬∀ i < size.toNat, Accepted charSigned w.mem p data i) :
    (∃ w', panwrapAssertGpuSame charSigned m gpuVa size data w = .error .assertFailed w') ↔
      Dumpable w.enableHexdumpTrimming w.mem data size ∧
        Dumpable w.enableHexdumpTrimming w.mem p size := by
  rw [panwrapAssertGpuSame_eq hp]
  have hloop : Decides (SeesTrim w.tracker w.mem w.enableHexdumpTrimming)
      (countFrom (sameTurn charSigned gpuVa size p data) 0 size.toNat)
      (∀ i < size.toNat, Accepted charSigned w.mem p data i) := Decides.checks sameTurn_decides _
  have hends : EndsWith .assertFailed (SeesTrim w.tracker w.mem w.enableHexdumpTrimming)
      (countFrom (sameTurn charSigned gpuVa size p data) 0 size.toNat)
      (¬(∀ i < size.toNat, Accepted charSigned w.mem p data i) →
        Dumpable w.enableHexdumpTrimming w.mem data size ∧
          Dumpable w.enableHexdumpTrimming w.mem p size) :=
    EndsWith.checks sameTurn_decides sameTurn_endsWith _
  rw [hends.error_iff hloop (SeesTrim.self w) hnot]
  exact ⟨fun h => h hnot, fun h _ => h⟩

theorem panwrapAssertGpuMemZero_returns_iff
    (hp : derefGpuMem w.tracker.mmaps m gpuVa size = some p) :
    (∃ w', panwrapAssertGpuMemZero charSigned m gpuVa size w = .ok () w') ↔
      ∀ i < size.toNat, w.mem (p + BitVec.ofNat 64 i) = 0 := by
  rw [panwrapAssertGpuMemZero_eq hp]
  exact (Decides.checks zeroTurn_decides _).returns_iff (SeesTrim.self w)

theorem accepted_iff : (∀ i < size.toNat, Accepted charSigned w.mem p data i) ↔
    SameBytes w.mem size p data ∧
      ∀ i < size.toNat, PlainByte charSigned (w.mem (p + BitVec.ofNat 64 i)) := by
  constructor
  · intro h
    exact ⟨fun i hi => (h i hi).1, fun i hi => (h i hi).2⟩
  · rintro ⟨hsame, hplain⟩ i hi
    exact ⟨hsame i hi, hplain i hi⟩

/-- What the assertions are there for, about the `size` bytes at `p`. -/
structure AssertsExactly (charSigned : Bool) (w : World) (m : Option PanwrapMappedMemory)
    (gpuVa size data p : U64) : Prop where
  same : (∃ w', panwrapAssertGpuSame charSigned m gpuVa size data w = .ok () w') ↔
    SameBytes w.mem size p data
  differs : ¬SameBytes w.mem size p data →
    ∃ w', panwrapAssertGpuSame charSigned m gpuVa size data w = .error .assertFailed w'
  zero : (∃ w', panwrapAssertGpuMemZero charSigned m gpuVa size w = .ok () w') ↔
    ∀ i < size.toNat, w.mem (p + BitVec.ofNat 64 i) = 0

/-- Bytes that are the same are plain ones, and others can be dumped. -/
structure AssertsPlainly (charSigned : Bool) (w : World) (size data p : U64) : Prop where
  same : SameBytes w.mem size p data →
    ∀ i < size.toNat, PlainByte charSigned (w.mem (p + BitVec.ofNat 64 i))
  differs : ¬SameBytes w.mem size p data → Dumpable w.enableHexdumpTrimming w.mem data size ∧
    Dumpable w.enableHexdumpTrimming w.mem p size

/-- The assertions fire on a difference, and on nothing else, if and only if no byte of equal ones
is beyond a plain `char`, and different ones are not too many for the dumps. -/
theorem memory_assertions_exact_iff (charSigned : Bool) (w : World)
    (m : Option PanwrapMappedMemory) (gpuVa size data p : U64)
    (hp : derefGpuMem w.tracker.mmaps m gpuVa size = some p) :
    AssertsExactly charSigned w m gpuVa size data p ↔
      AssertsPlainly charSigned w size data p := by
  have hreturns := (@panwrapAssertGpuSame_returns_iff charSigned w m gpuVa size data p hp).trans
    accepted_iff
  have haborts := @panwrapAssertGpuSame_aborts_iff charSigned w m gpuVa size data p hp
  -- both outcomes depend on the comparison of plain `char`s with octets
  rw [accepted_iff] at haborts
  constructor
  · rintro ⟨hsame, hdiffers, -⟩
    constructor
    · intro hbytes
      exact (hreturns.mp (hsame.mpr hbytes)).2
    · intro hbytes
      exact (haborts fun h => hbytes h.1).mp (hdiffers hbytes)
  · rintro ⟨hplain, hdumpable⟩
    constructor
    · rw [hreturns]
      exact ⟨fun h => h.1, fun h => ⟨h, hplain h⟩⟩
    · intro hbytes
      exact (haborts fun h => hbytes h.1).mpr (hdumpable hbytes)
    · exact panwrapAssertGpuMemZero_returns_iff hp

/-- A byte of the page and an expected one, both 0x80. -/
def highByte : World :=
  { World.plain.withMmaps [vertexPage] with
    mem := fun a => if a = 0x10000 then 0x80 else if a = 0x20000 then 0x80 else 0 }

theorem memory_assertions_exact_iff_highByte :
    AssertsExactly false highByte (some vertexPage) 0x10000 1 0x20000 0x10000 ↔
      AssertsPlainly false highByte 1 0x20000 0x10000 :=
  memory_assertions_exact_iff false highByte (some vertexPage) 0x10000 1 0x20000 0x10000
    (by decide)

/-- Where `char` is signed, a byte that is the expected one fires the assertion. -/
theorem equal_high_byte_aborts :
    ¬AssertsExactly true highByte (some vertexPage) 0x10000 1 0x20000 0x10000 := by
  rintro ⟨hsame, -, -⟩
  have hbytes : SameBytes highByte.mem 1 0x10000 0x20000 := by decide
  have hp : derefGpuMem highByte.tracker.mmaps (some vertexPage) 0x10000 1 = some 0x10000 := by
    decide
  have hreturns := (panwrapAssertGpuSame_returns_iff hp).mp (hsame.mpr hbytes)
  exact absurd (hreturns 0 (by decide)).2 (by decide)

end Claims
end Panloader
