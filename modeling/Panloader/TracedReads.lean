import Panloader.JobChains
import Panloader.SyncDumps
import Panloader.Translation

/-! What tracing a job reads. Every pointer that the decoder follows has been checked, so that
nothing but tracked memory is read, as long as addresses are translated correctly and the size in
an attribute record does not wrap the check around. -/
namespace Panloader
open Effects

set_option synthInstance.maxSize 4000

/-- The `n` bytes at `a` lie in the CPU range of a tracked mapping. -/
def InMapping (t : Tracker) (a : U64) (n : ℕ) : Prop :=
  ∃ m ∈ t.mmaps, (a - m.addr).toNat + n ≤ m.length.toNat

/-- What is read is in `P`, which is about an address and a number of bytes. -/
def Event.ReadsIn (P : U64 → ℕ → Prop) : Event → Prop
  | .load a n => P a n
  | _ => True

/-- All mappings have correct translations, and lie in the user half of the address space. -/
structure Tracker.Translates (t : Tracker) : Prop where
  symmetric : ∀ m ∈ t.mmaps, m.Symmetric
  low : ∀ m ∈ t.mmaps, m.gpuVa.toNat + m.length.toNat ≤ 2^63

/-- A mapping that is given for `gpuVa` is a tracked one, and `gpuVa` is not behind its end. -/
def GivenFor (t : Tracker) (mem : Option PanwrapMappedMemory) (gpuVa : U64) : Prop :=
  ∀ m, mem = some m → m ∈ t.mmaps ∧ (gpuVa - m.gpuVa).toNat ≤ m.length.toNat

section Addresses

variable {t : Tracker} {mem : Option PanwrapMappedMemory} {a gpuVa size p : U64} {k n : ℕ}

/-- A part of memory that is tracked as a whole. -/
theorem InMapping.part (h : InMapping t a k) (off : U64) (hoff : off.toNat + n ≤ k) :
    InMapping t (a + off) n := by
  obtain ⟨m, hm, hle⟩ := h
  have hlen := m.length.isLt
  have hsplit : a + off - m.addr = a - m.addr + off := by grind
  have hsum : (a + off - m.addr).toNat = (a - m.addr).toNat + off.toNat := by
    rw [hsplit, BitVec.toNat_add, Nat.mod_eq_of_lt (by omega)]
  exact ⟨m, hm, by omega⟩

theorem InMapping.start (h : InMapping t a k) (hn : n ≤ k) : InMapping t a n := by
  obtain ⟨m, hm, hle⟩ := h
  exact ⟨m, hm, by omega⟩

theorem givenFor_none : GivenFor t none gpuVa := by
  intro m h
  cases h

theorem givenFor_found (ht : t.Translates) :
    GivenFor t (panwrapFindMappedGpuMemContaining t.mmaps gpuVa) gpuVa := by
  intro m hfind
  have hm : m ∈ t.mmaps := List.mem_of_find?_eq_some hfind
  have hlow := ht.low m hm
  have hin := List.find?_some hfind
  rw [Bool.and_eq_true, decide_eq_true_iff, decide_eq_true_iff, BitVec.le_def, BitVec.le_def,
    BitVec.toNat_add, Nat.mod_eq_of_lt (by omega)] at hin
  have hoff := offset_above hin.1
  exact ⟨hm, by omega⟩

/-- Where a pointer is accepted, the access lies in the mapping that is used. -/
theorem deref_inside (ht : t.Translates) (hmem : GivenFor t mem gpuVa) (hsize : size.toNat < 2^63)
    (hp : derefGpuMem t.mmaps mem gpuVa size = some p) :
    ∃ m ∈ t.mmaps, usedMapping t.mmaps mem gpuVa = some m ∧
      (gpuVa - m.gpuVa).toNat + size.toNat ≤ m.length.toNat ∧ p = m.addr + (gpuVa - m.gpuVa) := by
  obtain ⟨m, hused, hrej, htrans⟩ := derefGpuMem_eq_some_iff.mp hp
  have hgiven : m ∈ t.mmaps ∧ (gpuVa - m.gpuVa).toNat ≤ m.length.toNat := by
    cases mem with
    | none => exact givenFor_found ht m hused
    | some n => exact hmem m hused
  have hlow := ht.low m hgiven.1
  have hsum := not_rejects_iff.mp hrej
  rw [Nat.mod_eq_of_lt (by omega)] at hsum
  refine ⟨m, hgiven.1, hused, by omega, ?_⟩
  rw [← htrans]
  exact (translate_eq_iff m gpuVa).mpr (ht.symmetric m hgiven.1)

theorem deref_inMapping (ht : t.Translates) (hmem : GivenFor t mem gpuVa)
    (hsize : size.toNat < 2^63) (hp : derefGpuMem t.mmaps mem gpuVa size = some p) :
    InMapping t p size.toNat := by
  obtain ⟨m, hm, -, hle, rfl⟩ := deref_inside ht hmem hsize hp
  have hback : m.addr + (gpuVa - m.gpuVa) - m.addr = gpuVa - m.gpuVa := by grind
  exact ⟨m, hm, by rwa [hback]⟩

/-- What comes after an accepted access is not behind the end of the mapping either. -/
theorem GivenFor.after (ht : t.Translates) (hmem : GivenFor t mem gpuVa) (hsize : size.toNat < 2^63)
    (hp : derefGpuMem t.mmaps mem gpuVa size = some p) : GivenFor t mem (gpuVa + size) := by
  rintro m rfl
  obtain ⟨m', hm', hused, hle, -⟩ := deref_inside ht hmem hsize hp
  obtain rfl : m = m' := Option.some.inj hused
  have hlen := m.length.isLt
  have hsplit : gpuVa + size - m.gpuVa = gpuVa - m.gpuVa + size := by grind
  refine ⟨hm', ?_⟩
  rw [hsplit, BitVec.toNat_add, Nat.mod_eq_of_lt (by omega)]
  exact hle

end Addresses

section Confined

variable {α β : Type} {P : U64 → ℕ → Prop} {t : Tracker} {mem : Memory} {start : List Event}
  {m m' : Wrap α} {f : α → Wrap β}

/-- All that was read after the events `start` is in `P`. -/
def ReadSince (P : U64 → ℕ → Prop) (start : List Event) (w : World) : Prop :=
  ∃ es, w.trace = start ++ es ∧ ∀ e ∈ es, e.ReadsIn P

/-- With the tracker `t` and the memory `mem`, `m` reads only what is in `P`, whatever its end. -/
def Confined (P : U64 → ℕ → Prop) (t : Tracker) (mem : Memory) (m : Wrap α) : Prop :=
  ∀ start, Ensures (fun w => Sees t mem w ∧ ReadSince P start w) m
    (fun _ w => Sees t mem w ∧ ReadSince P start w) fun _ => ReadSince P start

theorem Event.Untouching.readsIn {e : Event} (h : e.Untouching) : e.ReadsIn P := by
  cases e with
  | load => exact h.elim
  | hexdump | log | cont | clock | indent | real => trivial

theorem ReadSince.admits {w : World} (hm : Admits mem (Event.ReadsIn P) m)
    (hw : Sees t mem w) (hread : ReadSince P start w) : ReadSince P start (w.after m) := by
  obtain ⟨es, htrace, hes⟩ := hread
  obtain ⟨-, es', htrace', hes'⟩ := World.after_of_ensures (hm w) hw.mem
  refine ⟨es ++ es', ?_, ?_⟩
  · rw [htrace', htrace, List.append_assoc]
  · intro e he
    exact (List.mem_append.mp he).elim (hes e) (hes' e)

/-- A part that always returns. -/
theorem Confined.of_total [ht : Total (Sees t mem) m] (hm : Admits mem (Event.ReadsIn P) m) :
    Confined P t mem m := by
  rintro start w ⟨hw, hread⟩
  obtain ⟨a, u, hr, hu⟩ := ht.returns hw
  have hafter := hread.admits hm hw
  rw [World.after, hr] at hafter
  rw [hr]
  exact ⟨hu, hafter⟩

theorem Confined.eventsOf {w : World} (hm : Confined P t mem m) (hw : Sees t mem w) :
    ∀ e ∈ w.eventsOf m, e.ReadsIn P := by
  have hstart : Sees t mem w ∧ ReadSince P w.trace w :=
    ⟨hw, [], (List.append_nil _).symm, fun _ he => absurd he List.not_mem_nil⟩
  have hend : Ensures (fun u => u = w) m (fun _ => ReadSince P w.trace)
      fun _ => ReadSince P w.trace := by
    rintro _ rfl
    exact (hm _).mono (fun _ _ h => h.2) (fun _ _ h => h) _ hstart
  obtain ⟨es, htrace, hes⟩ := World.after_of_ensures hend
  rw [World.eventsOf_eq htrace]
  exact hes

theorem ReadSince.mono {Q : U64 → ℕ → Prop} {u w : World} (h : ∀ a n, P a n → Q a n)
    (hread : ReadSince Q start w) (hmore : ReadSince P w.trace u) : ReadSince Q start u := by
  obtain ⟨es, htrace, hes⟩ := hread
  obtain ⟨es', htrace', hes'⟩ := hmore
  refine ⟨es ++ es', ?_, fun e he => ?_⟩
  · rw [htrace', htrace, List.append_assoc]
  · rcases List.mem_append.mp he with he | he
    · exact hes e he
    · have hin := hes' e he
      cases e with
      | load a n => exact h a n hin
      | hexdump | log | cont | clock | indent | real => trivial

theorem Confined.mono {Q : U64 → ℕ → Prop} (hm : Confined P t mem m)
    (h : ∀ a n, P a n → Q a n) : Confined Q t mem m := by
  rintro start w ⟨hw, hread⟩
  apply (hm w.trace).mono _ _ w ⟨hw, [], (List.append_nil _).symm, _⟩
  · exact fun _ u hu => ⟨hu.1, hread.mono h hu.2⟩
  · exact fun _ u hu => hread.mono h hu
  · exact fun _ he => absurd he List.not_mem_nil

theorem Confined.quiet [Total (Sees t mem) m] [hm : Untouching m] : Confined P t mem m :=
  .of_total ((hm.events mem).mono fun _ h => h.readsIn)

theorem Confined.halt (h : Halt) : Confined P t mem (Panloader.halt h : Wrap α) :=
  fun _ _ hw => hw.2

theorem Confined.bind (hm : Confined P t mem m) (hf : ∀ a, Confined P t mem (f a)) :
    Confined P t mem (m >>= f) :=
  fun start => (hm start).bind fun a => hf a start

theorem Confined.seq [Total (Sees t mem) m] [Untouching m] (hf : ∀ a, Confined P t mem (f a)) :
    Confined P t mem (m >>= f) :=
  Confined.quiet.bind hf

theorem Confined.ite {c : Prop} [Decidable c] (hm : c → Confined P t mem m)
    (hm' : ¬c → Confined P t mem m') : Confined P t mem (if c then m else m') := by
  split_ifs with hc
  · exact hm hc
  · exact hm' hc

theorem Confined.load {n : ℕ} {a : U64} {f : BitVec (8*n) → Wrap β} (ha : P a n)
    (hf : Confined P t mem (f (mem.read a n))) : Confined P t mem (Panloader.load n a >>= f) := by
  intro start
  apply Ensures.bind_eq (v := mem.read a n)
    (Q := fun w => Sees t mem w ∧ ReadSince P start w)
  · rintro w ⟨hw, es, htrace, hes⟩
    refine ⟨by rw [← hw.mem], ⟨hw.tracker, hw.mem⟩, es ++ [.load a n], ?_, ?_⟩
    · exact (congrArg (· ++ [Event.load a n]) htrace).trans (List.append_assoc ..)
    · intro e he
      rcases List.mem_append.mp he with he | he
      · exact hes e he
      · rw [List.mem_singleton.mp he]
        exact ha
  · exact hf start

theorem Confined.findContaining {a : U64} {f : Option PanwrapMappedMemory → Wrap β}
    (hf : Confined P t mem (f (panwrapFindMappedGpuMemContaining t.mmaps a))) :
    Confined P t mem (Panloader.findContaining a >>= f) := by
  intro start
  apply Ensures.bind_eq (v := panwrapFindMappedGpuMemContaining t.mmaps a)
    (Q := fun w => Sees t mem w ∧ ReadSince P start w)
  · rintro w ⟨hw, hread⟩
    exact ⟨by rw [← hw.tracker], hw, hread⟩
  · exact hf start

instance untouching_indentReset : Untouching panwrapIndentReset where
  events _ := .of_event (e := fun _ => .indent 0) (fun _ => ⟨_, _, rfl, rfl, rfl⟩) fun _ => trivial

instance untouching_panwrapDerefMemErr (m : Option PanwrapMappedMemory) (gpuVa size : U64)
    (line : ℕ) (filename : String) :
    Untouching (panwrapDerefMemErr m gpuVa size line filename : Wrap α) := by
  cases m <;> unfold panwrapDerefMemErr logInvalidAccess logMappingInformation <;> infer_instance

theorem Confined.udiv {a b : U64} {f : U64 → Wrap β}
    (hf : b ≠ 0 → Confined P t mem (f (a / b))) : Confined P t mem (Panloader.udiv a b >>= f) := by
  intro start w hw
  by_cases hb : b = 0
  · have hstop : Panloader.udiv a b w = .error .divByZero w := by
      rw [Panloader.udiv, if_pos hb]
      rfl
    rw [bind_error hstop]
    exact hw.2
  · have hdiv : Panloader.udiv a b w = .ok (a / b) w := by
      rw [Panloader.udiv, if_neg hb]
      rfl
    rw [bind_ok hdiv]
    exact hf hb start w hw

/-- A pointer that is followed, if it is accepted. -/
theorem Confined.deref {m : Option PanwrapMappedMemory} {gpuVa size : U64} {line : ℕ}
    {filename : String} {f : U64 → Wrap β}
    (hf : ∀ p, derefGpuMem t.mmaps m gpuVa size = some p → Confined P t mem (f p)) :
    Confined P t mem (panwrapDerefGpuMem m gpuVa size line filename >>= f) := by
  rintro start w ⟨hw, hread⟩
  cases hp : derefGpuMem w.tracker.mmaps m gpuVa size with
  | none =>
    obtain ⟨e, u, hstop⟩ := panwrapDerefMemErr_error (α := U64)
      (usedMapping w.tracker.mmaps m gpuVa) gpuVa size line filename w
    have hreport : Untouching (panwrapDerefMemErr (usedMapping w.tracker.mmaps m gpuVa) gpuVa size
        line filename : Wrap U64) := inferInstance
    have hafter := hread.admits ((hreport.events mem).mono fun _ h => h.readsIn) hw
    rw [World.after, hstop] at hafter
    rw [bind_error ((panwrapDerefGpuMem_none line filename hp).trans hstop)]
    exact hafter
  | some p =>
    rw [bind_ok (panwrapDerefGpuMem_some line filename hp)]
    rw [hw.tracker] at hp
    exact hf p hp start w ⟨hw, hread⟩

theorem Confined.countFrom {body : ℕ → Wrap Unit} {i n : ℕ}
    (hbody : ∀ l < i+n, Confined P t mem (body l)) :
    Confined P t mem (Effects.countFrom body i n) := by
  induction n generalizing i with
  | zero => exact fun _ _ hw => hw
  | succ n ih =>
    apply (hbody i (by omega)).bind
    intro _
    apply ih
    intro l hl
    exact hbody l (by omega)

theorem Confined.forInt {body : ℕ → Wrap Unit} {n : ℕ}
    (hbody : ∀ i < n, Confined P t mem (body i)) : Confined P t mem (forInt n body) := by
  apply Confined.countFrom
  intro i hi
  apply (hbody i (by omega)).bind
  intro _
  exact Confined.ite (fun _ => Confined.halt _) fun _ => Confined.quiet

end Confined

/-- An attribute record that is named by the list from `p` on, as far as it is followed. -/
inductive ListNames (t : Tracker) (mem : Memory) (v : U64) (attrMem : Option PanwrapMappedMemory)
    (attr : U64) : U64 → Prop
  | entry {p attrMeta : U64} : derefGpuMem t.mmaps attrMem p sizeofMappedMemory = some attrMeta →
      derefGpuMem t.mmaps none (mem.read (v + 96) 8 + (mem.read attrMeta 8 &&& 0xff))
        sizeofVertexTilerAttr = some attr → ListNames t mem v attrMem attr p
  | next {p : U64} : EntryFollowed t mem attrMem p → ListNames t mem v attrMem attr (p + 8) →
      ListNames t mem v attrMem attr p

/-- An attribute record that the vertex or tiler payload at `payload` names. -/
def PayloadNames (t : Tracker) (mem : Memory) (m : Option PanwrapMappedMemory)
    (payload attr : U64) : Prop :=
  ∃ v, derefGpuMem t.mmaps m payload sizeofPayloadVertexTiler = some v ∧
    mem.read (v + 104) 8 ≠ 0 ∧
    ListNames t mem v (panwrapFindMappedGpuMemContaining t.mmaps (mem.read (v + 104) 8)) attr
      (mem.read (v + 104) 8)

/-- An attribute record that the job at `jc` names. -/
def JobNames (t : Tracker) (mem : Memory) (jc attr : U64) : Prop :=
  ∃ h, derefGpuMem t.mmaps (panwrapFindMappedGpuMemContaining t.mmaps jc) jc
      sizeofJobDescriptorHeader = some h ∧
    (mem.read (h + 16) 1 >>> 1 = jobTypeTiler ∨ mem.read (h + 16) 1 >>> 1 = jobTypeVertex) ∧
    PayloadNames t mem (panwrapFindMappedGpuMemContaining t.mmaps jc)
      (jc + sizeofJobDescriptorHeader) attr

section Decoders

variable {t : Tracker} {mem : Memory} {v : U64} {attrMem : Option PanwrapMappedMemory}

theorem confined_dump {data size : U64} [Total (Sees t mem) (panwrapLogHexdump data size)]
    (hdata : InMapping t data size.toNat) :
    Confined (InMapping t) t mem (panwrapLogHexdump data size) := by
  apply Confined.of_total
  apply (panwrapLogHexdump_reads (Nat.le_refl _)).mono
  intro e he
  cases e with
  | load a n =>
    obtain ⟨rfl, i, hi, rfl⟩ := he
    have hlt := size.isLt
    apply hdata.part
    rw [BitVec.toNat_ofNat, Nat.mod_eq_of_lt (by omega)]
    omega
  | hexdump | log | cont | clock | indent | real => trivial

theorem confined_attributeRow {buffer count : U64}
    (hbuffer : InMapping t buffer (4 * count.toNat)) :
    Confined (InMapping t) t mem (logAttributeRow buffer count) := by
  unfold logAttributeRow
  apply Confined.seq
  intro _
  apply Confined.bind
  · apply Confined.forInt
    intro i hi
    have hoff : (4 * BitVec.ofNat 64 i : U64).toNat = 4 * i := by
      obtain ⟨m, -, hle⟩ := hbuffer
      have hlen := m.length.isLt
      have hfour : (4 : U64).toNat = 4 := rfl
      rw [BitVec.toNat_mul, BitVec.toNat_ofNat, hfour, Nat.mod_eq_of_lt (by omega : i < 2^64),
        Nat.mod_eq_of_lt (by omega)]
    apply Confined.load (hbuffer.part _ (by omega))
    exact Confined.quiet
  · intro _
    exact Confined.quiet

theorem confined_attributes (ht : t.Translates) {addr : U64}
    (hsize : ∀ attr, derefGpuMem t.mmaps none addr sizeofVertexTilerAttr = some attr →
      (mem.read (attr + 16) 8).toNat < 2^63) :
    Confined (InMapping t) t mem (panwrapDecodeAttributes none addr) := by
  unfold panwrapDecodeAttributes
  apply Confined.deref
  intro attr hattr
  have hin := deref_inMapping ht givenFor_none (by decide) hattr
  apply Confined.load (hin.start (by decide))
  apply Confined.load (hin.part 16 (by decide))
  apply Confined.deref
  intro buffer hbuffer
  have hbuf := deref_inMapping ht givenFor_none (hsize attr hattr) hbuffer
  apply Confined.load (hin.part 8 (by decide))
  generalize mem.read (attr + 16) 8 = size at hbuf
  generalize mem.read (attr + 8) 8 = stride
  apply Confined.udiv
  intro hstride
  apply Confined.udiv
  intro _
  apply Confined.seq
  intro _
  apply Confined.seq
  intro _
  apply Confined.bind
  · apply Confined.forInt
    intro row hrow
    apply confined_attributeRow
    -- where there is a row, it is no longer than the buffer
    have hle : stride.toNat ≤ size.toNat := by
      by_contra hlt
      rw [BitVec.toNat_udiv, Nat.div_eq_of_lt (by omega)] at hrow
      exact absurd hrow (Nat.not_lt_zero row)
    apply hbuf.start
    have hfour : (4 : U64).toNat = 4 := rfl
    rw [BitVec.toNat_udiv, hfour]
    omega
  · intro _
    exact Confined.quiet

theorem confined_attributeEntry (ht : t.Translates) (hv : InMapping t v 304) {p : U64}
    (hp : GivenFor t attrMem p)
    (hsizes : ∀ attr, ListNames t mem v attrMem attr p → (mem.read (attr + 16) 8).toNat < 2^63) :
    Confined (InMapping t) t mem (decodeAttributeEntry v attrMem p) := by
  unfold decodeAttributeEntry
  apply Confined.deref
  intro attrMeta hmeta
  have hin := deref_inMapping ht hp (by decide) hmeta
  apply Confined.load (hin.start (by decide))
  iterate 3
    apply Confined.seq
    intro _
  apply Confined.load (hv.part 96 (by decide))
  apply Confined.bind
  · apply confined_attributes ht
    intro attr hattr
    exact hsizes attr (.entry hmeta hattr)
  · intro _
    exact Confined.quiet

theorem confined_attributeList (ht : t.Translates) (hv : InMapping t v 304) (n : ℕ) {p : U64}
    (hp : GivenFor t attrMem p)
    (hsizes : ∀ attr, ListNames t mem v attrMem attr p → (mem.read (attr + 16) 8).toNat < 2^63) :
    Confined (InMapping t) t mem (decodeAttributeList v attrMem n p) := by
  induction n generalizing p with
  | zero => exact Confined.halt _
  | succ n ih =>
    apply Confined.deref
    intro entry hentry
    have hin := deref_inMapping ht hp (by decide) hentry
    apply Confined.load (hin.start (by decide))
    apply Confined.ite
    · intro hne
      apply (confined_attributeEntry ht hv hp hsizes).bind
      intro _
      apply ih (hp.after ht (by decide) hentry)
      intro attr hattr
      exact hsizes attr (.next ⟨entry, hentry, hne⟩ hattr)
    · intro _
      exact Confined.quiet

theorem confined_shaderSection (ht : t.Translates) (metaPtr : U64) :
    Confined (InMapping t) t mem (decodeShaderSection metaPtr) := by
  apply Confined.ite
  · intro _
    apply Confined.deref
    intro shaderMeta hmeta
    have hin := deref_inMapping ht givenFor_none (by decide) hmeta
    apply Confined.seq
    intro _
    apply Confined.seq
    intro _
    apply Confined.load (hin.start (by decide))
    apply Confined.deref
    intro blob hblob
    apply (confined_dump (deref_inMapping ht givenFor_none (by decide) hblob)).bind
    intro _
    exact Confined.quiet
  · intro _
    exact Confined.quiet

theorem confined_vertexOrTilerJob (ht : t.Translates) (jobType : U8)
    {m : Option PanwrapMappedMemory} {payload : U64} (hpayload : GivenFor t m payload)
    (hsizes : ∀ attr, PayloadNames t mem m payload attr → (mem.read (attr + 16) 8).toNat < 2^63) :
    Confined (InMapping t) t mem (panwrapDecodeVertexOrTilerJob jobType m payload) := by
  unfold panwrapDecodeVertexOrTilerJob
  apply Confined.deref
  intro v hderef
  have hv : InMapping t v 304 := deref_inMapping ht hpayload (by decide) hderef
  apply Confined.load (hv.part 88 (by decide))
  apply Confined.seq
  intro _
  apply Confined.load (hv.part 104 (by decide))
  apply Confined.findContaining
  iterate 3
    apply Confined.seq
    intro _
  apply (confined_dump (hv.start (by decide))).bind
  intro _
  apply Confined.seq
  intro _
  apply (confined_shaderSection ht _).bind
  intro _
  apply Confined.bind
  · apply Confined.ite
    · intro hne
      have hlist : Confined (InMapping t) t mem (decodeAttributeList v
          (panwrapFindMappedGpuMemContaining t.mmaps (mem.read (v + 104) 8)) attributeListPeriod
          (mem.read (v + 104) 8)) := by
        apply confined_attributeList ht hv _ (givenFor_found ht)
        intro attr hattr
        exact hsizes attr ⟨v, hderef, hne, hattr⟩
      apply Confined.seq
      intro _
      apply Confined.seq
      intro _
      apply hlist.bind
      intro _
      exact Confined.quiet
    · intro _
      exact Confined.quiet
  · intro _
    apply Confined.seq
    intro _
    apply Confined.seq
    intro _
    apply (confined_dump (hv.part 160 (by decide))).bind
    intro _
    exact Confined.quiet

theorem confined_payload (ht : t.Translates) (jobType : U8) {m : Option PanwrapMappedMemory}
    {payload : U64} (hpayload : GivenFor t m payload)
    (hsizes : jobType = jobTypeTiler ∨ jobType = jobTypeVertex →
      ∀ attr, PayloadNames t mem m payload attr → (mem.read (attr + 16) 8).toNat < 2^63) :
    Confined (InMapping t) t mem (decodePayload jobType m payload) := by
  apply Confined.ite
  · intro _
    apply Confined.deref
    intro s hderef
    have hin := deref_inMapping ht hpayload (by decide) hderef
    apply Confined.load (hin.start (by decide))
    apply Confined.load (hin.part 8 (by decide))
    exact Confined.quiet
  · intro _
    apply Confined.ite
    · intro htype
      exact confined_vertexOrTilerJob ht jobType hpayload (hsizes htype)
    · intro _
      apply Confined.seq
      intro _
      apply Confined.seq
      intro _
      apply Confined.deref
      intro p hderef
      apply (confined_dump (deref_inMapping ht hpayload (by decide) hderef)).bind
      intro _
      exact Confined.quiet

instance untouching_panwrapJobTypeName (type : U8) : Untouching (panwrapJobTypeName type) := by
  unfold panwrapJobTypeName
  infer_instance

theorem confined_chain (ht : t.Translates) {jc : U64}
    (hsizes : ∀ attr, JobNames t mem jc attr → (mem.read (attr + 16) 8).toNat < 2^63) :
    Confined (InMapping t) t mem (panwrapTraceHwChain jc) := by
  unfold panwrapTraceHwChain
  apply Confined.findContaining
  apply Confined.deref
  intro h hderef
  have hin := deref_inMapping ht (givenFor_found ht) (by decide) hderef
  have hpayload := (givenFor_found ht).after ht (by decide) hderef
  apply Confined.load (hin.part 16 (by decide))
  apply Confined.seq
  intro name
  apply Confined.load (hin.start (by decide))
  apply Confined.load (hin.part 4 (by decide))
  apply Confined.seq
  intro _
  apply Confined.load (hin.part 8 (by decide))
  apply Confined.load (hin.part 17 (by decide))
  apply Confined.load (hin.part 18 (by decide))
  apply Confined.seq
  intro _
  apply Confined.load (hin.part 20 (by decide))
  apply Confined.load (hin.part 22 (by decide))
  apply Confined.seq
  intro _
  apply Confined.seq
  intro _
  apply Confined.bind
  · apply confined_payload ht _ hpayload
    intro htype attr hattr
    exact hsizes attr ⟨h, hderef, htype, hattr⟩
  · intro _
    exact Confined.quiet

end Decoders

theorem Run.translates {enableTimestamps enableHexdumpTrimming : Bool}
    {clock : ℕ → Timespec} {steps : List Step} {w : World}
    (hrun : Run (World.initial enableTimestamps enableHexdumpTrimming clock) steps w)
    (hsame : ∀ m ∈ w.tracker.mmaps, m.flags &&& maliMemSameVa ≠ 0 ∨ m.Symmetric)
    (hlow : ∀ m ∈ w.tracker.mmaps, m.gpuVa.toNat + m.length.toNat ≤ 2^63) :
    w.tracker.Translates := by
  refine ⟨fun m hm => ?_, hlow⟩
  rcases hsame m hm with hflag | hsym
  · exact .inl (hrun.sameVa m hm hflag)
  · exact hsym

/-- In every reachable state in which addresses are translated correctly, and for all contents of
memory, tracing a job reads nothing but tracked memory, whatever its end, as long as the size in
each attribute record that the job names is below 2^63. -/
theorem chain_reads_mapped {enableTimestamps enableHexdumpTrimming : Bool}
    {clock : ℕ → Timespec} {steps : List Step} {w : World}
    (hrun : Run (World.initial enableTimestamps enableHexdumpTrimming clock) steps w)
    (hsame : ∀ m ∈ w.tracker.mmaps, m.flags &&& maliMemSameVa ≠ 0 ∨ m.Symmetric)
    (hlow : ∀ m ∈ w.tracker.mmaps, m.gpuVa.toNat + m.length.toNat ≤ 2^63) (mem : Memory) (jc : U64)
    (hsizes : ∀ attr, JobNames w.tracker mem jc attr → (mem.read (attr + 16) 8).toNat < 2^63) :
    ∀ a n, .load a n ∈ World.eventsOf { w with mem := mem } (panwrapTraceHwChain jc) →
      ∃ m ∈ w.tracker.mmaps, (a - m.addr).toNat + n ≤ m.length.toNat := by
  have ht := hrun.translates hsame hlow
  intro a n hload
  have hsees : Sees w.tracker mem { w with mem := mem } := ⟨rfl, rfl⟩
  exact (confined_chain ht hsizes).eventsOf hsees _ hload

/-- A page that the GPU has at its CPU address. -/
def lowPage : PanwrapMappedMemory := ⟨0x1000, 0x1000, 0x1000, 3, 0⟩

theorem lowPage_run : ∃ steps w, Run World.plain steps w ∧ w.tracker = ⟨[], [lowPage]⟩ ∧
    (∀ m ∈ w.tracker.mmaps, m.flags &&& maliMemSameVa ≠ 0 ∨ m.Symmetric) ∧
    ∀ m ∈ w.tracker.mmaps, m.gpuVa.toNat + m.length.toNat ≤ 2^63 := by
  have htracker : World.plain.trackerAfter [openMali, allocCookie, mapCookie 0x1000] =
      some ⟨[], [lowPage]⟩ := by decide +kernel
  obtain ⟨steps, w, hrun, ht⟩ := Run.of_calls htracker
  have ht : w.tracker = ⟨[], [lowPage]⟩ := ht
  refine ⟨steps, w, hrun, ht, ?_, ?_⟩
  · rw [ht]
    intro m hm
    obtain rfl : m = lowPage := List.mem_singleton.mp hm
    exact .inr (.inl rfl)
  · rw [ht]
    decide

/-- A vertex job at 0x1000 with neither shader nor attributes. -/
def bareVertexJob : Memory := fun a => if a = 0x1010 then 10 else 0

/-- The job names no attribute record. -/
theorem bareVertexJob_names (attr : U64) :
    ¬JobNames ⟨[], [lowPage]⟩ bareVertexJob 0x1000 attr := by
  rintro ⟨-, -, -, v, hv, hne, -⟩
  obtain rfl : 0x1020 = v := Option.some.inj hv
  exact absurd hne (by decide)

/-- A vertex job at 0x1000 whose attribute list, at 0x1200, has one entry, with index 0. The record,
at 0x1400, names a buffer of two elements, 16 bytes each, at 0x1800. -/
def attributeVertexJob : Memory := fun a =>
  if a = 0x1010 then 10 else if a = 0x1081 then 0x14 else if a = 0x1089 then 0x12
  else if a = 0x1201 then 1 else if a = 0x1401 then 0x18 else if a = 0x1408 then 16
  else if a = 0x1410 then 32 else 0

/-- The record at index 0 of `attributes` is accepted. -/
theorem attributeVertexJob_record {p : U64} (hindex : attributeVertexJob.read p 8 &&& 0xff = 0) :
    derefGpuMem [lowPage] none
      (attributeVertexJob.read (0x1020 + 96) 8 + (attributeVertexJob.read p 8 &&& 0xff))
      sizeofVertexTilerAttr = some 0x1400 := by
  have hbase : attributeVertexJob.read (0x1020 + 96) 8 = 0x1400 := by decide +kernel
  rw [hindex, hbase]
  decide

theorem attributeVertexJob_names_iff (attr : U64) :
    JobNames ⟨[], [lowPage]⟩ attributeVertexJob 0x1000 attr ↔ attr = 0x1400 := by
  have hlist : attributeVertexJob.read (0x1020 + 104) 8 = 0x1200 := by decide +kernel
  have hindex : attributeVertexJob.read 0x1200 8 &&& 0xff = 0 := by decide +kernel
  have hstop : attributeVertexJob.read 0x1208 8 = 0 := by decide +kernel
  constructor
  · rintro ⟨-, -, -, v, hv, -, hnames⟩
    obtain rfl : 0x1020 = v := Option.some.inj hv
    rw [hlist] at hnames
    cases hnames with
    | @entry _ attrMeta hmeta hattr =>
      obtain rfl : 0x1200 = attrMeta := Option.some.inj hmeta
      exact (Option.some.inj ((attributeVertexJob_record hindex).symm.trans hattr)).symm
    | next _ hnames =>
      cases hnames with
      | @entry _ attrMeta hmeta hattr =>
        obtain rfl : 0x1208 = attrMeta := Option.some.inj hmeta
        have hzero : attributeVertexJob.read 0x1208 8 &&& 0xff = 0 := by
          rw [hstop]
          rfl
        exact (Option.some.inj ((attributeVertexJob_record hzero).symm.trans hattr)).symm
      | next hfollowed _ =>
        -- the second entry is zero
        obtain ⟨entry, hentry, hne⟩ := hfollowed
        obtain rfl : 0x1208 = entry := Option.some.inj hentry
        exact absurd hstop hne
  · rintro rfl
    have htype : attributeVertexJob.read (0x1000 + 16) 1 >>> 1 = jobTypeVertex := by
      decide +kernel
    have hmeta : derefGpuMem [lowPage] (panwrapFindMappedGpuMemContaining [lowPage] 0x1200) 0x1200
        sizeofMappedMemory = some 0x1200 := by decide
    refine ⟨0x1000, by decide, .inr htype, 0x1020, by decide, by rw [hlist]; decide, ?_⟩
    rw [hlist]
    exact .entry hmeta (attributeVertexJob_record hindex)

theorem chain_reads_mapped_vertex : ∃ steps w, Run World.plain steps w ∧
    JobNames w.tracker attributeVertexJob 0x1000 0x1400 ∧
    ∀ a n, .load a n ∈ World.eventsOf { w with mem := attributeVertexJob }
        (panwrapTraceHwChain 0x1000) → (a - 0x1000).toNat + n ≤ 0x1000 := by
  obtain ⟨steps, w, hrun, ht, hsame, hlow⟩ := lowPage_run
  have hnames (attr : U64) : JobNames w.tracker attributeVertexJob 0x1000 attr ↔ attr = 0x1400 := by
    rw [ht]
    exact attributeVertexJob_names_iff attr
  have hsizes : ∀ attr, JobNames w.tracker attributeVertexJob 0x1000 attr →
      (attributeVertexJob.read (attr + 16) 8).toNat < 2^63 := by
    intro attr hattr
    rw [(hnames attr).mp hattr]
    decide +kernel
  refine ⟨steps, w, hrun, (hnames 0x1400).mpr rfl, fun a n hload => ?_⟩
  obtain ⟨m, hm, hle⟩ :=
    chain_reads_mapped hrun hsame hlow attributeVertexJob 0x1000 hsizes a n hload
  rw [ht] at hm
  rw [List.mem_singleton.mp hm] at hle
  exact hle

end Panloader
