import Panloader.EventsAll

/-! The dump of the GPU's properties: which members of the struct it reads, and that what it
prints has a value. -/
namespace Panloader
open Effects

set_option synthInstance.maxSize 4000

/-- A member of `struct mali_ioctl_gpu_props_reg_dump`, or an element of an array in it: offset
and size. -/
abbrev Field := U64 × ℕ

def maliMaxCoherentGroups : ℕ := 16

/-- `core` at 8, `l2` at 56, `tiler` at 72, `thread` at 80, `raw` at 104 and the first members of
`coherency_info` at 264. -/
def gpuPropsMembers : List Field :=
  [(8, 4), (12, 2), (14, 2), (16, 2), (20, 4), (24, 4), (28, 4), (32, 4), (48, 8)] ++
    [(56, 1), (57, 1), (58, 1)] ++ [(72, 4), (76, 4)] ++
    [(80, 4), (84, 4), (88, 4), (92, 2), (94, 1), (95, 1), (96, 1)] ++
    [(104, 8), (112, 8), (120, 8), (128, 8), (136, 4), (140, 4), (144, 4), (148, 4), (152, 4),
      (156, 4), (224, 4), (240, 4), (244, 4), (248, 4), (252, 4), (256, 4), (260, 4)] ++
    [(264, 4), (268, 4), (272, 4)]

/-- The elements of an array, or one member of each of them: `count` of them, `stride` bytes
apart. -/
def elements (offset stride : U64) (size count : ℕ) : List Field :=
  (List.range count).map fun i => (offset + stride * BitVec.ofNat 64 i, size)

/-- `core.texture_features`, `raw.js_features` and `coherency_info.group`. -/
def gpuPropsElements : List Field :=
  elements 36 4 4 3 ++ elements 160 4 4 16 ++ elements 280 16 8 maliMaxCoherentGroups ++
    elements 288 16 2 maliMaxCoherentGroups

def gpuPropsFields : List Field := gpuPropsMembers ++ gpuPropsElements

/-- A read of the struct at `ptr` is one of these members, and a value that is printed is
defined. -/
def Event.Proper (ptr : U64) (fields : List Field) : Event → Prop
  | .load a n => (a - ptr, n) ∈ fields
  | .log _ _ _ args => .stray ∉ args
  | .cont _ args => .stray ∉ args
  | _ => True

theorem Event.Proper.mono {ptr : U64} {F G : List Field} {e : Event} (h : e.Proper ptr F)
    (hFG : ∀ x ∈ F, x ∈ G) : e.Proper ptr G := by
  cases e with
  | load a n => exact hFG _ h
  | log | cont => exact h
  | clock | indent | hexdump | real => trivial

/-- Whatever its end, `m` reads no other members, and prints defined values only. -/
class ReadsFields (mem : Memory) (ptr : U64) {α : Type} (m : Wrap α) (F : outParam (List Field)) :
    Prop where
  reads : Admits mem (Event.Proper ptr F) m

/-- `a` lies `k` bytes behind `ptr`. -/
class Offset (ptr a : U64) (k : outParam U64) : Prop where
  eq : a - ptr = k

class Defined (args : List Arg) : Prop where
  none : .stray ∉ args

section Rules

variable {α β : Type} {mem : Memory} {ptr : U64} {m m' : Wrap α} {f : α → Wrap β}
  {F G : List Field} {j n : ℕ} {k : U64}

theorem ReadsFields.mono [hm : ReadsFields mem ptr m F] (hFG : ∀ x ∈ F, x ∈ G) :
    ReadsFields mem ptr m G where
  reads := hm.reads.mono fun _ h => h.mono hFG

theorem ReadsFields.bind (hm : ReadsFields mem ptr m F) (hf : ∀ a, ReadsFields mem ptr (f a) F) :
    ReadsFields mem ptr (m >>= f) F where
  reads := hm.reads.bind fun a => (hf a).reads

instance fields_bind [hm : ReadsFields mem ptr m F] [hf : ∀ a, ReadsFields mem ptr (f a) G] :
    ReadsFields mem ptr (m >>= f) (F ++ G) :=
  (hm.mono fun _ => List.mem_append_left G).bind fun a =>
    (hf a).mono fun _ => List.mem_append_right F

theorem ReadsFields.seq [hm : ReadsFields mem ptr m F] (hFG : ∀ x ∈ F, x ∈ G)
    (hf : ∀ a, ReadsFields mem ptr (f a) G) : ReadsFields mem ptr (m >>= f) G :=
  (hm.mono hFG).bind hf

instance fields_load (a : U64) [ha : Offset ptr a k] :
    ReadsFields mem ptr (load n a) [(k, n)] where
  reads := by
    apply Admits.read
    rw [Event.Proper, ha.eq]
    exact List.mem_singleton.mpr rfl

instance fields_load8 (a : U64) [Offset ptr a k] : ReadsFields mem ptr (load8 a) [(k, 1)] :=
  fields_load a
instance fields_load16 (a : U64) [Offset ptr a k] : ReadsFields mem ptr (load16 a) [(k, 2)] :=
  fields_load a
instance fields_load32 (a : U64) [Offset ptr a k] : ReadsFields mem ptr (load32 a) [(k, 4)] :=
  fields_load a
instance fields_load64 (a : U64) [Offset ptr a k] : ReadsFields mem ptr (load64 a) [(k, 8)] :=
  fields_load a

theorem ReadsFields.load {a : U64} [ha : Offset ptr a k] {f : BitVec (8*j) → Wrap β}
    (hk : (k, j) ∈ F) (hf : ReadsFields mem ptr (f (mem.read a j)) F) :
    ReadsFields mem ptr (Panloader.load j a >>= f) F where
  reads := by
    apply Admits.load ?_ hf.reads
    rw [Event.Proper, ha.eq]
    exact hk

instance fields_log (format : String) (args : List Arg) [h : Defined args] :
    ReadsFields mem ptr (panwrapLog format args) [] where
  reads := .log (fun _ => trivial) fun _ _ => h.none

instance fields_indentIncr : ReadsFields mem ptr panwrapIndentIncr [] where
  reads := .of_event (e := fun w => .indent (w.panwrapIndent+1)) (fun _ => ⟨_, _, rfl, rfl, rfl⟩)
    fun _ => trivial

instance fields_indentDecr : ReadsFields mem ptr panwrapIndentDecr [] where
  reads := .of_event (e := fun w => .indent (w.panwrapIndent-1)) (fun _ => ⟨_, _, rfl, rfl, rfl⟩)
    fun _ => trivial

theorem ReadsFields.forInt {body : ℕ → Wrap Unit} {c : ℕ}
    (hbody : ∀ i < c, ReadsFields mem ptr (body i) F) :
    ReadsFields mem ptr (forInt c body) F where
  reads := .forInt fun i hi => (hbody i hi).reads

end Rules

section Arguments

variable {ptr : U64}

instance offset_self : Offset ptr ptr 0 where
  eq := BitVec.sub_self ptr

instance offset_add {a c k : U64} [ha : Offset ptr a k] : Offset ptr (a + c) (k + c) where
  eq := by
    have hsplit : a + c - ptr = a - ptr + c := by grind
    rw [hsplit, ha.eq]

instance defined_nil : Defined [] where
  none := List.not_mem_nil

theorem Defined.cons {x : Arg} {args : List Arg} [h : Defined args] (hx : x ≠ .stray) :
    Defined (x :: args) where
  none he := (List.mem_cons.mp he).elim (fun he => hx he.symm) h.none

variable (args : List Arg) [Defined args]

instance defined_int (n : ℤ) : Defined (.int n :: args) := .cons fun h => nomatch h
instance defined_u32 (v : U32) : Defined (.u32 v :: args) := .cons fun h => nomatch h
instance defined_u64 (v : U64) : Defined (.u64 v :: args) := .cons fun h => nomatch h
instance defined_str (s : String) : Defined (.str s :: args) := .cons fun h => nomatch h
instance defined_pow2 (n d : ℕ) : Defined (.pow2 n d :: args) := .cons fun h => nomatch h

instance defined_yesNo {n : ℕ} (b : BitVec n) : Defined (yesNo b :: args) := defined_str args _

end Arguments

section Decoder

variable {mem : Memory} {ptr : U64}

theorem mem_elements {offset stride : U64} {size count i : ℕ} (hi : i < count) :
    (offset + stride * BitVec.ofNat 64 i, size) ∈ elements offset stride size count :=
  List.mem_map.mpr ⟨i, List.mem_range.mpr hi, rfl⟩

instance fields_logCoreProps : ReadsFields mem ptr (logCoreProps (ptr + 8)) gpuPropsFields := by
  have hloop : ReadsFields mem ptr (forInt 3 fun i => do
      panwrapLog "%010x\n" [.u32 (← load32 (ptr + 8 + 28 + 4 * BitVec.ofNat 64 i))])
      (elements (0 + 8 + 28) 4 4 3) := by
    apply ReadsFields.forInt
    intro i hi
    exact ReadsFields.mono (by simp [mem_elements hi])
  unfold logCoreProps
  exact ReadsFields.mono (by decide)

instance fields_logL2Props : ReadsFields mem ptr (logL2Props (ptr + 56)) gpuPropsFields := by
  unfold logL2Props
  exact ReadsFields.mono (by decide)

instance fields_logTilerProps :
    ReadsFields mem ptr (logTilerProps (ptr + 72)) gpuPropsFields := by
  unfold logTilerProps
  exact ReadsFields.mono (by decide)

theorem logThreadProps_fields {implementation : Arg} (himplementation : implementation ≠ .stray) :
    ReadsFields mem ptr (logThreadProps (ptr + 80) implementation) gpuPropsFields := by
  have hdefined : Defined [implementation] := .cons himplementation
  unfold logThreadProps
  exact ReadsFields.mono (by decide)

instance fields_logRawProps : ReadsFields mem ptr (logRawProps (ptr + 104)) gpuPropsFields := by
  have hloop : ReadsFields mem ptr (forInt 16 fun i => do
      panwrapLog "\t\t\t%010x\n" [.u32 (← load32 (ptr + 104 + 56 + 4 * BitVec.ofNat 64 i))])
      (elements (0 + 104 + 56) 4 4 16) := by
    apply ReadsFields.forInt
    intro i hi
    exact ReadsFields.mono (by simp [mem_elements hi])
  unfold logRawProps
  exact ReadsFields.mono (by decide)

/-- The struct has room for the groups that are counted. -/
theorem logCoherencyInfo_fields
    (hgroups : (mem.read (ptr + 264) 4).toNat ≤ maliMaxCoherentGroups) :
    ReadsFields mem ptr (logCoherencyInfo (ptr + 264)) gpuPropsFields := by
  have hloop : ReadsFields mem ptr (forInt (mem.read (ptr + 264) 4).toNat fun i => do
      let group := ptr + 264 + 16 + 16 * BitVec.ofNat 64 i
      panwrapLog "- Core mask: %010lx\n" [.u64 (← load64 group)]
      panwrapLog "  Number of cores: %d\n" [.int (← load16 (group + 8)).toNat])
      gpuPropsFields := by
    apply ReadsFields.forInt
    intro i hi
    have hlast : i < maliMaxCoherentGroups := by omega
    have hmask : (280#64 + 16#64 * BitVec.ofNat 64 i, 8) ∈ elements 280#64 16#64 8 _ :=
      mem_elements hlast
    have hcores : (288#64 + 16#64 * BitVec.ofNat 64 i, 2) ∈ elements 288#64 16#64 2 _ :=
      mem_elements hlast
    have hbehind : 280#64 + 16#64 * BitVec.ofNat 64 i + 8#64
        = 288#64 + 16#64 * BitVec.ofNat 64 i := by
      grind
    apply ReadsFields.mono
    simp [gpuPropsFields, gpuPropsElements, hmask, hcores, hbehind]
  unfold logCoherencyInfo
  apply ReadsFields.seq (by decide)
  intro _
  apply ReadsFields.seq (by decide)
  intro _
  -- what is read decides how many groups there are
  apply ReadsFields.load (by decide)
  exact ReadsFields.mono (by decide)

/-- The value of the 8-bit tag is one that the switch has a name for. -/
theorem implementationName_ne_stray {implTech : U8} (h : implTech.toNat < 4) :
    implementationName implTech ≠ .stray := by
  unfold implementationName
  split_ifs with h0 h1 h2 h3
  case neg => exact absurd h (by bv_omega)
  all_goals exact fun hstray => nomatch hstray

theorem implementationName_stray {implTech : U8} (h : 4 ≤ implTech.toNat) :
    implementationName implTech = .stray := by
  unfold implementationName
  rw [if_neg, if_neg, if_neg, if_neg]
  all_goals bv_omega

/-- The struct counts no more groups than it has, and its tag has a name. -/
structure PropsInRange (mem : Memory) (ptr : U64) : Prop where
  groups : (mem.read (ptr + 264) 4).toNat ≤ maliMaxCoherentGroups
  implTech : (mem.read (ptr + 96) 1).toNat < 4

instance (mem : Memory) (ptr : U64) : Decidable (PropsInRange mem ptr) :=
  decidable_of_iff (_ ∧ _) ⟨fun h => ⟨h.1, h.2⟩, fun h => ⟨h.groups, h.implTech⟩⟩

theorem gpuProps_fields (h : PropsInRange mem ptr) :
    ReadsFields mem ptr (ioctlDecodePostGpuPropsRegDump ptr) gpuPropsFields := by
  unfold ioctlDecodePostGpuPropsRegDump
  apply ReadsFields.load (by decide)
  iterate 3
    apply ReadsFields.seq fun _ => id
    intro _
  apply (logThreadProps_fields (implementationName_ne_stray h.implTech)).bind
  intro _
  apply ReadsFields.seq fun _ => id
  intro _
  exact logCoherencyInfo_fields h.groups

variable {t : Tracker}

/-- The name is printed whatever the tag is. -/
theorem gpuProps_implementation (himplTech : 4 ≤ (mem.read (ptr + 96) 1).toNat) :
    Certain t mem (fun e => ¬e.Proper ptr gpuPropsFields)
      (ioctlDecodePostGpuPropsRegDump ptr) := by
  unfold ioctlDecodePostGpuPropsRegDump
  apply Certain.load
  rw [implementationName_stray himplTech]
  iterate 3
    apply Certain.seq
    intro _
  apply Certain.first
  unfold logThreadProps
  -- the lines before the one with the name
  iterate 15
    apply Certain.seq
    intro _
  apply Certain.first
  apply certain_log
  simp [Event.Proper]

theorem gpuProps_group (hgroups : maliMaxCoherentGroups < (mem.read (ptr + 264) 4).toNat) :
    Certain t mem (fun e => ¬e.Proper ptr gpuPropsFields)
      (ioctlDecodePostGpuPropsRegDump ptr) := by
  have hleaves := leaves_iff.mp (gpuProps_leaves (t := t) hgroups)
  apply hleaves.mono
  rintro _ rfl
  -- the group behind the last one
  have hoffset : ptr + 264 + 16 + 16 * BitVec.ofNat 64 16 - ptr = 536 := by bv_omega
  rw [Event.Proper, hoffset]
  decide

end Decoder

section Claims

/-- The dump reads the struct's members only, its arrays within their lengths, and what it prints
has a value. -/
def PropsDumpedProperly (w : World) (ptr : U64) : Prop :=
  ∀ e ∈ w.eventsOf (ioctlDecodePostGpuPropsRegDump ptr), e.Proper ptr gpuPropsFields

variable {w : World} {ptr : U64}

theorem not_propsDumpedProperly_of_certain
    (h : Certain w.tracker w.mem (fun e => ¬e.Proper ptr gpuPropsFields)
      (ioctlDecodePostGpuPropsRegDump ptr)) : ¬PropsDumpedProperly w ptr := by
  obtain ⟨e, he, hproper⟩ := h.eventsOf
  exact fun hall => hproper (hall e he)

/-- The dump stays inside the struct and prints values only, if and only if the struct counts at
most as many groups as it has and its implementation has a name. -/
theorem gpu_props_dumped_properly_iff (w : World) (ptr : U64) :
    PropsDumpedProperly w ptr ↔ PropsInRange w.mem ptr := by
  constructor
  · intro h
    by_contra hrange
    by_cases hgroups : (w.mem.read (ptr + 264) 4).toNat ≤ maliMaxCoherentGroups
    · have himplTech : 4 ≤ (w.mem.read (ptr + 96) 1).toNat := by
        by_contra hlt
        exact hrange ⟨hgroups, Nat.not_le.mp hlt⟩
      exact not_propsDumpedProperly_of_certain (gpuProps_implementation himplTech) h
    · exact not_propsDumpedProperly_of_certain (gpuProps_group (Nat.not_le.mp hgroups)) h
  · intro hrange
    exact (gpuProps_fields hrange).reads.eventsOf

/-- A struct of zeros, but for `impl_tech`, which is 4. -/
def unnamedImplementation : Memory := fun a => if a = 0x1060 then 4 else 0

/-- The tag 4 has no name, and one is printed. -/
theorem unnamed_implementation_printed :
    ¬PropsDumpedProperly { World.plain with mem := unnamedImplementation } 0x1000 :=
  not_propsDumpedProperly_of_certain (gpuProps_implementation (by decide))

end Claims
end Panloader
