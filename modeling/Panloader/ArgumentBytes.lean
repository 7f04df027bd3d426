import Panloader.PlainPrograms
import Panloader.PrintedLines

/-! How far into the argument of an ioctl a decoder reads. It has read what it wants from the
argument when it announces that it goes on through a pointer it found there. -/
namespace Panloader
open Effects

set_option synthInstance.maxSize 4000

/-- The lines after which a decoder reads through a pointer from the argument. -/
def followingLines : List String :=
  ["Atoms:\n", "Dumping memory being synced to device:\n", "Dumping memory from device:\n"]

def Event.follows : Event → Bool
  | .log _ _ format _ => format ∈ followingLines
  | _ => false

/-- The strings among `args` end within the `size` bytes at `ptr`. -/
def StringsEnd (mem : Memory) (ptr : U64) (size : ℕ) (args : List Arg) : Prop :=
  ∀ p, .cstr p ∈ args → ∃ k : ℕ, mem (p + BitVec.ofNat 64 k) = 0 ∧ (p - ptr).toNat + k < size

/-- What is read lies within the `size` bytes at `ptr`, and what is printed is read there. -/
def Event.Within (mem : Memory) (ptr : U64) (size : ℕ) : Event → Prop
  | .load a n => (a - ptr).toNat + n ≤ size
  | .log _ _ _ args => StringsEnd mem ptr size args
  | .cont _ args => StringsEnd mem ptr size args
  | _ => True

theorem StringsEnd.mono {mem : Memory} {ptr : U64} {m n : ℕ} {args : List Arg} (hmn : m ≤ n)
    (h : StringsEnd mem ptr m args) : StringsEnd mem ptr n args := by
  intro p hp
  obtain ⟨k, hend, hk⟩ := h p hp
  exact ⟨k, hend, hk.trans_le hmn⟩

theorem Event.Within.mono {mem : Memory} {ptr : U64} {m n : ℕ} {e : Event} (hmn : m ≤ n)
    (h : e.Within mem ptr m) : e.Within mem ptr n := by
  cases e with
  | load a k => exact Nat.le_trans h hmn
  | log stamp indent format args => exact StringsEnd.mono hmn h
  | cont format args => exact StringsEnd.mono hmn h
  | clock | indent | hexdump | real => trivial

/-- The part of the events that is about the argument. -/
def argumentEvents (es : List Event) : List Event := es.takeWhile (!·.follows)

theorem argumentEvents_append {es es' : List Event} {e : Event}
    (h : e ∈ argumentEvents (es ++ es')) : e ∈ argumentEvents es ∨ e ∈ argumentEvents es' := by
  induction es with
  | nil => exact Or.inr h
  | cons x es ih =>
    unfold argumentEvents at *
    rw [List.cons_append, List.takeWhile_cons] at h
    rw [List.takeWhile_cons]
    -- an event that announces a pointer ends both parts
    split_ifs at h with hx
    · rw [if_pos hx]
      obtain rfl | h := List.mem_cons.mp h
      · exact Or.inl List.mem_cons_self
      · exact (ih h).imp_left (List.mem_cons_of_mem x)
    · exact absurd h List.not_mem_nil

/-- The memory is kept, and the trace only grows. -/
def Grows (w w' : World) : Prop := w'.mem = w.mem ∧ ∃ es, w'.trace = w.trace ++ es

theorem stable_grows (w : World) : Stable (Grows w) where
  emit u e _ := by
    rintro ⟨hmem, es, htrace⟩
    exact ⟨hmem, es ++ [e], by simp [World.emit, htrace]⟩
  log format args := by
    rintro u ⟨hmem, es, htrace⟩
    obtain ⟨v, stamp, clocks, hr, -, hmem', htrace', -⟩ := panwrapLog_run format args u
    rw [hr]
    exact ⟨hmem'.trans hmem, _, by rw [htrace', htrace, List.append_assoc]⟩
  indent u level := by
    rintro ⟨hmem, es, htrace⟩
    exact ⟨hmem, es ++ [.indent level], by simp [World.setIndent, htrace]⟩
  tracker _ _ h := h

theorem Plain.grows {α : Type} {m : Wrap α} (hm : Plain m) : Relates Grows m := by
  rintro _ w rfl
  exact hm.ensures (stable_grows w) w ⟨rfl, [], (List.append_nil _).symm⟩

/-- With the memory `mem`, from `w` to `w'` no more than the `size` bytes at `ptr` are read of
the argument. -/
def ReadsWithin (mem : Memory) (ptr : U64) (size : ℕ) (w w' : World) : Prop :=
  w.mem = mem → w'.mem = mem ∧ ∃ es, w'.trace = w.trace ++ es ∧
    ∀ e ∈ argumentEvents es, e.Within mem ptr size

/-- Whatever its end, `m` reads no more than that. -/
class StaysWithin (mem : Memory) (ptr : U64) {α : Type} (m : Wrap α) (size : outParam ℕ) :
    Prop where
  reads : Relates (ReadsWithin mem ptr size) m

/-- `a` lies at most `k` bytes behind `ptr`. -/
class Behind (ptr a : U64) (k : outParam ℕ) : Prop where
  le : (a - ptr).toNat ≤ k

/-- No string of the program is among the arguments. -/
class NoStrings (args : List Arg) : Prop where
  none : ∀ p, .cstr p ∉ args

section Rules

variable {α β : Type} {mem : Memory} {ptr : U64} {m m' : Wrap α} {f : α → Wrap β} {j k n : ℕ}

theorem ReadsWithin.mono {u w : World} (hkn : k ≤ n) (h : ReadsWithin mem ptr k u w) :
    ReadsWithin mem ptr n u w := by
  intro hu
  obtain ⟨hw, es, htrace, hes⟩ := h hu
  exact ⟨hw, es, htrace, fun e he => (hes e he).mono hkn⟩

theorem ReadsWithin.trans {u v w : World} (huv : ReadsWithin mem ptr n u v)
    (hvw : ReadsWithin mem ptr n v w) : ReadsWithin mem ptr n u w := by
  intro hu
  obtain ⟨hv, es, htrace, hes⟩ := huv hu
  obtain ⟨hw, es', htrace', hes'⟩ := hvw hv
  refine ⟨hw, es ++ es', ?_, ?_⟩
  · rw [htrace', htrace, List.append_assoc]
  · intro e he
    exact (argumentEvents_append he).elim (hes e) (hes' e)

theorem StaysWithin.mono [hm : StaysWithin mem ptr m k] (hkn : k ≤ n) :
    StaysWithin mem ptr m n where
  reads := hm.reads.mono fun _ _ h => h.mono hkn

theorem StaysWithin.bind (hm : StaysWithin mem ptr m n) (hf : ∀ a, StaysWithin mem ptr (f a) n) :
    StaysWithin mem ptr (m >>= f) n where
  reads := hm.reads.bind (fun a => (hf a).reads) (fun _ _ h => h) fun _ _ _ h h' => h.trans h'

instance within_bind [hm : StaysWithin mem ptr m k] [hf : ∀ a, StaysWithin mem ptr (f a) n] :
    StaysWithin mem ptr (m >>= f) (max k n) :=
  (hm.mono (Nat.le_max_left k n)).bind fun a => (hf a).mono (Nat.le_max_right k n)

instance within_ite {p : Prop} [Decidable p] [hm : StaysWithin mem ptr m k]
    [hm' : StaysWithin mem ptr m' n] : StaysWithin mem ptr (if p then m else m') (max k n) := by
  split
  · exact hm.mono (Nat.le_max_left k n)
  · exact hm'.mono (Nat.le_max_right k n)

/-- A first statement that goes no further than what is allowed. -/
theorem StaysWithin.seq [hm : StaysWithin mem ptr m k] (hkn : k ≤ n)
    (hf : ∀ a, StaysWithin mem ptr (f a) n) : StaysWithin mem ptr (m >>= f) n :=
  (hm.mono hkn).bind hf

/-- A statement that leaves one event. -/
theorem StaysWithin.of_event {e : World → Event}
    (h : ∀ w, ∃ a w', m w = .ok a w' ∧ w'.mem = w.mem ∧ w'.trace = w.trace ++ [e w])
    (he : ∀ w, (e w).Within mem ptr n) : StaysWithin mem ptr m n where
  reads := by
    apply Relates.of_ok
    intro w
    obtain ⟨a, w', hr, hmem, htrace⟩ := h w
    refine ⟨a, w', hr, fun hw => ⟨hmem.trans hw, [e w], htrace, fun x hx => ?_⟩⟩
    obtain rfl : x = e w := List.mem_singleton.mp (List.takeWhile_subset _ hx)
    exact he w

theorem ReadsWithin.refl (w : World) : ReadsWithin mem ptr 0 w w :=
  fun hw => ⟨hw, [], (List.append_nil _).symm, fun _ he => absurd he List.not_mem_nil⟩

instance within_pure (a : α) : StaysWithin mem ptr (pure a : Wrap α) 0 where
  reads := Relates.of_ok fun w => ⟨a, w, rfl, ReadsWithin.refl w⟩

instance within_tracker : StaysWithin mem ptr tracker 0 where
  reads := Relates.of_ok fun w => ⟨w.tracker, w, rfl, ReadsWithin.refl w⟩

instance within_setTracker (t : Tracker) : StaysWithin mem ptr (setTracker t) 0 where
  reads := Relates.of_ok fun w => ⟨(), _, rfl, ReadsWithin.refl w⟩

instance within_halt (h : Halt) : StaysWithin mem ptr (halt h : Wrap α) 0 where
  reads := by
    rintro w _ rfl
    exact ReadsWithin.refl _

instance within_load (a : U64) [ha : Behind ptr a k] : StaysWithin mem ptr (load n a) (k + n) :=
  .of_event (e := fun _ => .load a n) (fun _ => ⟨_, _, rfl, rfl, rfl⟩)
    fun _ => Nat.add_le_add_right ha.le n

instance within_load8 (a : U64) [Behind ptr a k] : StaysWithin mem ptr (load8 a) (k + 1) :=
  within_load a
instance within_load16 (a : U64) [Behind ptr a k] : StaysWithin mem ptr (load16 a) (k + 2) :=
  within_load a
instance within_load32 (a : U64) [Behind ptr a k] : StaysWithin mem ptr (load32 a) (k + 4) :=
  within_load a
instance within_load64 (a : U64) [Behind ptr a k] : StaysWithin mem ptr (load64 a) (k + 8) :=
  within_load a

/-- A read whose value counts for what comes after it. -/
theorem StaysWithin.load {a : U64} {f : BitVec (8*j) → Wrap β} (ha : (a - ptr).toNat + j ≤ n)
    (hf : StaysWithin mem ptr (f (mem.read a j)) n) :
    StaysWithin mem ptr (Panloader.load j a >>= f) n where
  reads u := by
    by_cases hu : u.mem = mem
    · have hread : ReadsWithin mem ptr n u (u.emit (.load a j)) := by
        refine fun _ => ⟨hu, [.load a j], rfl, fun e he => ?_⟩
        obtain rfl : e = .load a j := List.mem_singleton.mp (List.takeWhile_subset _ he)
        exact ha
      apply Ensures.bind_eq (Q := fun w => w = u.emit (.load a j)) (v := mem.read a j)
      · rintro w rfl
        exact ⟨by rw [hu], rfl⟩
      · exact (hf.reads _).mono (fun _ _ h => hread.trans h) fun _ _ h => hread.trans h
    · exact Ensures.of_forall (fun _ _ h => absurd h hu) fun _ _ h => absurd h hu

theorem NoStrings.ends {args : List Arg} [h : NoStrings args] : StringsEnd mem ptr n args :=
  fun p hp => absurd hp (h.none p)

instance within_cont (format : String) (args : List Arg) [h : NoStrings args] :
    StaysWithin mem ptr (panwrapLogCont format args) 0 :=
  .of_event (e := fun _ => .cont format args) (fun _ => ⟨_, _, rfl, rfl, rfl⟩) fun _ => h.ends

instance within_indentIncr : StaysWithin mem ptr panwrapIndentIncr 0 :=
  .of_event (e := fun w => .indent (w.panwrapIndent+1)) (fun _ => ⟨_, _, rfl, rfl, rfl⟩)
    fun _ => trivial

instance within_indentDecr : StaysWithin mem ptr panwrapIndentDecr 0 :=
  .of_event (e := fun w => .indent (w.panwrapIndent-1)) (fun _ => ⟨_, _, rfl, rfl, rfl⟩)
    fun _ => trivial

theorem StaysWithin.log (format : String) {args : List Arg} (hargs : StringsEnd mem ptr n args) :
    StaysWithin mem ptr (panwrapLog format args) n where
  reads := by
    apply Relates.of_ok
    intro w
    obtain ⟨w', stamp, clocks, hr, -, hmem, htrace, hclocks⟩ := panwrapLog_run format args w
    refine ⟨(), w', hr, fun hw => ⟨hmem.trans hw, _, htrace, fun e he => ?_⟩⟩
    obtain he | he := List.mem_append.mp (List.takeWhile_subset _ he)
    · obtain ⟨now, rfl⟩ := hclocks e he
      trivial
    · obtain rfl := List.mem_singleton.mp he
      exact hargs

instance within_log (format : String) (args : List Arg) [h : NoStrings args] :
    StaysWithin mem ptr (panwrapLog format args) 0 :=
  .log format h.ends

/-- What comes after the announcement of a pointer is not about the argument. -/
theorem StaysWithin.follow {format : String} (hformat : format ∈ followingLines) (args : List Arg)
    {f : Unit → Wrap β} [hf : ∀ a, Plain (f a)] :
    StaysWithin mem ptr (panwrapLog format args >>= f) 0 where
  reads := by
    -- the line is not part of what is about the argument either
    have hline : Relates (fun u v => v.mem = u.mem ∧ ∃ es, v.trace = u.trace ++ es ∧
        ∀ es', ∀ e ∈ argumentEvents (es ++ es'), e.Within mem ptr 0) (panwrapLog format args) := by
      apply Relates.of_ok
      intro w
      obtain ⟨w', stamp, clocks, hr, -, hmem, htrace, hclocks⟩ := panwrapLog_run format args w
      refine ⟨(), w', hr, hmem, _, htrace, fun es' e he => ?_⟩
      rw [List.append_assoc] at he
      obtain he | he := argumentEvents_append he
      · obtain ⟨now, rfl⟩ := hclocks e (List.takeWhile_subset _ he)
        trivial
      · have hstop : argumentEvents ([.log stamp w.panwrapIndent format args] ++ es') = [] := by
          simp [argumentEvents, Event.follows, hformat]
        rw [hstop] at he
        exact absurd he List.not_mem_nil
    apply hline.bind fun a => (hf a).grows
    · rintro u v ⟨hmem, es, htrace, hes⟩ hu
      have hall := hes []
      rw [List.append_nil] at hall
      exact ⟨hmem.trans hu, es, htrace, hall⟩
    · rintro u v w ⟨hmem, es, htrace, hes⟩ ⟨hmem', es', htrace'⟩ hu
      refine ⟨(hmem'.trans hmem).trans hu, es ++ es', ?_, hes es'⟩
      rw [htrace', htrace, List.append_assoc]

instance within_atoms (args : List Arg) {f : Unit → Wrap β} [∀ a, Plain (f a)] :
    StaysWithin mem ptr (panwrapLog "Atoms:\n" args >>= f) 0 :=
  .follow (by decide) args

instance within_syncToDevice (args : List Arg) {f : Unit → Wrap β} [∀ a, Plain (f a)] :
    StaysWithin mem ptr (panwrapLog "Dumping memory being synced to device:\n" args >>= f) 0 :=
  .follow (by decide) args

instance within_syncToCpu (args : List Arg) {f : Unit → Wrap β} [∀ a, Plain (f a)] :
    StaysWithin mem ptr (panwrapLog "Dumping memory from device:\n" args >>= f) 0 :=
  .follow (by decide) args

theorem StaysWithin.countFrom {body : ℕ → Wrap Unit} {i c : ℕ}
    (hbody : ∀ l, l < i+c → StaysWithin mem ptr (body l) n) :
    StaysWithin mem ptr (Effects.countFrom body i c) n := by
  induction c generalizing i with
  | zero => exact (within_pure ()).mono (Nat.zero_le n)
  | succ c ih =>
    apply (hbody i (by omega)).bind
    intro _
    apply ih
    intro l hl
    exact hbody l (by omega)

theorem StaysWithin.forInt {body : ℕ → Wrap Unit} {c : ℕ}
    (hbody : ∀ i < c, StaysWithin mem ptr (body i) n) : StaysWithin mem ptr (forInt c body) n := by
  apply StaysWithin.countFrom
  intro i hi
  apply (hbody i (by omega)).bind
  intro _
  exact within_ite.mono (Nat.zero_le n)

/-- The furthest that `c` turns go. -/
def furthest (g : ℕ → ℕ) : ℕ → ℕ
  | 0 => 0
  | c+1 => max (furthest g c) (g c)

theorem le_furthest {g : ℕ → ℕ} {i c : ℕ} (hi : i < c) : g i ≤ furthest g c := by
  induction c with
  | zero => exact absurd hi (Nat.not_lt_zero i)
  | succ c ih =>
    obtain rfl | hi := Nat.eq_or_lt_of_le (Nat.le_of_lt_succ hi)
    · exact Nat.le_max_right _ _
    · exact (ih hi).trans (Nat.le_max_left _ _)

instance within_forInt (c : ℕ) (body : ℕ → Wrap Unit) {g : ℕ → ℕ}
    [hb : ∀ i, StaysWithin mem ptr (body i) (g i)] :
    StaysWithin mem ptr (forInt c body) (furthest g c) :=
  .forInt fun i hi => (hb i).mono (le_furthest hi)

end Rules

section Arguments

variable {ptr : U64}

instance behind_self : Behind ptr ptr 0 where
  le := by simp

instance behind_add {a c : U64} {k : ℕ} [ha : Behind ptr a k] :
    Behind ptr (a + c) (k + c.toNat) where
  le := by
    have hsplit : a + c - ptr = a - ptr + c := by grind
    -- a sum that wraps around comes out smaller
    calc (a + c - ptr).toNat = ((a - ptr).toNat + c.toNat) % 2^64 := by
          rw [hsplit, BitVec.toNat_add]
      _ ≤ (a - ptr).toNat + c.toNat := Nat.mod_le _ _
      _ ≤ k + c.toNat := Nat.add_le_add_right ha.le _

instance noStrings_nil : NoStrings [] where
  none _ := List.not_mem_nil

theorem NoStrings.cons {x : Arg} {args : List Arg} [h : NoStrings args] (hx : ∀ p, x ≠ .cstr p) :
    NoStrings (x :: args) where
  none p hp := (List.mem_cons.mp hp).elim (fun he => hx p he.symm) (h.none p)

variable (args : List Arg) [NoStrings args]

instance noStrings_int (n : ℤ) : NoStrings (.int n :: args) := .cons fun _ h => nomatch h
instance noStrings_u32 (v : U32) : NoStrings (.u32 v :: args) := .cons fun _ h => nomatch h
instance noStrings_u64 (v : U64) : NoStrings (.u64 v :: args) := .cons fun _ h => nomatch h
instance noStrings_str (s : String) : NoStrings (.str s :: args) := .cons fun _ h => nomatch h
instance noStrings_pow2 (n d : ℕ) : NoStrings (.pow2 n d :: args) := .cons fun _ h => nomatch h

instance noStrings_yesNo {n : ℕ} (b : BitVec n) : NoStrings (yesNo b :: args) :=
  noStrings_str args _

theorem noStrings_implementationName (implTech : U8) : NoStrings [implementationName implTech] := by
  unfold implementationName
  split_ifs
  all_goals exact .cons fun _ h => nomatch h

end Arguments

section Decoders

variable {mem : Memory} {ptr p : U64} {k : ℕ}

instance within_logFlagNames (info : List PanwrapFlagInfo) (flags : U64) (found : Bool) :
    StaysWithin mem ptr (logFlagNames info flags found) 0 := by
  induction info generalizing flags found with
  | nil => exact within_pure _
  | cons i rest ih =>
    unfold logFlagNames
    exact StaysWithin.mono (by decide)

instance within_logFlagsLine (text : String) (info : List PanwrapFlagInfo) (flags : U64) :
    StaysWithin mem ptr (logFlagsLine text info flags) 0 := by
  unfold logFlagsLine panwrapLogDecodedFlags
  exact StaysWithin.mono (by decide)

instance within_logSyncRange (handle userAddr size : U64) (m : Option PanwrapMappedMemory) :
    StaysWithin mem ptr (logSyncRange handle userAddr size m) 0 := by
  cases m <;> unfold logSyncRange <;> exact StaysWithin.mono (by decide)

instance within_panwrapTrackAllocation (addr : U64) (flags : U32) :
    StaysWithin mem ptr (panwrapTrackAllocation addr flags) 0 := by
  unfold panwrapTrackAllocation
  exact StaysWithin.mono (by decide)

variable [hp : Behind ptr p k]

instance within_logCoreProps : StaysWithin mem ptr (logCoreProps p) (k + 48) := by
  unfold logCoreProps
  exact StaysWithin.mono (by simp [furthest])

instance within_logL2Props : StaysWithin mem ptr (logL2Props p) (k + 3) := by
  unfold logL2Props
  exact StaysWithin.mono (by simp)

instance within_logTilerProps : StaysWithin mem ptr (logTilerProps p) (k + 8) := by
  unfold logTilerProps
  exact StaysWithin.mono (by simp)

instance within_logThreadProps (implementation : Arg) [NoStrings [implementation]] :
    StaysWithin mem ptr (logThreadProps p implementation) (k + 17) := by
  unfold logThreadProps
  exact StaysWithin.mono (by simp)

instance within_logRawProps : StaysWithin mem ptr (logRawProps p) (k + 160) := by
  unfold logRawProps
  exact StaysWithin.mono (by simp [furthest])

/-- The struct has room for 16 groups. -/
theorem within_logCoherencyInfo (hgroups : (mem.read p 4).toNat ≤ 16) :
    StaysWithin mem ptr (logCoherencyInfo p) (k + 272) := by
  have hbase := hp.le
  unfold logCoherencyInfo
  apply StaysWithin.seq (by simp)
  intro _
  apply StaysWithin.seq (by simp)
  intro _
  -- what is read decides how many groups there are
  apply StaysWithin.load (by omega)
  repeat
    apply StaysWithin.seq (by simp)
    intro _
  apply (StaysWithin.forInt ?_).bind
  · intro _
    exact StaysWithin.mono (by simp)
  · intro i hi
    -- group `i` lies in the 16 bytes from `16 + 16*i` on
    have hgroup : (16 * BitVec.ofNat 64 i).toNat ≤ 240 := by
      have hsixteen : (16 : U64).toNat = 16 := rfl
      rw [BitVec.toNat_mul, BitVec.toNat_ofNat, hsixteen]
      omega
    apply StaysWithin.mono
    simp
    omega

end Decoders

end Panloader
