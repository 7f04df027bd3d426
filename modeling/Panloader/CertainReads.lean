import Mathlib.Data.List.TakeWhile
import Panloader.ArgumentBytes

/-! Reads that a decoder is certain to make, also where it does not return. The groups of the GPU
properties are read one after the other, as many as there are said to be. -/
namespace Panloader
open Effects

set_option synthInstance.maxSize 4000

/-- An event with `q` is among those from `w` to `w'`. -/
def SomeEvent (q : Event → Prop) (w w' : World) : Prop :=
  ∃ es, w'.trace = w.trace ++ es ∧ ∃ e ∈ es, q e

/-- From a state that sees `t` and `mem`, `m` leaves an event with `q`, whatever its end. -/
def Certain (t : Tracker) (mem : Memory) (q : Event → Prop) {α : Type} (m : Wrap α) : Prop :=
  ∀ w, Sees t mem w → Ensures (fun u => u = w) m (fun _ => SomeEvent q w) (fun _ => SomeEvent q w)

section Certain

variable {α β : Type} {t : Tracker} {mem : Memory} {q : Event → Prop} {m : Wrap α}
  {f : α → Wrap β}

theorem SomeEvent.before {u v w : World} (h : SomeEvent q u v) (hgrows : Grows v w) :
    SomeEvent q u w := by
  obtain ⟨es, htrace, e, he, hq⟩ := h
  obtain ⟨-, es', htrace'⟩ := hgrows
  refine ⟨es ++ es', ?_, e, List.mem_append_left es' he, hq⟩
  rw [htrace', htrace, List.append_assoc]

theorem SomeEvent.after {u v w : World} (h : SomeEvent q v w) (hgrows : Grows u v) :
    SomeEvent q u w := by
  obtain ⟨es, htrace, e, he, hq⟩ := h
  obtain ⟨-, es', htrace'⟩ := hgrows
  refine ⟨es' ++ es, ?_, e, List.mem_append_right es' he, hq⟩
  rw [htrace, htrace', List.append_assoc]

theorem Certain.mono {q' : Event → Prop} (hm : Certain t mem q m) (hq : ∀ e, q e → q' e) :
    Certain t mem q' m := by
  have hsome (v u : World) : SomeEvent q v u → SomeEvent q' v u := by
    rintro ⟨es, htrace, e, he, hqe⟩
    exact ⟨es, htrace, e, he, hq e hqe⟩
  intro w hw
  exact (hm w hw).mono (fun _ u => hsome w u) fun _ u => hsome w u

/-- The event comes from the first part. -/
theorem Certain.first (hm : Certain t mem q m) [hf : ∀ a, Plain (f a)] :
    Certain t mem q (m >>= f) := by
  intro w hw
  apply (hm w hw).bind
  intro a u hu
  exact ((hf a).grows u).mono (fun _ _ h => hu.before h) (fun _ _ h => hu.before h) u rfl

/-- The event comes after a first part that returns, with a value of which something is known. -/
theorem Certain.after {I : α → Prop} [hm : Plain m]
    (hI : Ensures (Sees t mem) m (fun a u => I a ∧ Sees t mem u) (fun _ _ => False))
    (hf : ∀ a, I a → Certain t mem q (f a)) : Certain t mem q (m >>= f) := by
  intro w hw
  have hfirst : Ensures (fun u => u = w) m (fun a u => (I a ∧ Sees t mem u) ∧ Grows w u)
      (fun _ _ => False) := by
    intro v hv
    rw [hv]
    have hend := hI w hw
    have hgrows := hm.grows w w rfl
    cases hr : m w with
    | ok a u =>
      rw [hr] at hend hgrows
      exact ⟨hend, hgrows⟩
    | error h u =>
      rw [hr] at hend
      exact hend
  apply (hfirst.mono_error fun _ _ h => h.elim).bind
  rintro a u ⟨⟨ha, hu⟩, hgrows⟩
  exact (hf a ha u hu).mono (fun _ _ h => h.after hgrows) (fun _ _ h => h.after hgrows) u rfl

theorem Certain.seq [ht : Total (Sees t mem) m] [Plain m] (hf : ∀ a, Certain t mem q (f a)) :
    Certain t mem q (m >>= f) :=
  .after (I := fun _ => True) (ht.ensures.mono (fun _ _ hu => ⟨trivial, hu⟩) fun _ _ h => h)
    fun a _ => hf a

theorem Certain.load {n : ℕ} {a : U64} {f : BitVec (8*n) → Wrap β}
    (hf : Certain t mem q (f (mem.read a n))) : Certain t mem q (Panloader.load n a >>= f) := by
  apply Certain.after (load_ensures n a)
  rintro _ rfl
  exact hf

theorem Certain.countFrom {body : ℕ → Wrap Unit} [hp : ∀ i, Plain (body i)] {i j c : ℕ}
    (ht : ∀ l < i, Total (Sees t mem) (body l)) (hbody : Certain t mem q (body i)) (hj : j ≤ i)
    (hi : i < j+c) : Certain t mem q (Effects.countFrom body j c) := by
  induction c generalizing j with
  | zero => exact absurd hi (by omega)
  | succ c ih =>
    -- the turn itself, or one before it, which returns
    obtain rfl | hlt := Nat.eq_or_lt_of_le hj
    · exact Certain.first hbody
    · have hturn := ht j hlt
      apply Certain.seq
      intro _
      exact ih (by omega) (by omega)

/-- Turn `i` of a loop, if the counter gets there. -/
theorem Certain.forInt {body : ℕ → Wrap Unit} [∀ i, Plain (body i)]
    [ht : ∀ i, Total (Sees t mem) (body i)] {i c : ℕ} (hi : i < c) (hint : i ≤ intMax)
    (hbody : Certain t mem q (body i)) : Certain t mem q (forInt c body) := by
  apply Certain.countFrom (i := i) ?_ (Certain.first hbody) (Nat.zero_le i) (by omega)
  intro l hl
  -- up to here the counter can be incremented
  rw [if_neg (by omega)]
  infer_instance

theorem certain_log {format : String} {args : List Arg}
    (hq : ∀ stamp indent, q (.log stamp indent format args)) :
    Certain t mem q (panwrapLog format args) := by
  rintro w - u rfl
  obtain ⟨u', stamp, clocks, hr, -, -, htrace, -⟩ := panwrapLog_run format args u
  rw [hr]
  exact ⟨_, htrace, _, List.mem_append_right _ (List.mem_singleton.mpr rfl), hq _ _⟩

end Certain

/-- `e` is among the events from `w` to `w'`. -/
def Reports (e : Event) (w w' : World) : Prop := ∃ es, w'.trace = w.trace ++ es ∧ e ∈ es

/-- From a state that sees `t` and `mem`, `m` leaves `e` among its events, whatever its end. -/
def Leaves (t : Tracker) (mem : Memory) (e : Event) {α : Type} (m : Wrap α) : Prop :=
  ∀ w, Sees t mem w → Ensures (fun u => u = w) m (fun _ => Reports e w) (fun _ => Reports e w)

theorem reports_iff {e : Event} {w w' : World} : Reports e w w' ↔ SomeEvent (· = e) w w' := by
  simp only [Reports, SomeEvent, exists_eq_right]

theorem leaves_iff {α : Type} {t : Tracker} {mem : Memory} {e : Event} {m : Wrap α} :
    Leaves t mem e m ↔ Certain t mem (· = e) m := by
  have hreports : Reports e = SomeEvent (· = e) := by
    funext w w'
    exact propext reports_iff
  unfold Leaves Certain
  rw [hreports]

theorem leaves_load64 {t : Tracker} {mem : Memory} (a : U64) :
    Leaves t mem (.load a 8) (load64 a) := by
  rintro w - _ rfl
  exact ⟨[.load a 8], rfl, List.mem_singleton.mpr rfl⟩

/-- No event from `w` to `w'` announces a pointer. -/
def Unfollowed (w w' : World) : Prop :=
  ∃ es, w'.trace = w.trace ++ es ∧ ∀ e ∈ es, e.follows = false

theorem Unfollowed.trans {u v w : World} (huv : Unfollowed u v) (hvw : Unfollowed v w) :
    Unfollowed u w := by
  obtain ⟨es, htrace, hes⟩ := huv
  obtain ⟨es', htrace', hes'⟩ := hvw
  refine ⟨es ++ es', ?_, fun e he => ?_⟩
  · rw [htrace', htrace, List.append_assoc]
  · exact (List.mem_append.mp he).elim (hes e) (hes' e)

theorem unfollowed_seq {α β : Type} {m : Wrap α} {f : α → Wrap β} (hm : Relates Unfollowed m)
    (hf : ∀ a, Relates Unfollowed (f a)) : Relates Unfollowed (m >>= f) :=
  hm.bind hf (fun _ _ h => h) fun _ _ _ h h' => h.trans h'

theorem Prints.unfollowed {α : Type} {m : Wrap α} {F : List String} [hm : Prints m F]
    (hF : ∀ f ∈ F, f ∉ followingLines) : Relates Unfollowed m := by
  apply hm.printed.mono
  rintro w w' ⟨-, -, es, htrace, hes⟩
  refine ⟨es, htrace, fun e he => ?_⟩
  cases e with
  | log stamp indent f args => exact decide_eq_false (hF f (hes stamp indent f args he))
  | clock | cont | indent | load | hexdump | real => rfl

/-- All that is read is about the argument. -/
theorem Unfollowed.argumentEvents {w w' : World} {es : List Event} (h : Unfollowed w w')
    (htrace : w'.trace = w.trace ++ es) : argumentEvents es = es := by
  obtain ⟨es', htrace', hes⟩ := h
  obtain rfl : es = es' := List.append_cancel_left (htrace.symm.trans htrace')
  apply List.takeWhile_eq_self_iff.mpr
  intro e he
  rw [hes e he]
  rfl

theorem Reports.within {e : Event} {mem : Memory} {ptr : U64} {n : ℕ} {w w' : World}
    (h : Reports e w w') (hall : Unfollowed w w') (hw : w.mem = mem)
    (hreads : ReadsWithin mem ptr n w w') : e.Within mem ptr n := by
  obtain ⟨es, htrace, he⟩ := h
  obtain ⟨-, es', htrace', hes⟩ := hreads hw
  obtain rfl : es = es' := List.append_cancel_left (htrace.symm.trans htrace')
  rw [hall.argumentEvents htrace] at hes
  exact hes e he

theorem Leaves.within {α : Type} {t : Tracker} {mem : Memory} {e : Event} {m : Wrap α} {ptr : U64}
    {n : ℕ} {w : World} (hm : Leaves t mem e m) (hall : Relates Unfollowed m) (hw : Sees t mem w)
    (hreads : Ensures (fun u => u = w) m (fun _ => ReadsWithin mem ptr n w)
      (fun _ => ReadsWithin mem ptr n w)) : e.Within mem ptr n := by
  have hreported := hm w hw w rfl
  have hunfollowed := hall w w rfl
  have hend := hreads w rfl
  cases hr : m w with
  | ok a u =>
    rw [hr] at hreported hunfollowed hend
    exact Reports.within hreported hunfollowed hw.mem hend
  | error h u =>
    rw [hr] at hreported hunfollowed hend
    exact Reports.within hreported hunfollowed hw.mem hend

section Overrun

variable {t : Tracker} {mem : Memory}

instance total_logCoreProps (p : U64) : Total (Sees t mem) (logCoreProps p) := by
  have hloop (body : ℕ → Wrap Unit) [∀ i, Total (Sees t mem) (body i)] :
      Total (Sees t mem) (forInt 3 body) := total_forInt (by decide) body
  unfold logCoreProps
  repeat refine @total_bind _ _ _ _ _ _ _ inferInstance fun _ => ?_
  infer_instance

instance total_logRawProps (p : U64) : Total (Sees t mem) (logRawProps p) := by
  have hloop (body : ℕ → Wrap Unit) [∀ i, Total (Sees t mem) (body i)] :
      Total (Sees t mem) (forInt 16 body) := total_forInt (by decide) body
  unfold logRawProps
  repeat refine @total_bind _ _ _ _ _ _ _ inferInstance fun _ => ?_
  infer_instance

instance total_logL2Props (p : U64) : Total (Sees t mem) (logL2Props p) := by
  unfold logL2Props
  infer_instance

instance total_logTilerProps (p : U64) : Total (Sees t mem) (logTilerProps p) := by
  unfold logTilerProps
  infer_instance

instance total_logThreadProps (p : U64) (implementation : Arg) :
    Total (Sees t mem) (logThreadProps p implementation) := by
  unfold logThreadProps
  repeat refine @total_bind _ _ _ _ _ _ _ inferInstance fun _ => ?_
  infer_instance

/-- The group behind the last one of the struct is read if there are said to be so many. -/
theorem logCoherencyInfo_leaves {p : U64} (hgroups : 16 < (mem.read p 4).toNat) :
    Leaves t mem (.load (p + 16 + 16 * BitVec.ofNat 64 16) 8) (logCoherencyInfo p) := by
  apply leaves_iff.mpr
  unfold logCoherencyInfo
  apply Certain.seq
  intro _
  apply Certain.seq
  intro _
  apply Certain.load
  -- the lines up to the loop
  iterate 7
    apply Certain.seq
    intro _
  apply Certain.first
  apply Certain.forInt hgroups (by decide)
  exact Certain.first (leaves_iff.mp (leaves_load64 _))

theorem gpuProps_leaves {ptr : U64} (hgroups : 16 < (mem.read (ptr + 264) 4).toNat) :
    Leaves t mem (.load (ptr + 264 + 16 + 16 * BitVec.ofNat 64 16) 8)
      (ioctlDecodePostGpuPropsRegDump ptr) := by
  apply leaves_iff.mpr
  unfold ioctlDecodePostGpuPropsRegDump
  -- the parts before the coherency info return
  iterate 6
    apply Certain.seq
    intro _
  exact leaves_iff.mp (logCoherencyInfo_leaves hgroups)

theorem gpuProps_unfollowed (ptr : U64) :
    Relates Unfollowed (ioctlDecodePostGpuPropsRegDump ptr) := by
  unfold ioctlDecodePostGpuPropsRegDump
  apply unfollowed_seq (Prints.unfollowed (by decide))
  intro _
  apply unfollowed_seq
  · unfold logCoreProps
    exact Prints.unfollowed (by decide)
  intro _
  apply unfollowed_seq
  · unfold logL2Props
    exact Prints.unfollowed (by decide)
  intro _
  apply unfollowed_seq
  · unfold logTilerProps
    exact Prints.unfollowed (by decide)
  intro _
  apply unfollowed_seq
  · unfold logThreadProps
    exact Prints.unfollowed (by decide)
  intro _
  apply unfollowed_seq
  · unfold logRawProps
    exact Prints.unfollowed (by decide)
  intro _
  unfold logCoherencyInfo
  exact Prints.unfollowed (by decide)

end Overrun

end Panloader
