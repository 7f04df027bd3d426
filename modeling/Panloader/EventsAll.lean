import Panloader.CertainReads
import Panloader.Runs

/-! What holds of every event of a call, whatever its end. -/
namespace Panloader
open Effects

/-- With the memory `mem`, every event from `w` to `w'` has `q`. -/
def AllEvents (mem : Memory) (q : Event → Prop) (w w' : World) : Prop :=
  w.mem = mem → w'.mem = mem ∧ ∃ es, w'.trace = w.trace ++ es ∧ ∀ e ∈ es, q e

/-- Whatever its end, `m` leaves only events with `q`. -/
def Admits (mem : Memory) (q : Event → Prop) {α : Type} (m : Wrap α) : Prop :=
  Relates (AllEvents mem q) m

variable {α β : Type} {mem : Memory} {q r : Event → Prop} {m : Wrap α} {f : α → Wrap β}

theorem AllEvents.refl (w : World) : AllEvents mem q w w :=
  fun hw => ⟨hw, [], (List.append_nil _).symm, fun _ he => absurd he List.not_mem_nil⟩

theorem AllEvents.mono {u w : World} (hqr : ∀ e, q e → r e) (h : AllEvents mem q u w) :
    AllEvents mem r u w := by
  intro hu
  obtain ⟨hw, es, htrace, hes⟩ := h hu
  exact ⟨hw, es, htrace, fun e he => hqr e (hes e he)⟩

theorem AllEvents.trans {u v w : World} (huv : AllEvents mem q u v)
    (hvw : AllEvents mem q v w) : AllEvents mem q u w := by
  intro hu
  obtain ⟨hv, es, htrace, hes⟩ := huv hu
  obtain ⟨hw, es', htrace', hes'⟩ := hvw hv
  refine ⟨hw, es ++ es', by rw [htrace', htrace, List.append_assoc], fun e he => ?_⟩
  exact (List.mem_append.mp he).elim (hes e) (hes' e)

theorem Admits.mono (hm : Admits mem q m) (hqr : ∀ e, q e → r e) : Admits mem r m :=
  Relates.mono hm fun _ _ h => h.mono hqr

theorem Admits.bind (hm : Admits mem q m) (hf : ∀ a, Admits mem q (f a)) :
    Admits mem q (m >>= f) :=
  Relates.bind hm hf (fun _ _ h => h) fun _ _ _ h h' => h.trans h'

/-- The rest depends on what is known of the value of the first part. -/
theorem Admits.after {I : α → Prop} (hm : Admits mem q m)
    (hI : Ensures (fun _ => True) m (fun a _ => I a) fun _ _ => True)
    (hf : ∀ a, I a → Admits mem q (f a)) : Admits mem q (m >>= f) := by
  rintro _ w rfl
  have hfirst := hm w w rfl
  cases hr : m w with
  | ok a u =>
    rw [hr] at hfirst
    rw [bind_ok hr]
    have hrest := hf a (hI.ok trivial hr) u
    exact hrest.mono (fun _ _ h => hfirst.trans h) (fun _ _ h => hfirst.trans h) u rfl
  | error h u =>
    rw [hr] at hfirst
    rw [bind_error hr]
    exact hfirst

theorem Admits.pure (a : α) : Admits mem q (Pure.pure a : Wrap α) :=
  Relates.of_ok fun w => ⟨a, w, rfl, AllEvents.refl w⟩

theorem Admits.halt (h : Halt) : Admits mem q (Panloader.halt h : Wrap α) := by
  rintro w _ rfl
  exact AllEvents.refl _

theorem Admits.of_event {e : World → Event}
    (h : ∀ w, ∃ a w', m w = .ok a w' ∧ w'.mem = w.mem ∧ w'.trace = w.trace ++ [e w])
    (he : ∀ w, q (e w)) : Admits mem q m := by
  apply Relates.of_ok
  intro w
  obtain ⟨a, w', hr, hmem, htrace⟩ := h w
  refine ⟨a, w', hr, fun hw => ⟨hmem.trans hw, [e w], htrace, fun x hx => ?_⟩⟩
  rw [List.mem_singleton.mp hx]
  exact he w

theorem Admits.emit {e : Event} (he : q e) : Admits mem q (Panloader.emit e) :=
  .of_event (e := fun _ => e) (fun _ => ⟨_, _, rfl, rfl, rfl⟩) fun _ => he

theorem Admits.read {n : ℕ} {a : U64} (ha : q (.load a n)) :
    Admits mem q (Panloader.load n a) :=
  .of_event (e := fun _ => .load a n) (fun _ => ⟨_, _, rfl, rfl, rfl⟩) fun _ => ha

/-- A line and, before it, what the clock was read for. -/
theorem Admits.log {format : String} {args : List Arg} (hclock : ∀ now, q (.clock .stamp now))
    (hline : ∀ stamp indent, q (.log stamp indent format args)) :
    Admits mem q (panwrapLog format args) := by
  apply Relates.of_ok
  intro w
  obtain ⟨w', stamp, clocks, hr, -, hmem, htrace, hclocks⟩ := panwrapLog_run format args w
  refine ⟨(), w', hr, fun hw => ⟨hmem.trans hw, _, htrace, fun e he => ?_⟩⟩
  obtain he | he := List.mem_append.mp he
  · obtain ⟨now, rfl⟩ := hclocks e he
    exact hclock now
  · rw [List.mem_singleton.mp he]
    exact hline stamp w.panwrapIndent

/-- A read whose value counts for what comes after it. -/
theorem Admits.load {n : ℕ} {a : U64} {f : BitVec (8*n) → Wrap β} (ha : q (.load a n))
    (hf : Admits mem q (f (mem.read a n))) : Admits mem q (Panloader.load n a >>= f) := by
  intro u
  by_cases hu : u.mem = mem
  · have hread : AllEvents mem q u (u.emit (.load a n)) := by
      refine fun _ => ⟨hu, [.load a n], rfl, fun e he => ?_⟩
      rw [List.mem_singleton.mp he]
      exact ha
    apply Ensures.bind_eq (Q := fun w => w = u.emit (.load a n)) (v := mem.read a n)
    · rintro w rfl
      exact ⟨by rw [hu], rfl⟩
    · exact (hf _).mono (fun _ _ h => hread.trans h) fun _ _ h => hread.trans h
  · exact Ensures.of_forall (fun _ _ h => absurd h hu) fun _ _ h => absurd h hu

theorem Admits.countFrom {body : ℕ → Wrap Unit} {i c : ℕ}
    (hbody : ∀ l < i+c, Admits mem q (body l)) : Admits mem q (Effects.countFrom body i c) := by
  induction c generalizing i with
  | zero => exact Admits.pure ()
  | succ c ih =>
    apply (hbody i (by omega)).bind
    intro _
    apply ih
    intro l hl
    exact hbody l (by omega)

theorem Admits.forInt {body : ℕ → Wrap Unit} {c : ℕ} (hbody : ∀ i < c, Admits mem q (body i)) :
    Admits mem q (forInt c body) := by
  apply Admits.countFrom
  intro i hi
  apply (hbody i (by omega)).bind
  intro _
  split_ifs
  · exact Admits.halt _
  · exact Admits.pure ()

theorem Admits.eventsOf {w : World} (hm : Admits w.mem q m) : ∀ e ∈ w.eventsOf m, q e := by
  obtain ⟨-, es, htrace, hes⟩ := World.after_of_ensures (hm w) rfl
  rw [World.eventsOf_eq htrace]
  exact hes

theorem Certain.eventsOf {w : World} (hm : Certain w.tracker w.mem q m) :
    ∃ e ∈ w.eventsOf m, q e := by
  obtain ⟨es, htrace, hes⟩ := World.after_of_ensures (hm w ⟨rfl, rfl⟩)
  rw [World.eventsOf_eq htrace]
  exact hes

end Panloader
