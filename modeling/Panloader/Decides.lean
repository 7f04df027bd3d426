import Mathlib.Logic.Basic
import Panloader.Effects

/-! Programs that end normally under an exact condition. The condition is fixed where a
program starts, and the states it may pass through keep an invariant. -/
namespace Effects

variable {ε σ α β : Type} {I : σ → Prop} {P Q : Prop} {m : EStateM ε σ α}
  {f : α → EStateM ε σ β}

/-- From a state in `I`, `m` ends normally, in `I` again, if `P` holds, and abruptly if not. -/
def Decides (I : σ → Prop) (m : EStateM ε σ α) (P : Prop) : Prop :=
  Ensures I m (fun _ s => P ∧ I s) (fun _ _ => ¬P)

/-- From a state in `I`, `m` ends normally and in `I` again. -/
class Total (I : σ → Prop) (m : EStateM ε σ α) : Prop where
  ensures : Ensures I m (fun _ => I) (fun _ _ => False)

theorem Decides.congr (h : Decides I m P) (hPQ : P ↔ Q) : Decides I m Q :=
  h.mono (fun _ _ ha => ⟨hPQ.mp ha.1, ha.2⟩) fun _ _ he hQ => he (hPQ.mpr hQ)

theorem Decides.of_total [ht : Total I m] : Decides I m True :=
  ht.ensures.mono (fun _ _ hs => ⟨trivial, hs⟩) fun _ _ he => he.elim

theorem Total.returns [ht : Total I m] {s : σ} (hs : I s) : ∃ a t, m s = .ok a t ∧ I t := by
  have hend := ht.ensures s hs
  cases hr : m s with
  | ok a t =>
    rw [hr] at hend
    exact ⟨a, t, rfl, hend⟩
  | error e t =>
    rw [hr] at hend
    exact hend.elim

/-- What is decided is whether there is a result. -/
theorem Decides.ok_iff (h : Decides I m P) {s : σ} (hs : I s) :
    (∃ a t, m s = .ok a t) ↔ P := by
  have hm := h s hs
  cases hr : m s with
  | ok a t =>
    rw [hr] at hm
    exact iff_of_true ⟨a, t, rfl⟩ hm.1
  | error e t =>
    rw [hr] at hm
    refine iff_of_false ?_ hm
    rintro ⟨a, u, hok⟩
    exact nomatch hok

/-- A program without a result. -/
theorem Decides.returns_iff {m : EStateM ε σ Unit} (h : Decides I m P) {s : σ} (hs : I s) :
    (∃ t, m s = .ok () t) ↔ P := by
  rw [← h.ok_iff hs]
  constructor
  · rintro ⟨t, hr⟩
    exact ⟨(), t, hr⟩
  · rintro ⟨u, t, hr⟩
    exact ⟨t, hr⟩

/-- A first part that always ends normally. -/
theorem Decides.seq [ht : Total I m] (hf : ∀ a, Decides I (f a) P) : Decides I (m >>= f) P :=
  Ensures.bind (ht.ensures.mono_error fun _ _ he => he.elim) hf

/-- A first part that always ends normally, with the value `v`. -/
theorem Decides.seq_value {v : α}
    (hm : Ensures I m (fun a s => a = v ∧ I s) (fun _ _ => False)) (hf : Decides I (f v) P) :
    Decides I (m >>= f) P :=
  Ensures.bind_eq (hm.mono_error fun _ _ he => he.elim) hf

/-- A first part with a condition of its own. -/
theorem Decides.bind (hm : Decides I m P) (hf : ∀ a, Decides I (f a) Q) :
    Decides I (m >>= f) (P ∧ Q) := by
  apply Ensures.bind (Q := fun _ s => P ∧ I s)
  · exact hm.mono_error fun _ _ hnot hPQ => hnot hPQ.1
  · intro a
    apply Ensures.of_fact
    intro hP
    have hQ : Q ↔ P ∧ Q := ⟨fun hq => ⟨hP, hq⟩, fun hPQ => hPQ.2⟩
    exact (hf a).congr hQ

/-- A first part that ends normally where the option `o` has a value, with that value. -/
theorem Decides.seq_option {o : Option α} {R : α → Prop}
    (hm : Ensures I m (fun a s => o = some a ∧ I s) (fun _ _ => o = none))
    (hf : ∀ a, o = some a → Decides I (f a) (R a)) :
    Decides I (m >>= f) (∃ a, o = some a ∧ R a) := by
  apply Ensures.bind (Q := fun a s => o = some a ∧ I s)
  · refine hm.mono_error fun _ _ hnone hsome => ?_
    obtain ⟨a, ha, -⟩ := hsome
    rw [hnone] at ha
    exact nomatch ha
  · intro a
    apply Ensures.of_fact
    intro ha
    have hR : R a ↔ ∃ b, o = some b ∧ R b := by
      simp only [ha, Option.some.injEq, exists_eq_left']
    exact (hf a ha).congr hR

theorem Decides.ite {c : Prop} [Decidable c] {m' : EStateM ε σ α} (ht : Decides I m P)
    (he : Decides I m' Q) : Decides I (if c then m else m') (if c then P else Q) := by
  by_cases h : c
  · simpa only [if_pos h] using ht
  · simpa only [if_neg h] using he

/-- The loop ends normally if its body does on every turn. -/
theorem Decides.countFrom {body : ℕ → EStateM ε σ Unit} {P : ℕ → Prop}
    (hbody : ∀ i, Decides I (body i) (P i)) (i n : ℕ) :
    Decides I (Effects.countFrom body i n) (∀ j, i ≤ j → j < i+n → P j) := by
  induction n generalizing i with
  | zero =>
    have hnone : True ↔ ∀ j, i ≤ j → j < i+0 → P j :=
      iff_of_true trivial fun j hij hji => absurd hji (Nat.not_lt_of_le hij)
    exact Decides.congr (fun _ hs => ⟨trivial, hs⟩) hnone
  | succ n ih =>
    refine ((hbody i).bind fun _ => ih (i+1)).congr ?_
    constructor
    · rintro ⟨hi, hrest⟩ j hij hji
      rcases Nat.eq_or_lt_of_le hij with rfl | hlt
      · exact hi
      · exact hrest j hlt (by omega)
    · intro h
      exact ⟨h i (Nat.le_refl i) (by omega), fun j hij hji => h j (by omega) (by omega)⟩

section Instances

instance total_pure (a : α) : Total I (pure a : EStateM ε σ α) where
  ensures _ hs := hs

instance total_bind [hm : Total I m] [hf : ∀ a, Total I (f a)] : Total I (m >>= f) where
  ensures := hm.ensures.bind fun a => (hf a).ensures

instance total_ite {c : Prop} [Decidable c] {m' : EStateM ε σ α} [ht : Total I m]
    [he : Total I m'] : Total I (if c then m else m') := by
  split
  · exact ht
  · exact he

end Instances
end Effects
