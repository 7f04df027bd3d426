import Mathlib.Tactic.SplitIfs
import Panloader.Decides

/-! Programs that may stop with one error only, a reported one. A part of a program is looked at
where the parts before it end normally. -/
namespace Effects

variable {ε σ α β : Type} {e : ε} {I : σ → Prop} {P Q R : Prop} {m : EStateM ε σ α}
  {f : α → EStateM ε σ β}

/-- From a state in `I`, `m` ends normally or with the error `e` if `P` holds, and with another
error if not. -/
def EndsWith (e : ε) (I : σ → Prop) (m : EStateM ε σ α) (P : Prop) : Prop :=
  Ensures I m (fun _ _ => P) (fun h _ => h = e ↔ P)

theorem EndsWith.congr (hm : EndsWith e I m P) (hPQ : P ↔ Q) : EndsWith e I m Q :=
  Ensures.mono hm (fun _ _ hP => hPQ.mp hP) fun _ _ hh => hh.trans hPQ

theorem EndsWith.of_total [ht : Total I m] : EndsWith e I m True :=
  ht.ensures.mono (fun _ _ _ => trivial) fun _ _ hh => hh.elim

/-- A program that stops with other errors only. -/
theorem EndsWith.of_decides (hd : Decides I m P)
    (hother : Ensures I m (fun _ _ => True) (fun h _ => h ≠ e)) : EndsWith e I m P := by
  intro s hs
  have hend := hd s hs
  have hne := hother s hs
  cases hr : m s with
  | ok a t =>
    rw [hr] at hend
    exact hend.1
  | error h t =>
    rw [hr] at hend hne
    exact iff_of_false hne hend

/-- A program that stops with `e` only. -/
theorem EndsWith.of_error (hm : Ensures I m (fun _ _ => True) (fun h _ => h = e)) :
    EndsWith e I m True :=
  hm.mono (fun _ _ _ => trivial) fun _ _ hh => iff_of_true hh trivial

theorem EndsWith.seq [ht : Total I m] (hf : ∀ a, EndsWith e I (f a) P) :
    EndsWith e I (m >>= f) P :=
  Ensures.bind (ht.ensures.mono_error fun _ _ hh => hh.elim) hf

theorem EndsWith.seq_value {v : α}
    (hm : Ensures I m (fun a s => a = v ∧ I s) (fun _ _ => False)) (hf : EndsWith e I (f v) P) :
    EndsWith e I (m >>= f) P :=
  Ensures.bind_eq (hm.mono_error fun _ _ hh => hh.elim) hf

/-- The rest counts where the first part ends normally. -/
theorem EndsWith.bind (hd : Decides I m R) (hm : EndsWith e I m P)
    (hf : ∀ a, EndsWith e I (f a) Q) : EndsWith e I (m >>= f) (P ∧ (R → Q)) := by
  intro s hs
  have hdecides := hd s hs
  have hends := hm s hs
  cases hr : m s with
  | ok a t =>
    rw [hr] at hdecides hends
    obtain ⟨hR, ht⟩ := hdecides
    have hP : P := hends
    have hiff : Q ↔ P ∧ (R → Q) := ⟨fun hQ => ⟨hP, fun _ => hQ⟩, fun h => h.2 hR⟩
    rw [bind_ok hr]
    exact (hf a).congr hiff t ht
  | error h t =>
    rw [hr] at hdecides hends
    have hR : ¬R := hdecides
    rw [bind_error hr]
    exact Iff.trans hends (and_iff_left_of_imp fun _ hr => absurd hr hR).symm

/-- A first part with a value where the option `o` has one, and the error `e` where not. -/
theorem EndsWith.seq_option {o : Option α} {S : α → Prop}
    (hm : Ensures I m (fun a s => o = some a ∧ I s) (fun h _ => o = none ∧ h = e))
    (hf : ∀ a, o = some a → EndsWith e I (f a) (S a)) :
    EndsWith e I (m >>= f) (∀ a, o = some a → S a) := by
  apply Ensures.bind (Q := fun a s => o = some a ∧ I s)
  · apply hm.mono_error
    rintro h s ⟨hnone, rfl⟩
    rw [hnone]
    exact iff_of_true rfl fun a ha => nomatch ha
  · intro a
    apply Ensures.of_fact
    intro ha
    have hS : S a ↔ ∀ b, o = some b → S b := by
      simp only [ha, Option.some.injEq, forall_eq']
    exact (hf a ha).congr hS

theorem EndsWith.ite {c : Prop} [Decidable c] {m' : EStateM ε σ α} (ht : EndsWith e I m P)
    (he : EndsWith e I m' Q) : EndsWith e I (if c then m else m') (if c then P else Q) := by
  by_cases h : c
  · simpa only [if_pos h] using ht
  · simpa only [if_neg h] using he

/-- A turn of the loop counts where the turns before it end normally. -/
theorem EndsWith.countFrom {body : ℕ → EStateM ε σ Unit} {R P : ℕ → Prop}
    (hd : ∀ i, Decides I (body i) (R i)) (hbody : ∀ i, EndsWith e I (body i) (P i)) (i n : ℕ) :
    EndsWith e I (Effects.countFrom body i n)
      (∀ j, i ≤ j → j < i+n → (∀ k, i ≤ k → k < j → R k) → P j) := by
  induction n generalizing i with
  | zero =>
    have hnone : True ↔ ∀ j, i ≤ j → j < i+0 → (∀ k, i ≤ k → k < j → R k) → P j :=
      iff_of_true trivial fun j hij hji => absurd hji (Nat.not_lt_of_le hij)
    exact EndsWith.congr (fun _ _ => trivial) hnone
  | succ n ih =>
    apply (EndsWith.bind (hd i) (hbody i) fun _ => ih (i+1)).congr
    constructor
    · rintro ⟨hi, hrest⟩ j hij hji hbefore
      rcases Nat.eq_or_lt_of_le hij with rfl | hlt
      · exact hi
      · apply hrest (hbefore i (Nat.le_refl i) hlt) j hlt (by omega)
        intro k hk hkj
        exact hbefore k (by omega) hkj
    · intro h
      have hfirst := h i (Nat.le_refl i) (by omega) fun k hk hki => absurd hki (by omega)
      refine ⟨hfirst, fun hi j hij hji hbefore => h j (by omega) (by omega) fun k hk hkj => ?_⟩
      rcases Nat.eq_or_lt_of_le hk with rfl | hlt
      · exact hi
      · exact hbefore k hlt hkj

/-- A loop of checks ends normally if all of them pass. -/
theorem Decides.checks {body : ℕ → EStateM ε σ Unit} {ok : ℕ → Prop}
    (hd : ∀ i, Decides I (body i) (ok i)) (n : ℕ) :
    Decides I (Effects.countFrom body 0 n) (∀ i < n, ok i) := by
  apply (Decides.countFrom hd 0 n).congr
  constructor
  · intro h i hi
    exact h i (Nat.zero_le i) (by omega)
  · intro h i _ hi
    exact h i (by omega)

/-- The first check that fails leads to a report, which ends with `e` if `D`. -/
theorem EndsWith.checks {body : ℕ → EStateM ε σ Unit} {ok : ℕ → Prop} {D : Prop}
    (hd : ∀ i, Decides I (body i) (ok i)) (hbody : ∀ i, EndsWith e I (body i) (¬ok i → D))
    (n : ℕ) :
    EndsWith e I (Effects.countFrom body 0 n) (¬(∀ i < n, ok i) → D) := by
  apply (EndsWith.countFrom hd hbody 0 n).congr
  constructor
  · intro h hfails
    by_cases hD : D
    · exact hD
    · apply absurd ?_ hfails
      intro i
      -- all checks before `i` have passed
      induction i using Nat.strongRecOn with
      | ind i ih =>
        intro hi
        by_cases hok : ok i
        · exact hok
        · exact absurd (h i (Nat.zero_le i) (by omega) (fun k _ hk => ih k hk (by omega)) hok) hD
  · intro h j _ hj _ hnot
    exact h fun hall => hnot (hall j (by omega))

/-- Where `m` does not end normally, `P` tells whether the error is `e`. -/
theorem EndsWith.error_iff (hm : EndsWith e I m P) (hd : Decides I m R) {s : σ} (hs : I s)
    (hR : ¬R) : (∃ t, m s = .error e t) ↔ P := by
  have hend := hm s hs
  have hdecides := hd s hs
  cases hr : m s with
  | ok a t =>
    rw [hr] at hdecides
    exact absurd hdecides.1 hR
  | error h t =>
    rw [hr] at hend
    apply Iff.trans ?_ hend
    constructor
    · rintro ⟨u, hu⟩
      cases hu
      rfl
    · rintro rfl
      exact ⟨t, rfl⟩

/-- What `P` tells is whether `m` ends normally or with `e`. -/
theorem EndsWith.iff (hm : EndsWith e I m P) {s : σ} (hs : I s) :
    (∀ h t, m s = .error h t → h = e) ↔ P := by
  have hend := hm s hs
  cases hr : m s with
  | ok a t =>
    rw [hr] at hend
    exact iff_of_true (fun h u hu => nomatch hu) hend
  | error h t =>
    rw [hr] at hend
    refine Iff.trans ⟨fun hall => hall h t rfl, ?_⟩ hend
    rintro rfl h u hu
    cases hu
    rfl

def NeverReturns (m : EStateM ε σ α) : Prop := ∀ s a t, m s ≠ .ok a t

theorem NeverReturns.after (hf : ∀ a, NeverReturns (f a)) : NeverReturns (m >>= f) := by
  intro s b u h
  cases hr : m s with
  | ok a t =>
    rw [bind_ok hr] at h
    exact hf a t b u h
  | error x t =>
    rw [bind_error hr] at h
    exact nomatch h

theorem NeverReturns.decides (hm : NeverReturns m) : Decides I m False := by
  intro s _
  cases hr : m s with
  | ok a t => exact (hm s a t hr).elim
  | error x t => exact not_false

end Effects
