import Mathlib.Data.Nat.Notation

/-! Programs that pass a state along and may end abruptly: assertions about both
kinds of end, and the loop that counts upwards. -/
namespace Effects

variable {ε σ α β : Type}

theorem bind_ok {m : EStateM ε σ α} {f : α → EStateM ε σ β} {s t : σ} {a : α}
    (h : m s = .ok a t) : (m >>= f) s = f a t := by
  change EStateM.bind m f s = _
  unfold EStateM.bind
  rw [h]

theorem bind_error {m : EStateM ε σ α} {f : α → EStateM ε σ β} {s t : σ} {e : ε}
    (h : m s = .error e t) : (m >>= f) s = .error e t := by
  change EStateM.bind m f s = _
  unfold EStateM.bind
  rw [h]

/-- From a state in `P`, a normal end of `m` satisfies `Q` and an abrupt one `E`. -/
def Ensures (P : σ → Prop) (m : EStateM ε σ α) (Q : α → σ → Prop) (E : ε → σ → Prop) : Prop :=
  ∀ s, P s → match m s with
    | .ok a t => Q a t
    | .error e t => E e t

theorem Ensures.pure {P : σ → Prop} {E : ε → σ → Prop} (a : α) :
    Ensures P (Pure.pure a : EStateM ε σ α) (fun _ => P) E :=
  fun _ hs => hs

theorem Ensures.bind {P : σ → Prop} {Q : α → σ → Prop} {R : β → σ → Prop} {E : ε → σ → Prop}
    {m : EStateM ε σ α} {f : α → EStateM ε σ β}
    (hm : Ensures P m Q E) (hf : ∀ a, Ensures (Q a) (f a) R E) : Ensures P (m >>= f) R E := by
  intro s hs
  have h := hm s hs
  cases hr : m s with
  | ok a t =>
    rw [hr] at h
    rw [bind_ok hr]
    exact hf a t h
  | error e t =>
    rw [hr] at h
    rw [bind_error hr]
    exact h

theorem Ensures.of_forall {P : σ → Prop} {Q : α → σ → Prop} {E : ε → σ → Prop} {m : EStateM ε σ α}
    (hQ : ∀ a s, Q a s) (hE : ∀ e s, E e s) : Ensures P m Q E := by
  intro s _
  cases m s with
  | ok a t => exact hQ a t
  | error e t => exact hE e t

/-- A fact that does not depend on the state can be used in the proof. -/
theorem Ensures.of_fact {p : Prop} {P : σ → Prop} {Q : α → σ → Prop} {E : ε → σ → Prop}
    {m : EStateM ε σ α} (hm : p → Ensures P m Q E) : Ensures (fun s => p ∧ P s) m Q E :=
  fun s hs => hm hs.1 s hs.2

/-- A first part whose value is known. -/
theorem Ensures.bind_eq {P : σ → Prop} {Q : σ → Prop} {R : β → σ → Prop} {E : ε → σ → Prop}
    {m : EStateM ε σ α} {f : α → EStateM ε σ β} {v : α}
    (hm : Ensures P m (fun a s => a = v ∧ Q s) E) (hf : Ensures Q (f v) R E) :
    Ensures P (m >>= f) R E := by
  apply hm.bind
  intro a
  apply Ensures.of_fact
  intro ha
  rw [ha]
  exact hf

theorem Ensures.mono {P : σ → Prop} {Q Q' : α → σ → Prop} {E E' : ε → σ → Prop}
    {m : EStateM ε σ α} (hm : Ensures P m Q E) (hQ : ∀ a s, Q a s → Q' a s)
    (hE : ∀ e s, E e s → E' e s) : Ensures P m Q' E' := by
  intro s hs
  have h := hm s hs
  cases hr : m s with
  | ok a t =>
    rw [hr] at h
    exact hQ a t h
  | error e t =>
    rw [hr] at h
    exact hE e t h

theorem Ensures.mono_error {P : σ → Prop} {Q : α → σ → Prop} {E E' : ε → σ → Prop}
    {m : EStateM ε σ α} (hm : Ensures P m Q E) (hE : ∀ e s, E e s → E' e s) : Ensures P m Q E' :=
  hm.mono (fun _ _ hs => hs) hE

theorem Ensures.map {P : σ → Prop} {R : β → σ → Prop} {E : ε → σ → Prop} {m : EStateM ε σ α}
    (f : α → β) (hm : Ensures P m (fun a => R (f a)) E) : Ensures P (f <$> m) R E := by
  intro s hs
  have h := hm s hs
  change match EStateM.map f m s with
    | .ok a t => R a t
    | .error e t => E e t
  unfold EStateM.map
  cases hr : m s with
  | ok a t =>
    rw [hr] at h
    exact h
  | error e t =>
    rw [hr] at h
    exact h

/-- The normal end of a run read off an assertion. -/
theorem Ensures.ok {P : σ → Prop} {Q : α → σ → Prop} {E : ε → σ → Prop} {m : EStateM ε σ α}
    (hm : Ensures P m Q E) {s t : σ} {a : α} (hs : P s) (hr : m s = .ok a t) : Q a t := by
  have h := hm s hs
  rw [hr] at h
  exact h

/-- Every end of `m` is related to its start. -/
def Relates (R : σ → σ → Prop) (m : EStateM ε σ α) : Prop :=
  ∀ s, Ensures (fun t => t = s) m (fun _ => R s) (fun _ => R s)

theorem Relates.of_ok {R : σ → σ → Prop} {m : EStateM ε σ α}
    (h : ∀ s, ∃ a t, m s = .ok a t ∧ R s t) : Relates R m := by
  intro s t hst
  obtain ⟨a, u, hr, hR⟩ := h t
  rw [hr, ← hst]
  exact hR

theorem Relates.bind {R S T : σ → σ → Prop} {m : EStateM ε σ α} {f : α → EStateM ε σ β}
    (hm : Relates R m) (hf : ∀ a, Relates S (f a)) (hstop : ∀ s t, R s t → T s t)
    (hgo : ∀ s t u, R s t → S t u → T s u) : Relates T (m >>= f) := by
  intro s
  apply ((hm s).mono_error fun _ t => hstop s t).bind
  intro a t ht
  exact (hf a t).mono (fun _ u => hgo s t u ht) (fun _ u => hgo s t u ht) t rfl

theorem Relates.mono {R S : σ → σ → Prop} {m : EStateM ε σ α} (hm : Relates R m)
    (h : ∀ s t, R s t → S s t) : Relates S m :=
  fun s => (hm s).mono (fun _ => h s) (fun _ => h s)

/-- `body i`, `body (i+1)`, ... for `n` turns. -/
def countFrom (body : ℕ → EStateM ε σ Unit) : ℕ → ℕ → EStateM ε σ Unit
  | _, 0 => pure ()
  | i, n+1 => do
    body i
    countFrom body (i+1) n

/-- A loop invariant indexed by the counter. -/
theorem Ensures.countFrom {I : ℕ → σ → Prop} {E : ε → σ → Prop}
    {body : ℕ → EStateM ε σ Unit}
    (hbody : ∀ j, Ensures (I j) (body j) (fun _ => I (j+1)) E) (i n : ℕ) :
    Ensures (I i) (Effects.countFrom body i n) (fun _ => I (i+n)) E := by
  induction n generalizing i with
  | zero => exact Ensures.pure ()
  | succ n ih =>
    -- the rest of the loop starts one higher and ends at the same counter
    have hend : i+1+n = i+(n+1) := by omega
    have hrest := ih (i+1)
    rw [hend] at hrest
    exact (hbody i).bind fun _ => hrest

end Effects
