import Panloader.Effects

/-! Programs that do not depend on a part of their state. -/
namespace Effects

variable {ε σ α β : Type}

/-- The same end, in the state that `r` leaves of the one reached. -/
def erase (r : σ → σ) : EStateM.Result ε σ α → EStateM.Result ε σ α
  | .ok a s => .ok a (r s)
  | .error e s => .error e (r s)

/-- Without what `r` erases from a state, `m` goes on in the same way: it ends alike, and in the
same state once that part is erased. -/
class Blind (r : σ → σ) (m : EStateM ε σ α) : Prop where
  erases : ∀ s, erase r (m s) = m (r s)

section Rules

variable {r : σ → σ} {m m' : EStateM ε σ α} {f : α → EStateM ε σ β} {s t : σ} {a : α} {e : ε}

theorem Blind.ok (hm : Blind r m) (h : m s = .ok a t) : m (r s) = .ok a (r t) := by
  rw [← hm.erases, h]
  rfl

theorem Blind.error (hm : Blind r m) (h : m s = .error e t) : m (r s) = .error e (r t) := by
  rw [← hm.erases, h]
  rfl

/-- A normal end without the erased part is one of the whole state. -/
theorem Blind.lift (hm : Blind r m) (h : m (r s) = .ok a t) : ∃ t', m s = .ok a t' ∧ t = r t' := by
  rw [← hm.erases] at h
  cases hr : m s with
  | ok b t' =>
    rw [hr] at h
    obtain ⟨rfl, rfl⟩ := EStateM.Result.ok.inj h
    exact ⟨t', rfl, rfl⟩
  | error e t' =>
    rw [hr] at h
    cases h

instance blind_pure (a : α) : Blind r (pure a : EStateM ε σ α) where
  erases _ := rfl

instance blind_bind [hm : Blind r m] [hf : ∀ a, Blind r (f a)] : Blind r (m >>= f) where
  erases s := by
    cases hr : m s with
    | ok a t => rw [bind_ok hr, bind_ok (hm.ok hr), (hf a).erases]
    | error e t =>
      rw [bind_error hr, bind_error (hm.error hr)]
      rfl

instance blind_ite {p : Prop} [Decidable p] [hm : Blind r m] [hm' : Blind r m'] :
    Blind r (if p then m else m') := by
  split
  · exact hm
  · exact hm'

instance blind_map (g : α → β) [hm : Blind r m] : Blind r (g <$> m) where
  erases s := by
    change erase r (EStateM.map g m s) = EStateM.map g m (r s)
    unfold EStateM.map
    rw [← hm.erases]
    cases m s with
    | ok a t => rfl
    | error e t => rfl

end Rules
end Effects
