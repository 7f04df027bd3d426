import Mathlib.Logic.Function.Iterate

/-! Walks from place to place under a condition, where the places come round again: a walk that
comes to an end at all does so in one round. -/
namespace Walks

variable {ι : Type} {A B : ι → Prop} {next : ι → ι}

/-- The walk from `i` comes to an end: `A` holds where it comes to, and it goes on where `B`
holds. -/
inductive Ends (A B : ι → Prop) (next : ι → ι) : ι → Prop
  | intro {i : ι} : A i → (B i → Ends A B next (next i)) → Ends A B next i

/-- It does so in less than `n` steps. -/
def Within (A B : ι → Prop) (next : ι → ι) : ℕ → ι → Prop
  | 0, _ => False
  | n+1, i => A i ∧ (B i → Within A B next n (next i))

theorem Within.mono {n k : ℕ} (hnk : n ≤ k) {i : ι} (h : Within A B next n i) :
    Within A B next k i := by
  induction n generalizing k i with
  | zero => exact h.elim
  | succ n ih =>
    obtain ⟨k, rfl⟩ : ∃ l, k = l+1 := ⟨k-1, by omega⟩
    exact ⟨h.1, fun hB => ih (by omega) (h.2 hB)⟩

/-- A walk ends in its first `j` steps, or what comes after these ends in the others. -/
theorem Within.split (n j : ℕ) {i : ι} (h : Within A B next (n+j) i) :
    Within A B next j i ∨ Within A B next n (next^[j] i) := by
  induction j generalizing i with
  | zero => exact .inr h
  | succ j ih =>
    obtain ⟨hA, hrest⟩ := h
    by_cases hB : B i
    · rcases ih (hrest hB) with hfirst | hlater
      · exact .inl ⟨hA, fun _ => hfirst⟩
      · exact .inr hlater
    · exact .inl ⟨hA, fun h => absurd h hB⟩

/-- A walk that ends does so before it is back where it was. -/
theorem Within.one_round {k : ℕ} (hk : 0 < k) (hround : ∀ i, next^[k] i = i) {n : ℕ} {i : ι}
    (h : Within A B next n i) : Within A B next k i := by
  induction n using Nat.strongRecOn with
  | ind n ih =>
    by_cases hn : n ≤ k
    · exact h.mono hn
    · obtain ⟨l, rfl⟩ : ∃ l, n = l + k := ⟨n - k, by omega⟩
      -- a walk that is longer than one round is as long as the one after that round
      rcases h.split with hfirst | hlater
      · exact hfirst
      · rw [hround] at hlater
        exact ih l (by omega) hlater

theorem Within.ends {n : ℕ} {i : ι} (h : Within A B next n i) : Ends A B next i := by
  induction n generalizing i with
  | zero => exact h.elim
  | succ n ih => exact .intro h.1 fun hB => ih (h.2 hB)

theorem Ends.exists_within {i : ι} (h : Ends A B next i) : ∃ n, Within A B next n i := by
  induction h with
  | @intro i hA hrest ih =>
    by_cases hB : B i
    · obtain ⟨n, hn⟩ := ih hB
      exact ⟨n+1, hA, fun _ => hn⟩
    · exact ⟨1, hA, fun h => absurd h hB⟩

theorem within_round_iff {k : ℕ} (hk : 0 < k) (hround : ∀ i, next^[k] i = i) {i : ι} :
    Within A B next k i ↔ Ends A B next i := by
  constructor
  · exact Within.ends
  · intro h
    obtain ⟨n, hn⟩ := h.exists_within
    exact hn.one_round hk hround

end Walks
