import Mathlib.Data.List.Basic

/-! Histories that grow at their end: conditions on each element with what came before it,
conditions that hold ever since some element, and histories made of parts. -/
namespace Histories

variable {α : Type} {P : List α → α → Prop} {p q : α → Prop} {l : List α} {x : α}

/-- A split of a longer history is at its last element, or before it. -/
theorem split_snoc {before after : List α} {y : α} (h : l ++ [x] = before ++ y :: after) :
    (before = l ∧ y = x ∧ after = []) ∨
      ∃ after', after = after' ++ [x] ∧ l = before ++ y :: after' := by
  rcases List.eq_nil_or_concat after with rfl | ⟨after', z, rfl⟩
  · obtain ⟨hl, hx⟩ := List.append_inj' h rfl
    exact .inl ⟨hl.symm, (List.singleton_inj.mp hx).symm, rfl⟩
  · rw [List.concat_eq_append, ← List.cons_append, ← List.append_assoc] at h
    obtain ⟨hl, hx⟩ := List.append_inj' h rfl
    rw [List.concat_eq_append, List.singleton_inj.mp hx]
    exact .inr ⟨after', rfl, hl⟩

/-- `P` holds of every element, with the elements before it. -/
def AtEvery (P : List α → α → Prop) (l : List α) : Prop :=
  ∀ before x after, l = before ++ x :: after → P before x

theorem AtEvery.nil (P : List α → α → Prop) : AtEvery P [] := by
  intro before x after h
  exact absurd h (by simp)

theorem AtEvery.snoc_iff : AtEvery P (l ++ [x]) ↔ AtEvery P l ∧ P l x := by
  constructor
  · intro h
    refine ⟨fun before y after hsplit => h before y (after ++ [x]) ?_, h l x [] rfl⟩
    rw [hsplit, List.append_assoc, List.cons_append]
  · intro ⟨hold, hlast⟩ before y after hsplit
    obtain ⟨rfl, rfl, rfl⟩ | ⟨after', rfl, rfl⟩ := split_snoc hsplit
    · exact hlast
    · exact hold before y after' rfl

/-- Some element satisfies `p` and all after it satisfy `q`. -/
def EverSince (p q : α → Prop) (l : List α) : Prop :=
  ∃ before x after, l = before ++ x :: after ∧ p x ∧ ∀ y ∈ after, q y

theorem not_everSince_nil : ¬EverSince p q [] := by
  intro ⟨before, x, after, h, _⟩
  exact absurd h (by simp)

theorem everSince_snoc : EverSince p q (l ++ [x]) ↔ p x ∨ (q x ∧ EverSince p q l) := by
  constructor
  · intro ⟨before, y, after, hsplit, hp, hq⟩
    obtain ⟨rfl, rfl, rfl⟩ | ⟨after', rfl, rfl⟩ := split_snoc hsplit
    · exact .inl hp
    · have hx : q x := hq x (by simp)
      have hold : ∀ y ∈ after', q y := fun y hy => hq y (List.mem_append_left _ hy)
      exact .inr ⟨hx, before, y, after', rfl, hp, hold⟩
  · intro h
    obtain hp | ⟨hx, before, y, after, rfl, hp, hq⟩ := h
    · exact ⟨l, x, [], rfl, hp, by simp⟩
    · refine ⟨before, y, after ++ [x], by simp, hp, fun z hz => ?_⟩
      obtain hz | hz := List.mem_append.mp hz
      · exact hq z hz
      · rwa [List.mem_singleton.mp hz]

/-- Parts of the same lengths make the same history only if they are the same. -/
theorem flatMap_range_eq_iff {f g : ℕ → List α} (hlength : ∀ i, (f i).length = (g i).length)
    {n : ℕ} : (List.range n).flatMap f = (List.range n).flatMap g ↔ ∀ i < n, f i = g i := by
  induction n with
  | zero => simp
  | succ n ih =>
    simp only [List.range_succ, List.flatMap_append, List.flatMap_singleton]
    constructor
    · intro h i hi
      obtain ⟨hfirst, hlast⟩ := List.append_inj' h (hlength n)
      obtain rfl | hi := Nat.eq_or_lt_of_le (Nat.le_of_lt_succ hi)
      · exact hlast
      · exact ih.mp hfirst i hi
    · intro h
      rw [ih.mpr fun i hi => h i (by omega), h n (by omega)]

end Histories
