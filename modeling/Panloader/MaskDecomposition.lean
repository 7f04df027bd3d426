import Mathlib.Data.Nat.Notation

/-! A word taken apart by a list of masks: each mask that is there is taken out before the next
one is looked for. -/
namespace Masks

variable {ι : Type} {n : ℕ}

/-- The entries whose masks are found, each in what the ones before it have left. -/
def taken (mask : ι → BitVec n) : List ι → BitVec n → List ι
  | [], _ => []
  | x :: xs, v =>
    if v &&& mask x = mask x then x :: taken mask xs (v &&& ~~~mask x) else taken mask xs v

/-- What is left when all masks have been looked for. -/
def left (mask : ι → BitVec n) : List ι → BitVec n → BitVec n
  | [], v => v
  | x :: xs, v => if v &&& mask x = mask x then left mask xs (v &&& ~~~mask x) else left mask xs v

def union (masks : List (BitVec n)) : BitVec n := masks.foldr (· ||| ·) 0

section Words

variable {v m u : BitVec n}

theorem or_and_not (h : v &&& m = m) : m ||| (v &&& ~~~m) = v := by
  ext i hi
  have hbit := congrArg (fun x : BitVec n => x[i]) h
  simp only [BitVec.getElem_and] at hbit
  simp only [BitVec.getElem_or, BitVec.getElem_and, BitVec.getElem_not]
  -- a bit of the mask is one of the word
  cases hv : v[i] <;> cases hm : m[i] <;> simp_all

theorem and_trans (hu : v &&& u = u) (hm : u &&& m = m) : v &&& m = m := by
  rw [← hm, ← BitVec.and_assoc, hu]

theorem and_of_and_not (h : (v &&& ~~~m) &&& u = u) : v &&& u = u := by
  refine and_trans ?_ h
  rw [← BitVec.and_assoc, BitVec.and_self]

theorem disjoint_of_and_not (h : (v &&& ~~~m) &&& u = u) : m &&& u = 0 := by
  rw [← h]
  ext i hi
  simp only [BitVec.getElem_and, BitVec.getElem_not, BitVec.ofNat_eq_ofNat, BitVec.getElem_zero]
  cases m[i] <;> simp

theorem and_or_eq_zero_iff : v &&& (m ||| u) = 0 ↔ v &&& m = 0 ∧ v &&& u = 0 := by
  rw [BitVec.and_or_distrib_left]
  exact BitVec.or_eq_zero_iff

/-- A word lies within a mask if it has no bit outside. -/
theorem and_eq_self_iff : v &&& m = v ↔ v &&& ~~~m = 0 := by
  constructor
  · intro h
    rw [← h, BitVec.and_assoc, BitVec.and_not_self]
    exact BitVec.and_zero
  · intro h
    have hsplit : (v &&& m) ||| (v &&& ~~~m) = v := by
      rw [← BitVec.and_or_distrib_left, BitVec.or_not_self, BitVec.and_allOnes]
    rw [h] at hsplit
    exact BitVec.or_zero.symm.trans hsplit

end Words

section Decomposition

variable (mask : ι → BitVec n)

theorem taken_sublist (xs : List ι) (v : BitVec n) : (taken mask xs v).Sublist xs := by
  induction xs generalizing v with
  | nil => exact List.Sublist.slnil
  | cons x xs ih =>
    unfold taken
    by_cases h : v &&& mask x = mask x
    · rw [if_pos h]
      exact (ih _).cons_cons x
    · rw [if_neg h]
      exact (ih v).cons x

theorem and_left (xs : List ι) (v : BitVec n) : v &&& left mask xs v = left mask xs v := by
  induction xs generalizing v with
  | nil => exact BitVec.and_self
  | cons x xs ih =>
    unfold left
    by_cases h : v &&& mask x = mask x
    · rw [if_pos h]
      exact and_of_and_not (ih _)
    · rw [if_neg h]
      exact ih v

theorem and_taken (xs : List ι) (v : BitVec n) :
    ∀ x ∈ taken mask xs v, v &&& mask x = mask x := by
  induction xs generalizing v with
  | nil => exact fun x hx => absurd hx List.not_mem_nil
  | cons x xs ih =>
    intro y hy
    unfold taken at hy
    by_cases h : v &&& mask x = mask x
    · rw [if_pos h] at hy
      obtain rfl | hy := List.mem_cons.mp hy
      · exact h
      · exact and_of_and_not (ih _ y hy)
    · rw [if_neg h] at hy
      exact ih v y hy

/-- Nothing is lost and nothing is added. -/
theorem union_taken_or_left (xs : List ι) (v : BitVec n) :
    union ((taken mask xs v).map mask) ||| left mask xs v = v := by
  induction xs generalizing v with
  | nil => exact BitVec.zero_or
  | cons x xs ih =>
    unfold taken left
    by_cases h : v &&& mask x = mask x
    · rw [if_pos h, if_pos h]
      show mask x ||| union ((taken mask xs (v &&& ~~~mask x)).map mask) ||| _ = v
      rw [BitVec.or_assoc, ih, or_and_not h]
    · rw [if_neg h, if_neg h]
      exact ih v

/-- No bit is accounted for twice. -/
theorem pairwise_disjoint (xs : List ι) (v : BitVec n) :
    ((taken mask xs v).map mask ++ [left mask xs v]).Pairwise (fun a b => a &&& b = 0) := by
  induction xs generalizing v with
  | nil => exact List.pairwise_singleton _ _
  | cons x xs ih =>
    unfold taken left
    by_cases h : v &&& mask x = mask x
    · rw [if_pos h, if_pos h]
      refine List.pairwise_cons.mpr ⟨?_, ih _⟩
      -- all that follows comes from what the mask has left
      intro b hb
      obtain hb | hb := List.mem_append.mp hb
      · obtain ⟨y, hy, rfl⟩ := List.mem_map.mp hb
        exact disjoint_of_and_not (and_taken mask xs _ y hy)
      · rw [List.mem_singleton.mp hb]
        exact disjoint_of_and_not (and_left mask xs _)
    · rw [if_neg h, if_neg h]
      exact ih v

/-- A mask that is found in the remainder is zero. -/
theorem mask_eq_zero_of_left (xs : List ι) (v : BitVec n) :
    ∀ x ∈ xs, left mask xs v &&& mask x = mask x → mask x = 0 := by
  induction xs generalizing v with
  | nil => exact fun x hx => absurd hx List.not_mem_nil
  | cons x xs ih =>
    intro y hy hleft
    unfold left at hleft
    by_cases h : v &&& mask x = mask x
    · rw [if_pos h] at hleft
      obtain rfl | hy := List.mem_cons.mp hy
      · -- the remainder has no bit of a mask that was taken out
        have hdisjoint : mask y &&& left mask xs (v &&& ~~~mask y) = 0 :=
          disjoint_of_and_not (and_left mask xs _)
        rw [← hleft, BitVec.and_comm, hdisjoint]
      · exact ih _ y hy hleft
    · rw [if_neg h] at hleft
      obtain rfl | hy := List.mem_cons.mp hy
      · exact absurd (and_trans (and_left mask xs v) hleft) h
      · exact ih v y hy hleft

end Decomposition
end Masks
