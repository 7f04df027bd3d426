import Mathlib.Data.List.Iterate
import Panloader.Effects

/-! Loops with a cursor that moves on by the same step, until a turn says to stop or ends
abruptly: their runs, with the cursors of the turns, and rules for them. -/
namespace Effects

variable {ε σ ι : Type} {turn : ι → EStateM ε σ Bool} {next : ι → ι}

/-- A run of the loop from the cursor `i`: the cursors of its turns, in order, and its end. -/
inductive Loop (turn : ι → EStateM ε σ Bool) (next : ι → ι) :
    ι → σ → List ι → EStateM.Result ε σ Unit → Prop
  | stop {i : ι} {s t : σ} : turn i s = .ok false t → Loop turn next i s [i] (.ok () t)
  | abrupt {i : ι} {s t : σ} {e : ε} : turn i s = .error e t →
      Loop turn next i s [i] (.error e t)
  | more {i : ι} {s t : σ} {is : List ι} {r : EStateM.Result ε σ Unit} :
      turn i s = .ok true t → Loop turn next (next i) t is r → Loop turn next i s (i :: is) r

/-- The loop as a program that ends as `out` does after `n` turns. -/
def loopFor (turn : ι → EStateM ε σ Bool) (next : ι → ι) (out : EStateM ε σ Unit) :
    ℕ → ι → EStateM ε σ Unit
  | 0, _ => out
  | n+1, i => do
    let more ← turn i
    if more then loopFor turn next out n (next i) else pure ()

section Runs

variable {i : ι} {s : σ} {is : List ι} {r : EStateM.Result ε σ Unit}

theorem Loop.cursors (h : Loop turn next i s is r) : is = List.iterate next i is.length := by
  induction h with
  | stop | abrupt => rfl
  | more hturn hrest ih => exact congrArg (List.cons _) ih

/-- A run is what the program does, given turns enough. -/
theorem Loop.loopFor_eq {out : EStateM ε σ Unit} {n : ℕ} (h : Loop turn next i s is r)
    (hn : is.length ≤ n) : loopFor turn next out n i s = r := by
  induction h generalizing n with
  | stop hturn | abrupt hturn =>
    obtain ⟨k, rfl⟩ : ∃ k, n = k+1 := ⟨n-1, by simp at hn; omega⟩
    rw [loopFor]
    first
      | exact bind_ok hturn
      | exact bind_error hturn
  | more hturn hrest ih =>
    rw [List.length_cons] at hn
    obtain ⟨k, rfl⟩ : ∃ k, n = k+1 := ⟨n-1, by omega⟩
    rw [loopFor, bind_ok hturn]
    exact ih (by omega)

/-- An invariant holds at every turn. All turns but the last went on. -/
theorem Loop.turns {I : ι → σ → Prop}
    (hI : ∀ i s t, I i s → turn i s = .ok true t → I (next i) t)
    (h : Loop turn next i s is r) (hi : I i s) :
    ∃ earlier last u, is = earlier ++ [last] ∧ I last u ∧
      (∀ j ∈ earlier, ∃ a b, I j a ∧ turn j a = .ok true b) ∧
      ((∃ t, turn last u = .ok false t ∧ r = .ok () t) ∨
        ∃ e t, turn last u = .error e t ∧ r = .error e t) := by
  induction h with
  | @stop i s t hturn => exact ⟨[], i, s, rfl, hi, by simp, .inl ⟨t, hturn, rfl⟩⟩
  | @abrupt i s t e hturn => exact ⟨[], i, s, rfl, hi, by simp, .inr ⟨e, t, hturn, rfl⟩⟩
  | @more i s t is r hturn hrest ih =>
    obtain ⟨earlier, last, u, rfl, hlast, hearlier, hend⟩ := ih (hI i s t hi hturn)
    refine ⟨i :: earlier, last, u, rfl, hlast, fun j hj => ?_, hend⟩
    obtain rfl | hj := List.mem_cons.mp hj
    · exact ⟨s, t, hi, hturn⟩
    · exact hearlier j hj

/-- A bound that every turn lowers. -/
theorem exists_loop_of_variant {I : ι → σ → Prop} {bound : ι → ℕ}
    (hI : ∀ i s t, I i s → turn i s = .ok true t → I (next i) t ∧ bound (next i) < bound i)
    (hi : I i s) : ∃ is r, Loop turn next i s is r ∧ is.length ≤ bound i + 1 := by
  induction hn : bound i using Nat.strongRecOn generalizing i s with
  | ind n ih =>
    cases hturn : turn i s with
    | error e t => exact ⟨[i], _, .abrupt hturn, by simp⟩
    | ok more t =>
      cases more with
      | false => exact ⟨[i], _, .stop hturn, by simp⟩
      | true =>
        obtain ⟨ht, hlt⟩ := hI i s t hi hturn
        obtain ⟨is, r, hrest, hlength⟩ := ih (bound (next i)) (by omega) ht rfl
        exact ⟨i :: is, r, .more hturn hrest, by rw [List.length_cons]; omega⟩

end Runs

section Outcome

variable {I : σ → Prop} {fits : ι → Bool → Prop}

/-- `fits i more` is the exact condition for a turn at `i` to end normally with `more`. Then the
loop stops after `n` turns more under the conditions of all its turns. -/
theorem loop_ok_iff
    (hturn : ∀ i, Ensures I (turn i) (fun more s => fits i more ∧ I s)
      (fun _ _ => ∀ more, ¬fits i more))
    (hfits : ∀ i b c, fits i b → fits i c → b = c) (n : ℕ) {i : ι} {s : σ} (hs : I s) :
    (∃ t, Loop turn next i s (List.iterate next i (n+1)) (.ok () t)) ↔
      (∀ j ∈ List.iterate next i n, fits j true) ∧ fits (next^[n] i) false := by
  induction n generalizing i s with
  | zero =>
    constructor
    · intro ⟨t, h⟩
      cases h with
      | stop hstop => exact ⟨by simp [List.iterate], ((hturn i).ok hs hstop).1⟩
      | more _ hrest => exact nomatch hrest
    · intro ⟨_, hlast⟩
      have hr := hturn i s hs
      cases h : turn i s with
      | error e t =>
        rw [h] at hr
        exact absurd hlast (hr false)
      | ok more t =>
        rw [h] at hr
        obtain rfl : more = false := hfits i _ _ hr.1 hlast
        exact ⟨t, .stop h⟩
  | succ n ih =>
    constructor
    · intro ⟨t, h⟩
      cases h with
      | more hmore hrest =>
        obtain ⟨hi, hu⟩ := (hturn i).ok hs hmore
        obtain ⟨hall, hlast⟩ := (ih hu).mp ⟨t, hrest⟩
        refine ⟨fun j hj => ?_, hlast⟩
        obtain rfl | hj := List.mem_cons.mp hj
        · exact hi
        · exact hall j hj
    · intro ⟨hall, hlast⟩
      have hi : fits i true := hall i List.mem_cons_self
      have hr := hturn i s hs
      cases h : turn i s with
      | error e t =>
        rw [h] at hr
        exact absurd hi (hr true)
      | ok more u =>
        rw [h] at hr
        obtain rfl : more = true := hfits i _ _ hr.1 hi
        obtain ⟨t, hrest⟩ :=
          (ih hr.2).mpr ⟨fun j hj => hall j (List.mem_cons_of_mem i hj), hlast⟩
        exact ⟨t, .more h hrest⟩

end Outcome
end Effects
