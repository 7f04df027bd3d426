import Mathlib.Algebra.Group.Nat.Defs
import Panloader.Decides

/-! Loops with a signed counter that is compared with an unsigned bound. The type of the counter
may have no value for the bound, and then the counter overflows. -/
namespace Effects

variable {ε σ α : Type} {w n : ℕ} {overflow : ε} {bound : BitVec n}
  {turn : BitVec w → α → EStateM ε σ α}

/-- A run of `for (; i < bound; i++)`, where the signed `i` is converted to the type of `bound`:
the counters of its turns, in order, and its end with the last counter. The turns hand a value
on. -/
inductive IntLoop (overflow : ε) (bound : BitVec n) (turn : BitVec w → α → EStateM ε σ α) :
    BitVec w → α → σ → List (BitVec w) → EStateM.Result ε σ (BitVec w × α) → Prop
  | stop {i : BitVec w} {a : α} {s : σ} : ¬i.signExtend n < bound →
      IntLoop overflow bound turn i a s [] (.ok (i, a) s)
  | abrupt {i : BitVec w} {a : α} {s t : σ} {e : ε} : i.signExtend n < bound →
      turn i a s = .error e t → IntLoop overflow bound turn i a s [i] (.error e t)
  | last {i : BitVec w} {a b : α} {s t : σ} : i.signExtend n < bound → turn i a s = .ok b t →
      i = BitVec.intMax w → IntLoop overflow bound turn i a s [i] (.error overflow t)
  | more {i : BitVec w} {a b : α} {s t : σ} {is : List (BitVec w)}
      {r : EStateM.Result ε σ (BitVec w × α)} : i.signExtend n < bound → turn i a s = .ok b t →
      i ≠ BitVec.intMax w → IntLoop overflow bound turn (i+1) b t is r →
      IntLoop overflow bound turn i a s (i :: is) r

/-- The end of a loop without its counter. -/
def handedOn {ι : Type} : EStateM.Result ε σ (ι × α) → EStateM.Result ε σ α
  | .ok v s => .ok v.2 s
  | .error e s => .error e s

section Counters

variable {k : ℕ}

theorem toNat_counter (hk : k < 2^w) : (BitVec.ofNat (w+1) k).toNat = k := by
  have hpow : 2^w < 2^(w+1) := Nat.pow_lt_pow_right (by decide) (Nat.lt_succ_self w)
  rw [BitVec.toNat_ofNat, Nat.mod_eq_of_lt (Nat.lt_trans hk hpow)]

theorem msb_counter (hk : k < 2^w) : (BitVec.ofNat (w+1) k).msb = false := by
  rw [BitVec.msb_eq_false_iff_two_mul_lt, toNat_counter hk, Nat.pow_succ]
  omega

theorem toInt_counter (hk : k < 2^w) : (BitVec.ofNat (w+1) k).toInt = k := by
  rw [BitVec.toInt_eq_toNat_of_msb (msb_counter hk), toNat_counter hk]

/-- A counter that is not negative is compared as it is. -/
theorem counter_lt_iff (hn : w < n) (hk : k < 2^w) :
    (BitVec.ofNat (w+1) k).signExtend n < bound ↔ k < bound.toNat := by
  have hpow : 2^w < 2^n := Nat.pow_lt_pow_right (by decide) hn
  rw [BitVec.signExtend_eq_setWidth_of_msb_false (msb_counter hk), BitVec.lt_def,
    BitVec.toNat_setWidth, toNat_counter hk, Nat.mod_eq_of_lt (Nat.lt_trans hk hpow)]

theorem counter_eq_intMax_iff (hk : k < 2^w) :
    BitVec.ofNat (w+1) k = BitVec.intMax (w+1) ↔ k + 1 = 2^w := by
  have hpos : 0 < 2^w := Nat.two_pow_pos w
  rw [BitVec.toNat_inj.symm, toNat_counter hk, BitVec.toNat_intMax, Nat.add_sub_cancel]
  omega

end Counters

section Runs

variable {i : BitVec w} {a : α} {s : σ} {is : List (BitVec w)}
  {r : EStateM.Result ε σ (BitVec w × α)}

/-- A loop has one run. -/
theorem IntLoop.functional {is' : List (BitVec w)} {r' : EStateM.Result ε σ (BitVec w × α)}
    (h : IntLoop overflow bound turn i a s is r) (h' : IntLoop overflow bound turn i a s is' r') :
    is = is' ∧ r = r' := by
  induction h generalizing is' with
  | stop hstop =>
    cases h' with
    | stop => exact ⟨rfl, rfl⟩
    | abrupt hlt => exact absurd hlt hstop
    | last hlt => exact absurd hlt hstop
    | more hlt => exact absurd hlt hstop
  | abrupt hlt hturn =>
    cases h' with
    | stop hstop => exact absurd hlt hstop
    | abrupt _ hturn' =>
      cases hturn.symm.trans hturn'
      exact ⟨rfl, rfl⟩
    | last _ hturn' => cases hturn.symm.trans hturn'
    | more _ hturn' => cases hturn.symm.trans hturn'
  | last hlt hturn hmax =>
    cases h' with
    | stop hstop => exact absurd hlt hstop
    | abrupt _ hturn' => cases hturn.symm.trans hturn'
    | last _ hturn' =>
      cases hturn.symm.trans hturn'
      exact ⟨rfl, rfl⟩
    | more _ _ hne => exact absurd hmax hne
  | more hlt hturn hne _ ih =>
    cases h' with
    | stop hstop => exact absurd hlt hstop
    | abrupt _ hturn' => cases hturn.symm.trans hturn'
    | last _ _ hmax => exact absurd hmax hne
    | more _ hturn' _ hrest =>
      cases hturn.symm.trans hturn'
      obtain ⟨rfl, rfl⟩ := ih hrest
      exact ⟨rfl, rfl⟩

end Runs

section Ends

variable {k : ℕ} {a : α} {s : σ} {turn : BitVec (w+1) → α → EStateM ε σ α}
  {is : List (BitVec (w+1))} {r : EStateM.Result ε σ (BitVec (w+1) × α)}

/-- The counter goes up to the largest value at most, so every loop comes to an end. -/
theorem exists_intLoop (hk : k < 2^w) (a : α) (s : σ) :
    ∃ is r, IntLoop overflow bound turn (BitVec.ofNat (w+1) k) a s is r := by
  -- by what is left up to the largest value
  induction hleft : 2^w - k generalizing k a s with
  | zero => exact absurd hk (by omega)
  | succ left ih =>
    by_cases hlt : (BitVec.ofNat (w+1) k).signExtend n < bound
    · cases hturn : turn (BitVec.ofNat (w+1) k) a s with
      | error e t => exact ⟨_, _, .abrupt hlt hturn⟩
      | ok b t =>
        by_cases hmax : BitVec.ofNat (w+1) k = BitVec.intMax (w+1)
        · exact ⟨_, _, .last hlt hturn hmax⟩
        · have hnext : k+1 < 2^w := by
            have hne := mt (counter_eq_intMax_iff hk).mpr hmax
            omega
          obtain ⟨is, r, hrest⟩ := ih hnext b t (by omega)
          rw [BitVec.ofNat_add] at hrest
          exact ⟨_, _, .more hlt hturn hmax hrest⟩
    · exact ⟨_, _, .stop hlt⟩

/-- A loop that ends normally has counted all numbers below its bound, and the type of the
counter has a value for the bound. -/
theorem IntLoop.of_ok (hn : w < n) {j : BitVec (w+1)} {b : α} {t : σ}
    (h : IntLoop overflow bound turn (BitVec.ofNat (w+1) k) a s is (.ok (j, b) t))
    (hk : k < 2^w) (hbound : k ≤ bound.toNat) :
    bound.toNat < 2^w ∧ j = BitVec.ofNat (w+1) bound.toNat ∧
      is = (List.range' k (bound.toNat - k)).map (BitVec.ofNat (w+1)) := by
  generalize hi : BitVec.ofNat (w+1) k = i at h
  generalize hr : EStateM.Result.ok (j, b) t = r at h
  induction h generalizing k with
  | stop hstop =>
    cases hr
    subst hi
    -- it stops where it comes to the bound
    have hend : bound.toNat = k := by
      have hnot := mt (counter_lt_iff hn hk).mpr hstop
      omega
    rw [hend, Nat.sub_self]
    exact ⟨hk, rfl, rfl⟩
  | abrupt | last => cases hr
  | more hlt hturn hne _ ih =>
    subst hi
    have hbelow := (counter_lt_iff hn hk).mp hlt
    have hnext : k+1 < 2^w := by
      have hmax := mt (counter_eq_intMax_iff hk).mpr hne
      omega
    obtain ⟨htop, hj, his⟩ := ih hnext hbelow (BitVec.ofNat_add k 1) hr
    have hcount : bound.toNat - k = (bound.toNat - (k+1)) + 1 := by omega
    rw [hcount, List.range'_succ, List.map_cons, his]
    exact ⟨htop, hj, rfl⟩

/-- With turns that always end normally, and a value for the bound, the loop ends normally. -/
theorem IntLoop.ok_of_bound {I : σ → Prop} (hn : w < n)
    (hturn : ∀ i a, Total I (turn i a)) (hbound : bound.toNat < 2^w)
    (h : IntLoop overflow bound turn (BitVec.ofNat (w+1) k) a s is r) (hk : k < 2^w) (hs : I s) :
    ∃ v t, r = .ok v t := by
  generalize hi : BitVec.ofNat (w+1) k = i at h
  induction h generalizing k with
  | stop => exact ⟨_, _, rfl⟩
  | @abrupt i a s t e _ hr =>
    have hend := (hturn i a).ensures s hs
    rw [hr] at hend
    exact hend.elim
  | last hlt _ hmax =>
    subst hi
    have hbelow := (counter_lt_iff hn hk).mp hlt
    have htop := (counter_eq_intMax_iff hk).mp hmax
    -- the largest value is not below the bound
    omega
  | @more i a b s t is r hlt hr hne _ ih =>
    subst hi
    have hbelow := (counter_lt_iff hn hk).mp hlt
    have hnext : k+1 < 2^w := by omega
    exact ih hnext ((hturn _ a).ensures.ok hs hr) (BitVec.ofNat_add k 1)

end Ends
end Effects
