import Panloader.PrintedLines

/-! What an observer has made of a call that did not return, and so of every call. -/
namespace Panloader
open Effects

section Rules

variable {S α β : Type} {o : Observer S} {t : Tracker} {mem : Memory} {s s' : S} {E : S → Prop}

/-- If `m` stops, in a run from a state with the tracker `t` and the memory `mem`, an observer
in state `s` has gone on to a state in `E`. -/
def Stops (o : Observer S) (t : Tracker) (mem : Memory) (s : S) (m : Wrap α) (E : S → Prop) :
    Prop :=
  ∀ w h w', Sees t mem w → m w = .error h w' →
    ∃ es, w'.trace = w.trace ++ es ∧ E (es.foldl o.step s)

theorem Stops.of_total {m : Wrap α} [ht : Total (Sees t mem) m] : Stops o t mem s m E := by
  intro w h w' hw hr
  have hend := ht.ensures w hw
  rw [hr] at hend
  exact hend.elim

theorem Stops.bind {m : Wrap α} {f : α → Wrap β} {v : α} (hm : Stops o t mem s m E)
    (hshow : Shows o t mem s m v s') (hf : Stops o t mem s' (f v) E) :
    Stops o t mem s (m >>= f) E := by
  intro w h w'' hw hr
  cases hfirst : m w with
  | error e w' =>
    rw [bind_error hfirst] at hr
    obtain ⟨-, rfl⟩ := EStateM.Result.error.inj hr
    exact hm w e w' hw hfirst
  | ok a w' =>
    rw [bind_ok hfirst] at hr
    obtain ⟨rfl, hw', es, htrace, rfl⟩ := hshow w a w' hw hfirst
    obtain ⟨es', htrace', hE⟩ := hf w' h w'' hw' hr
    refine ⟨es ++ es', ?_, ?_⟩
    · rw [htrace', htrace, List.append_assoc]
    · rw [List.foldl_append]
      exact hE

theorem Stops.seq {m : Wrap α} {f : α → Wrap β} {v : α} [Total (Sees t mem) m]
    (hshow : Shows o t mem s m v s') (hf : Stops o t mem s' (f v) E) :
    Stops o t mem s (m >>= f) E :=
  Stops.of_total.bind hshow hf

theorem Stops.load {n : ℕ} {a : U64} {f : BitVec (8*n) → Wrap β}
    (hf : Stops o t mem (o.load s a n) (f (mem.read a n)) E) :
    Stops o t mem s (load n a >>= f) E := by
  have hload : Total (Sees t mem) (Panloader.load n a) := total_load n a
  exact Stops.seq (Shows.load n a) hf

theorem Stops.prints {m : Wrap α} {F : List String} [hm : Prints m F]
    (hline : ∀ f ∈ F, ∀ args, o.line s f args = s) (hcont : ∀ f args, o.cont s f args = s)
    (hload : ∀ a n, o.load s a n = s) (hindent : o.indent s = s) :
    Stops o t mem s m (· = s) := by
  intro w h w' _ hr
  have hend := hm.printed w w rfl
  rw [hr] at hend
  obtain ⟨-, -, es, htrace, hes⟩ := hend
  exact ⟨es, htrace, Observer.foldl_quiet hline hcont hload hindent hes⟩

end Rules

section Loops

variable {S : Type} {o : Observer S} {t : Tracker} {mem : Memory} {body : ℕ → Wrap Unit}
  {states : ℕ → S} {P : ℕ → Prop}

/-- The turn in which a loop stops, after turns that returned. -/
theorem Stops.countFrom {E : ℕ → S → Prop} (hdec : ∀ i, Decides (Sees t mem) (body i) (P i))
    (hshow : ∀ i, Shows o t mem (states i) (body i) () (states (i+1)))
    (hstop : ∀ i, Stops o t mem (states i) (body i) (E i)) (i n : ℕ) :
    Stops o t mem (states i) (Effects.countFrom body i n)
      (fun s => ∃ k, i ≤ k ∧ k < i+n ∧ (∀ j, i ≤ j → j < k → P j) ∧ ¬P k ∧ E k s) := by
  induction n generalizing i with
  | zero => exact fun w h w' _ hr => nomatch hr
  | succ n ih =>
    intro w h w'' hw hr
    have hturn := hdec i w hw
    cases hfirst : body i w with
    | error e w' =>
      have hend : Effects.countFrom body i (n+1) w = .error e w' := bind_error hfirst
      obtain ⟨-, rfl⟩ := EStateM.Result.error.inj (hend.symm.trans hr)
      obtain ⟨es, htrace, hE⟩ := hstop i w e w' hw hfirst
      rw [hfirst] at hturn
      exact ⟨es, htrace, i, le_rfl, by omega, fun j hij hji => absurd hji (by omega), hturn, hE⟩
    | ok a w' =>
      have hrest : Effects.countFrom body i (n+1) w = Effects.countFrom body (i+1) n w' :=
        bind_ok hfirst
      rw [hfirst] at hturn
      obtain ⟨-, hw', es, htrace, hseen⟩ := hshow i w a w' hw hfirst
      obtain ⟨es', htrace', k, hik, hkn, hbefore, hk, hE⟩ :=
        ih (i+1) w' h w'' hw' (hrest.symm.trans hr)
      refine ⟨es ++ es', ?_, k, by omega, by omega, fun j hij hjk => ?_, hk, ?_⟩
      · rw [htrace', htrace, List.append_assoc]
      · obtain rfl | hlt := Nat.eq_or_lt_of_le hij
        · exact hturn.1
        · exact hbefore j hlt hjk
      · rw [List.foldl_append, hseen]
        exact hE

/-- The turns of a loop over `n` that are completed: up to the first one that stops, and no
more than an `int` can count. -/
structure TurnsCompleted (n : ℕ) (P : ℕ → Prop) (k : ℕ) : Prop where
  bound : k ≤ n
  counted : k ≤ intMax+1
  before : ∀ j < k, P j
  last : k < n → k ≤ intMax → ¬P k

theorem TurnsCompleted.of_all {n : ℕ} (hn : n ≤ intMax) (hall : ∀ i < n, P i) :
    TurnsCompleted n P n :=
  ⟨le_rfl, by omega, hall, fun hlt => absurd hlt (lt_irrefl n)⟩

/-- What holds of all turns that come to their end holds of those that were completed. -/
theorem TurnsCompleted.forall_iff {n k : ℕ} {Q : ℕ → Prop} (h : TurnsCompleted n P k) :
    (∀ i < n, i ≤ intMax → (∀ j ≤ i, P j) → Q i) ↔ ∀ i < k, Q i := by
  constructor
  · intro hall i hi
    have hcounted := h.counted
    have hbound := h.bound
    exact hall i (by omega) (by omega) fun j hj => h.before j (by omega)
  · intro hall i hin hint hbefore
    by_contra hQ
    have hki : k ≤ i := Nat.le_of_not_lt fun hik => hQ (hall i hik)
    exact h.last (by omega) (by omega) (hbefore k hki)

theorem Stops.forInt (hdec : ∀ i, Decides (Sees t mem) (body i) (P i))
    (hshow : ∀ i, Shows o t mem (states i) (body i) () (states (i+1)))
    (hstop : ∀ i, Stops o t mem (states i) (body i) (· = states i)) (n : ℕ) :
    Stops o t mem (states 0) (forInt n body)
      (fun s => ∃ k, TurnsCompleted n P k ∧ s = states k) := by
  let turn (i : ℕ) : Wrap Unit := do
    body i
    if i = intMax then halt .intOverflow else pure ()
  have hturnDec (i : ℕ) :
      Decides (Sees t mem) (turn i) (P i ∧ if i = intMax then False else True) :=
    (hdec i).bind fun _ => (Decides.halt _).ite Decides.of_total
  have hturnShow (i : ℕ) : Shows o t mem (states i) (turn i) () (states (i+1)) := by
    apply (hshow i).bind
    split_ifs
    · exact Shows.halt .intOverflow ()
    · exact Shows.pure ()
  -- a turn stops in its body or, as the last one that can be counted, after it
  have hturnStop (i : ℕ) : Stops o t mem (states i) (turn i)
      (fun s => ¬P i ∧ s = states i ∨ P i ∧ s = states (i+1)) := by
    intro w h w'' hw hr
    have hbody := hdec i w hw
    cases hfirst : body i w with
    | error e w' =>
      have hend : turn i w = .error e w' := bind_error hfirst
      obtain ⟨-, rfl⟩ := EStateM.Result.error.inj (hend.symm.trans hr)
      rw [hfirst] at hbody
      obtain ⟨es, htrace, hE⟩ := hstop i w e w' hw hfirst
      exact ⟨es, htrace, .inl ⟨hbody, hE⟩⟩
    | ok a w' =>
      rw [hfirst] at hbody
      obtain ⟨-, -, es, htrace, hseen⟩ := hshow i w a w' hw hfirst
      have hend : turn i w = (if i = intMax then halt .intOverflow else pure () : Wrap Unit) w' :=
        bind_ok hfirst
      rw [hend] at hr
      split_ifs at hr
      · cases hr
        exact ⟨es, htrace, .inr ⟨hbody.1, hseen⟩⟩
      · cases hr
  intro w h w' hw hr
  obtain ⟨es, htrace, k, -, hkn, hbefore, hk, hE⟩ :=
    Stops.countFrom hturnDec hturnShow hturnStop 0 n w h w' hw hr
  have hcounted : k ≤ intMax := by
    by_contra hlarge
    have hlast := (hbefore intMax (Nat.zero_le _) (by omega)).2
    rwa [if_pos rfl] at hlast
  refine ⟨es, htrace, ?_⟩
  obtain ⟨hnot, hs⟩ | ⟨hfits, hs⟩ := hE
  · exact ⟨k, ⟨by omega, by omega, fun j hj => (hbefore j (Nat.zero_le j) hj).1, fun _ _ => hnot⟩,
      hs⟩
  · have hlast : k = intMax := by
      by_contra hne
      exact hk ⟨hfits, by rw [if_neg hne]; trivial⟩
    refine ⟨k+1, ⟨by omega, by omega, fun j hj => ?_, fun _ hint => absurd hint (by omega)⟩, hs⟩
    obtain rfl | hlt := Nat.eq_or_lt_of_le (Nat.le_of_lt_succ hj)
    · exact hfits
    · exact (hbefore j (Nat.zero_le j) hlt).1

end Loops

section Runs

variable {S α : Type} {o : Observer S} {s s' : S} {E : S → Prop} {w : World} {m : Wrap α}

theorem foldl_eventsOf {v : α} {P : Prop} (hdec : Decides (Sees w.tracker w.mem) m P)
    (hshow : Shows o w.tracker w.mem s m v s') (hstop : Stops o w.tracker w.mem s m E) :
    P ∧ (w.eventsOf m).foldl o.step s = s' ∨ ¬P ∧ E ((w.eventsOf m).foldl o.step s) := by
  have hend := hdec w (Sees.self w)
  cases hr : m w with
  | ok a w' =>
    rw [hr] at hend
    obtain ⟨-, -, es, htrace, hseen⟩ := hshow w a w' (Sees.self w) hr
    have hes : w.eventsOf m = es := World.eventsOf_eq (by rw [World.after, hr]; exact htrace)
    rw [hes]
    exact .inl ⟨hend.1, hseen⟩
  | error h w' =>
    rw [hr] at hend
    obtain ⟨es, htrace, hE⟩ := hstop w h w' (Sees.self w) hr
    have hes : w.eventsOf m = es := World.eventsOf_eq (by rw [World.after, hr]; exact htrace)
    rw [hes]
    exact .inr ⟨hend, hE⟩

end Runs
end Panloader
