import Mathlib.Data.Fintype.Defs
import Mathlib.Logic.Function.Basic
import Mathlib.Logic.Hydra
import Mathlib.Tactic.SplitIfs
import Panloader.Effects

/-! Threads with one lock around the state they share. A section is cut into any number of steps,
and other threads come in between: they look at the state without the lock, do what does not touch
it, or wait. Executions are held against the sections run one after the other. -/
namespace LockedSections
open Effects Relation

/-- What a thread has yet to do with the lock held. The steps after a step may depend on the state
it found. -/
inductive Section (ε σ : Type)
  | done
  | step (f : σ → σ) (next : σ → Section ε σ)
  | abort (e : ε)

def Section.run {ε σ : Type} : Section ε σ → EStateM ε σ Unit
  | .done => pure ()
  | .step f next => fun s => (next s).run (f s)
  | .abort e => fun s => .error e s

/-- A program as a single step. -/
def Section.atomic {ε σ : Type} (m : EStateM ε σ Unit) : Section ε σ :=
  .step (fun s => match m s with
    | .ok _ s' => s'
    | .error _ s' => s') fun s => match m s with
    | .ok _ _ => .done
    | .error e _ => .abort e

theorem Section.run_atomic {ε σ : Type} (m : EStateM ε σ Unit) : (Section.atomic m).run = m := by
  funext s
  simp only [Section.atomic, Section.run]
  cases m s <;> rfl

/-- A program that is a single step is over after it, or ends everything. -/
theorem Section.atomic_step {ε σ : Type} {m : EStateM ε σ Unit} {f : σ → σ}
    {next : σ → Section ε σ} (h : Section.step f next = .atomic m) (s : σ) :
    (m s = .ok () (f s) ∧ next s = .done) ∨ ∃ e, m s = .error e (f s) ∧ next s = .abort e := by
  cases h
  dsimp only
  cases m s with
  | ok a s' => exact .inl ⟨rfl, rfl⟩
  | error e s' => exact .inr ⟨e, rfl, rfl⟩

/-- What a thread does without the lock: look at the state, act without touching it, or wait for
the lock to run the section of `c`. -/
inductive Program (σ κ α : Type)
  | finished
  | peek (next : σ → Program σ κ α)
  | act (a : α) (next : Program σ κ α)
  | locked (c : κ) (next : Program σ κ α)

inductive Thread (ε σ κ α : Type)
  | outside (p : Program σ κ α)
  | inside (rest : Section ε σ) (next : Program σ κ α)

/-- The threads `τ` and what they share. `entered` and `acted` only record what was done;
`stopped` is set where a section has ended everything. -/
structure Machine (τ ε σ κ α : Type) where
  shared : σ
  holder : Option τ
  thread : τ → Thread ε σ κ α
  entered : List (τ × κ)
  acted : List (τ × α)
  stopped : Option ε

variable {τ ε σ κ α : Type}

def Machine.initial (s : σ) (program : τ → Program σ κ α) : Machine τ ε σ κ α where
  shared := s
  holder := none
  thread t := .outside (program t)
  entered := []
  acted := []
  stopped := none

/-- What is left of the section that is under way. -/
def Machine.rest (m : Machine τ ε σ κ α) : Section ε σ :=
  match m.stopped with
  | some e => .abort e
  | none =>
    match m.holder with
    | none => .done
    | some t =>
      match m.thread t with
      | .inside rest _ => rest
      | .outside _ => .done

/-- A thread is inside a section exactly where it holds the lock. -/
def Machine.Exclusive (m : Machine τ ε σ κ α) : Prop :=
  ∀ t, m.holder = some t ↔ ∃ rest next, m.thread t = .inside rest next

/-- The programs of `cs`, one after the other. -/
def inTurn (run : κ → EStateM ε σ Unit) : List κ → EStateM ε σ Unit
  | [] => pure ()
  | c :: cs => do
    run c
    inTurn run cs

/-- What is left of the section under way leads where the sections in turn lead. -/
def Machine.Serial (body : κ → Section ε σ) (s : σ) (m : Machine τ ε σ κ α) : Prop :=
  inTurn (fun c => (body c).run) (m.entered.map Prod.snd) s = m.rest.run m.shared

section Serial

variable {m : Machine τ ε σ κ α} {t : τ}

theorem Machine.initial_exclusive (s : σ) (program : τ → Program σ κ α) :
    (Machine.initial s program : Machine τ ε σ κ α).Exclusive := by
  intro t
  constructor
  · intro h
    cases h
  · rintro ⟨rest, next, h⟩
    cases h

theorem Machine.Exclusive.holder (hm : m.Exclusive) {rest : Section ε σ} {next : Program σ κ α}
    (ht : m.thread t = .inside rest next) : m.holder = some t :=
  (hm t).mpr ⟨rest, next, ht⟩

theorem Machine.rest_inside (hm : m.Exclusive) (hgo : m.stopped = none) {rest : Section ε σ}
    {next : Program σ κ α} (ht : m.thread t = .inside rest next) : m.rest = rest := by
  simp only [Machine.rest, hgo, hm.holder ht, ht]

theorem Machine.rest_free (hgo : m.stopped = none) (hfree : m.holder = none) :
    m.rest = .done := by
  simp only [Machine.rest, hgo, hfree]

theorem Machine.rest_stopped {e : ε} (hstop : m.stopped = some e) : m.rest = .abort e := by
  simp only [Machine.rest, hstop]

theorem inTurn_snoc (run : κ → EStateM ε σ Unit) (cs : List κ) (c : κ) :
    inTurn run (cs ++ [c]) = inTurn run cs >>= fun _ => run c := by
  induction cs with
  | nil => simp only [List.nil_append, inTurn, bind_pure_unit, pure_bind]
  | cons d cs ih => simp only [List.cons_append, inTurn, ih, bind_assoc]

theorem inTurn_cons {run : κ → EStateM ε σ Unit} {c : κ} {cs : List κ} {s s' : σ}
    (h : inTurn run (c :: cs) s = .ok () s') :
    ∃ u, run c s = .ok () u ∧ inTurn run cs u = .ok () s' := by
  rw [inTurn] at h
  cases hc : run c s with
  | ok a u =>
    rw [bind_ok hc] at h
    exact ⟨u, rfl, h⟩
  | error e u =>
    rw [bind_error hc] at h
    cases h

/-- What every section that ends normally keeps, the sections in turn keep. -/
theorem inTurn_ok {run : κ → EStateM ε σ Unit} {I : σ → Prop}
    (hrun : ∀ c s s', I s → run c s = .ok () s' → I s') {cs : List κ} {s s' : σ} (hs : I s)
    (h : inTurn run cs s = .ok () s') : I s' := by
  induction cs generalizing s with
  | nil =>
    cases h
    exact hs
  | cons c cs ih =>
    obtain ⟨u, hc, hrest⟩ := inTurn_cons h
    exact ih (hrun c s u hs hc) hrest

end Serial

variable [DecidableEq τ]

def Machine.become (m : Machine τ ε σ κ α) (t : τ) (p : Thread ε σ κ α) : Machine τ ε σ κ α :=
  { m with thread := Function.update m.thread t p }

theorem Machine.become_self {m : Machine τ ε σ κ α} {t : τ} {p : Thread ε σ κ α} :
    (m.become t p).thread t = p := Function.update_self ..

theorem Machine.become_other {m : Machine τ ε σ κ α} {t u : τ} {p : Thread ε σ κ α} (h : u ≠ t) :
    (m.become t p).thread u = m.thread u := Function.update_of_ne h ..

section Steps

variable (body : κ → Section ε σ)

/-- One step of one thread. -/
inductive Step : Machine τ ε σ κ α → Machine τ ε σ κ α → Prop
  | peek {m : Machine τ ε σ κ α} (t : τ) {next : σ → Program σ κ α} : m.stopped = none →
      m.thread t = .outside (.peek next) → Step m (m.become t (.outside (next m.shared)))
  | act {m : Machine τ ε σ κ α} (t : τ) {a : α} {next : Program σ κ α} : m.stopped = none →
      m.thread t = .outside (.act a next) →
      Step m { m.become t (.outside next) with acted := m.acted ++ [(t, a)] }
  | enter {m : Machine τ ε σ κ α} (t : τ) {c : κ} {next : Program σ κ α} : m.stopped = none →
      m.thread t = .outside (.locked c next) → m.holder = none →
      Step m { m.become t (.inside (body c) next) with
        holder := some t, entered := m.entered ++ [(t, c)] }
  | inner {m : Machine τ ε σ κ α} (t : τ) {f : σ → σ} {rest : σ → Section ε σ}
      {next : Program σ κ α} : m.stopped = none → m.thread t = .inside (.step f rest) next →
      Step m { m.become t (.inside (rest m.shared) next) with shared := f m.shared }
  | leave {m : Machine τ ε σ κ α} (t : τ) {next : Program σ κ α} : m.stopped = none →
      m.thread t = .inside .done next →
      Step m { m.become t (.outside next) with holder := none }
  | abort {m : Machine τ ε σ κ α} (t : τ) {e : ε} {next : Program σ κ α} : m.stopped = none →
      m.thread t = .inside (.abort e) next → Step m { m with stopped := some e }

abbrev Reaches : Machine τ ε σ κ α → Machine τ ε σ κ α → Prop := ReflTransGen (Step body)

end Steps

variable {body : κ → Section ε σ} {m m' : Machine τ ε σ κ α} {s : σ} {t : τ}
  {start : τ → Program σ κ α}

section Serializable

/-- A thread that stays outside. -/
theorem Machine.Exclusive.become_outside (hm : m.Exclusive) {p q : Program σ κ α}
    (ht : m.thread t = .outside p) : (m.become t (.outside q)).Exclusive := by
  intro u
  rw [show (m.become t (.outside q)).holder = m.holder from rfl, hm u]
  by_cases hu : u = t
  · subst hu
    simp [Machine.become, ht]
  · simp [Machine.become, Function.update_of_ne hu]

theorem Step.exclusive (hm : m.Exclusive) (h : Step body m m') : m'.Exclusive := by
  cases h with
  | peek t _ ht => exact hm.become_outside ht
  | act t _ ht => exact hm.become_outside ht
  | enter t _ ht hfree =>
    intro u
    by_cases hu : u = t
    · subst hu
      simp [Machine.become]
    · -- nobody else was inside while the lock was free
      have hother : ¬∃ rest next, m.thread u = .inside rest next := by
        rw [← hm u, hfree]
        exact fun h => nomatch h
      simpa [Machine.become, Function.update_of_ne hu, Ne.symm hu] using hother
  | inner t _ ht =>
    intro u
    have hholder := hm.holder ht
    by_cases hu : u = t
    · subst hu
      simp [Machine.become, hholder]
    · have hother := hm u
      simpa [Machine.become, Function.update_of_ne hu] using hother
  | leave t _ ht =>
    intro u
    have hholder := hm.holder ht
    by_cases hu : u = t
    · subst hu
      simp [Machine.become]
    · have hother := hm u
      rw [hholder, Option.some.injEq] at hother
      simpa [Machine.become, Function.update_of_ne hu, Ne.symm hu] using hother
  | abort t _ ht => exact hm

theorem Reaches.exclusive (h : Reaches body (.initial s start) m) : m.Exclusive := by
  induction h with
  | refl => exact Machine.initial_exclusive s start
  | tail _ hstep ih => exact hstep.exclusive ih

/-- What a thread does outside leaves the section that is under way alone. -/
theorem Machine.rest_become_outside (hm : m.Exclusive) {p q : Program σ κ α}
    (ht : m.thread t = .outside p) : (m.become t (.outside q)).rest = m.rest := by
  have hne (u : τ) (hu : m.holder = some u) : u ≠ t := by
    rintro rfl
    obtain ⟨rest, next, hin⟩ := (hm u).mp hu
    rw [ht] at hin
    cases hin
  unfold Machine.rest Machine.become
  cases m.stopped with
  | some e => rfl
  | none =>
    cases hu : m.holder with
    | none => rfl
    | some u => simp only [Function.update_of_ne (hne u hu)]

theorem Step.serial (hm : m.Exclusive) (hserial : m.Serial body s) (h : Step body m m') :
    m'.Serial body s := by
  have hm' := h.exclusive hm
  unfold Machine.Serial at hserial ⊢
  cases h with
  | @peek t next _ ht =>
    rw [Machine.rest_become_outside hm ht]
    exact hserial
  | @act t a next _ ht =>
    have hrest : (m.become t (.outside next)).rest = m.rest := Machine.rest_become_outside hm ht
    exact hserial.trans (congrArg (fun r => r.run m.shared) hrest.symm)
  | @enter t c next hgo ht hfree =>
    rw [Machine.rest_free hgo hfree] at hserial
    rw [Machine.rest_inside hm' hgo (t := t) (Function.update_self ..), List.map_append,
      List.map_singleton, inTurn_snoc]
    exact bind_ok hserial
  | @inner t f rest next hgo ht =>
    rw [Machine.rest_inside hm hgo ht] at hserial
    rw [Machine.rest_inside hm' hgo (t := t) (Function.update_self ..)]
    exact hserial
  | @leave t next hgo ht =>
    let free : Machine τ ε σ κ α := { m.become t (.outside next) with holder := none }
    have hrest : free.rest = .done := Machine.rest_free hgo rfl
    rw [Machine.rest_inside hm hgo ht] at hserial
    exact hserial.trans (congrArg (fun r => r.run m.shared) hrest.symm)
  | @abort t e next hgo ht =>
    rw [Machine.rest_inside hm hgo ht] at hserial
    exact hserial

theorem Reaches.serial (h : Reaches body (.initial s start) m) : m.Serial body s := by
  induction h with
  | refl => rfl
  | tail hreach hstep ih => exact hstep.serial (Reaches.exclusive hreach) ih

/-- Where no section is under way, the state is the one the sections in turn lead to. -/
theorem Reaches.inTurn_free (h : Reaches body (.initial s start) m) (hgo : m.stopped = none)
    (hfree : m.holder = none) :
    inTurn (fun c => (body c).run) (m.entered.map Prod.snd) s = .ok () m.shared := by
  have hserial := Reaches.serial h
  rw [Machine.Serial, Machine.rest_free hgo hfree] at hserial
  exact hserial

theorem Reaches.inTurn_stopped (h : Reaches body (.initial s start) m) {e : ε}
    (hstop : m.stopped = some e) :
    inTurn (fun c => (body c).run) (m.entered.map Prod.snd) s = .error e m.shared := by
  have hserial := Reaches.serial h
  rw [Machine.Serial, Machine.rest_stopped hstop] at hserial
  exact hserial

/-- While a section is under way, and where one has ended everything, all sections before it have
ended normally. -/
theorem Reaches.held (h : Reaches body (.initial s start) m) (hheld : m.holder ≠ none) :
    ∃ before last s', m.entered.map Prod.snd = before ++ [last] ∧
      inTurn (fun c => (body c).run) before s = .ok () s' := by
  induction h with
  | refl => exact absurd rfl hheld
  | tail hreach hstep ih =>
    cases hstep with
    | peek | act => exact ih hheld
    | enter t hgo _ hfree =>
      exact ⟨_, _, _, List.map_append, Reaches.inTurn_free hreach hgo hfree⟩
    | inner t _ ht | abort t _ ht =>
      apply ih
      rw [(Reaches.exclusive hreach).holder ht]
      exact Option.some_ne_none t
    | leave => exact absurd rfl hheld

theorem Reaches.stopped_held (h : Reaches body (.initial s start) m) (hstop : m.stopped ≠ none) :
    m.holder ≠ none := by
  induction h with
  | refl => exact absurd rfl hstop
  | tail hreach hstep ih =>
    cases hstep with
    | peek t hgo | act t hgo | enter t hgo | inner t hgo | leave t hgo => exact absurd hgo hstop
    | abort t _ ht =>
      have hholder := (Reaches.exclusive hreach).holder ht
      exact hholder ▸ Option.some_ne_none t

/-- The section that has ended everything is the last one that was entered. -/
theorem Reaches.stopped_last (h : Reaches body (.initial s start) m) {e : ε}
    (hstop : m.stopped = some e) : ∃ before last s', m.entered.map Prod.snd = before ++ [last] ∧
      inTurn (fun c => (body c).run) before s = .ok () s' ∧
      (body last).run s' = .error e m.shared := by
  have hheld := Reaches.stopped_held h (hstop ▸ Option.some_ne_none e)
  obtain ⟨before, last, s', hentered, hbefore⟩ := Reaches.held h hheld
  have hturn := Reaches.inTurn_stopped h hstop
  rw [hentered, inTurn_snoc, bind_ok hbefore] at hturn
  exact ⟨before, last, s', hentered, hbefore, hturn⟩

/-- A section can be run at one go, to where it ends everything. -/
theorem Reaches.run_error {rest : Section ε σ} {next : Program σ κ α} (hgo : m.stopped = none)
    (ht : m.thread t = .inside rest next) {e : ε} {s' : σ}
    (hr : rest.run m.shared = .error e s') : ∃ m', Reaches body m m' ∧ m'.stopped = some e := by
  induction rest generalizing m with
  | done => cases hr
  | step f rest ih =>
    obtain ⟨m', hreach, hstop⟩ := ih m.shared
      (m := { m.become t (.inside (rest m.shared) next) with shared := f m.shared })
      hgo Machine.become_self hr
    exact ⟨m', .head (.inner t hgo ht) hreach, hstop⟩
  | abort e' =>
    cases hr
    exact ⟨_, .single (.abort t hgo ht), rfl⟩

end Serializable

section Order

/-- The sections that `t` has entered, and what it has done outside. -/
def Machine.enteredBy (m : Machine τ ε σ κ α) (t : τ) : List κ :=
  (m.entered.filter (·.1 = t)).map Prod.snd

def Machine.actedBy (m : Machine τ ε σ κ α) (t : τ) : List α :=
  (m.acted.filter (·.1 = t)).map Prod.snd

/-- `p` may enter the sections of `cs` and do what is in `as`, both in this order, and go on as
`q`. -/
inductive Program.Goes : Program σ κ α → List κ → List α → Program σ κ α → Prop
  | refl (p : Program σ κ α) : Goes p [] [] p
  | peek {next : σ → Program σ κ α} {q : Program σ κ α} {cs : List κ} {as : List α} (s : σ) :
      Goes (next s) cs as q → Goes (.peek next) cs as q
  | act {a : α} {next q : Program σ κ α} {cs : List κ} {as : List α} :
      Goes next cs as q → Goes (.act a next) cs (a :: as) q
  | locked {c : κ} {next q : Program σ κ α} {cs : List κ} {as : List α} :
      Goes next cs as q → Goes (.locked c next) (c :: cs) as q

/-- All ways of `p` to its end are in `R`. -/
def Program.Finishes (R : List κ → List α → Prop) (p : Program σ κ α) : Prop :=
  ∀ cs as, p.Goes cs as .finished → R cs as

section Ways

variable {p q next : Program σ κ α} {cs cs' : List κ} {as as' : List α} {a : α} {c : κ}
  {R : List κ → List α → Prop}

theorem Program.Goes.trans {r : Program σ κ α} (h : p.Goes cs as q) (h' : q.Goes cs' as' r) :
    p.Goes (cs ++ cs') (as ++ as') r := by
  induction h with
  | refl => exact h'
  | peek s _ ih => exact .peek s (ih h')
  | act _ ih => exact .act (ih h')
  | locked _ ih => exact .locked (ih h')

/-- Every program has a way to its end. -/
theorem Program.exists_goes [hs : Nonempty σ] (p : Program σ κ α) :
    ∃ cs as, p.Goes cs as .finished := by
  induction p with
  | finished => exact ⟨[], [], .refl _⟩
  | peek next ih =>
    obtain ⟨s⟩ := hs
    obtain ⟨cs, as, h⟩ := ih s
    exact ⟨cs, as, .peek s h⟩
  | act a next ih =>
    obtain ⟨cs, as, h⟩ := ih
    exact ⟨cs, a :: as, .act h⟩
  | locked c next ih =>
    obtain ⟨cs, as, h⟩ := ih
    exact ⟨c :: cs, as, .locked h⟩

theorem Program.Finishes.act (h : next.Finishes fun cs as => R cs (a :: as)) :
    (Program.act a next).Finishes R := by
  intro cs as hgoes
  cases hgoes with
  | act hnext => exact h _ _ hnext

theorem Program.Finishes.locked (h : next.Finishes fun cs as => R (c :: cs) as) :
    (Program.locked c next).Finishes R := by
  intro cs as hgoes
  cases hgoes with
  | locked hnext => exact h _ _ hnext

theorem Program.Finishes.peek {look : σ → Program σ κ α} (h : ∀ s, (look s).Finishes R) :
    (Program.peek look).Finishes R := by
  intro cs as hgoes
  cases hgoes with
  | peek s hnext => exact h s _ _ hnext

theorem Program.Finishes.ite {b : Prop} [Decidable b] (hp : p.Finishes R) (hq : q.Finishes R) :
    (if b then p else q).Finishes R := by
  split_ifs
  · exact hp
  · exact hq

end Ways

/-- What a thread does once it is outside. -/
def Thread.left : Thread ε σ κ α → Program σ κ α
  | .outside p => p
  | .inside _ next => next

/-- Each thread is where what it has entered and done leads to. -/
def Machine.OnTheWay (start : τ → Program σ κ α) (m : Machine τ ε σ κ α) : Prop :=
  ∀ t, (start t).Goes (m.enteredBy t) (m.actedBy t) (m.thread t).left

theorem map_filter_snoc {β : Type} (xs : List (τ × β)) (t u : τ) (x : β) :
    ((xs ++ [(u, x)]).filter (·.1 = t)).map Prod.snd =
      (xs.filter (·.1 = t)).map Prod.snd ++ if u = t then [x] else [] := by
  rw [List.filter_append, List.map_append]
  by_cases hu : u = t <;> simp [hu]

/-- The thread `u` goes on to `x`, and enters and does what it says. -/
theorem Machine.OnTheWay.goes (hm : m.OnTheWay start) {u : τ} {x : Thread ε σ κ α}
    (cs : List κ) (as : List α) (hx : (m.thread u).left.Goes cs as x.left)
    (hthread : m'.thread = Function.update m.thread u x)
    (hentered : ∀ t, m'.enteredBy t = m.enteredBy t ++ if u = t then cs else [])
    (hacted : ∀ t, m'.actedBy t = m.actedBy t ++ if u = t then as else []) :
    m'.OnTheWay start := by
  intro t
  rw [hthread, hentered, hacted]
  by_cases htu : u = t
  · subst htu
    rw [if_pos rfl, if_pos rfl, Function.update_self]
    exact (hm u).trans hx
  · rw [if_neg htu, if_neg htu, List.append_nil, List.append_nil,
      Function.update_of_ne (Ne.symm htu)]
    exact hm t

theorem Step.onTheWay (hm : m.OnTheWay start) (h : Step body m m') : m'.OnTheWay start := by
  -- most steps neither enter a section nor do anything
  have hnone {β : Type} (xs : List β) (u t : τ) : xs = xs ++ if u = t then [] else [] := by
    rw [ite_self, List.append_nil]
  cases h with
  | peek u _ hu =>
    refine hm.goes [] [] ?_ rfl (fun t => hnone _ u t) fun t => hnone _ u t
    rw [hu]
    exact .peek _ (.refl _)
  | @act u a next _ hu =>
    refine hm.goes [] [a] ?_ rfl (fun t => hnone _ u t)
      fun t => map_filter_snoc m.acted t u a
    rw [hu]
    exact .act (.refl _)
  | @enter u c next _ hu _ =>
    refine hm.goes [c] [] ?_ rfl (fun t => map_filter_snoc m.entered t u c)
      fun t => hnone _ u t
    rw [hu]
    exact .locked (.refl _)
  | inner u _ hu =>
    refine hm.goes [] [] ?_ rfl (fun t => hnone _ u t) fun t => hnone _ u t
    rw [hu]
    exact .refl _
  | leave u _ hu =>
    refine hm.goes [] [] ?_ rfl (fun t => hnone _ u t) fun t => hnone _ u t
    rw [hu]
    exact .refl _
  | abort u _ _ => exact hm

/-- Each thread goes on in the order of its program. -/
theorem Reaches.onTheWay (h : Reaches body (.initial s start) m) : m.OnTheWay start := by
  induction h with
  | refl => exact fun t => .refl (start t)
  | tail _ hstep ih => exact hstep.onTheWay ih

end Order

section Guards

/-- An execution from `m₀` to `m` in which the thread `t` looks at these states, in this order, and
does nothing else. -/
inductive Passes (body : κ → Section ε σ) (t : τ) (m₀ : Machine τ ε σ κ α) :
    List σ → Machine τ ε σ κ α → Prop
  | start : Passes body t m₀ [] m₀
  | step {seen : List σ} {m m' : Machine τ ε σ κ α} : Passes body t m₀ seen m →
      Step body m m' → m'.thread t = m.thread t → Passes body t m₀ seen m'
  | look {seen : List σ} {m : Machine τ ε σ κ α} {next : σ → Program σ κ α} :
      Passes body t m₀ seen m → m.stopped = none → m.thread t = .outside (.peek next) →
      Passes body t m₀ (seen ++ [m.shared]) (m.become t (.outside (next m.shared)))

/-- Between `m₀` and `m` the thread `t` has neither entered a section nor acted. -/
def Idle (t : τ) (m₀ m : Machine τ ε σ κ α) : Prop :=
  m₀.enteredBy t = m.enteredBy t ∧ m₀.actedBy t = m.actedBy t

/-- `G` allows each section, by what the thread stood before when it last acted or came out, and by
the states that it has looked at since. -/
def Program.Guarded (G : Program σ κ α → List σ → κ → Prop) :
    Program σ κ α → Program σ κ α → List σ → Prop
  | .finished, _, _ => True
  | .peek next, p₀, seen => ∀ s, (next s).Guarded G p₀ (seen ++ [s])
  | .act _ next, _, _ => next.Guarded G next []
  | .locked c next, p₀, seen => G p₀ seen c ∧ next.Guarded G next []

variable {G : Program σ κ α → List σ → κ → Prop}

/-- Where the thread `t` has come to since it last acted or came out. -/
def Machine.Guarded (G : Program σ κ α → List σ → κ → Prop)
    (body : κ → Section ε σ) (m init : Machine τ ε σ κ α) (t : τ) : Prop :=
  match m.thread t with
  | .outside p => ∃ m₀ p₀ seen, Reaches body init m₀ ∧ m₀.thread t = .outside p₀ ∧
      Idle t m₀ m ∧ Passes body t m₀ seen m ∧ p.Guarded G p₀ seen
  | .inside _ next => next.Guarded G next []

/-- A step that leaves the thread `t` where it is. -/
theorem Machine.Guarded.other {init : Machine τ ε σ κ α} (hm : m.Guarded G body init t)
    (h : Step body m m') (hthread : m'.thread t = m.thread t) (hidle : Idle t m m') :
    m'.Guarded G body init t := by
  unfold Machine.Guarded at hm ⊢
  rw [hthread]
  cases hp : m.thread t with
  | outside p =>
    rw [hp] at hm
    obtain ⟨m₀, p₀, seen, hreach, hstart, hidle₀, hpasses, hguarded⟩ := hm
    exact ⟨m₀, p₀, seen, hreach, hstart, ⟨hidle₀.1.trans hidle.1, hidle₀.2.trans hidle.2⟩,
      hpasses.step h hthread, hguarded⟩
  | inside rest next =>
    rw [hp] at hm
    exact hm

/-- A thread that has just acted or come out. -/
theorem Machine.Guarded.anew {init : Machine τ ε σ κ α} {p : Program σ κ α}
    (hreach : Reaches body init m) (ht : m.thread t = .outside p) (hp : p.Guarded G p []) :
    m.Guarded G body init t := by
  unfold Machine.Guarded
  rw [ht]
  exact ⟨m, p, [], hreach, ht, ⟨rfl, rfl⟩, .start, hp⟩

/-- A thread in a section. -/
theorem Machine.Guarded.within {init : Machine τ ε σ κ α} {rest : Section ε σ}
    {next : Program σ κ α} (ht : m.thread t = .inside rest next) (hnext : next.Guarded G next []) :
    m.Guarded G body init t := by
  unfold Machine.Guarded
  rw [ht]
  exact hnext

theorem Machine.Guarded.next {init : Machine τ ε σ κ α} {rest : Section ε σ}
    {next : Program σ κ α} (hm : m.Guarded G body init t) (ht : m.thread t = .inside rest next) :
    next.Guarded G next [] := by
  unfold Machine.Guarded at hm
  rw [ht] at hm
  exact hm

theorem Machine.Guarded.since {init : Machine τ ε σ κ α} {p : Program σ κ α}
    (hm : m.Guarded G body init t) (ht : m.thread t = .outside p) :
    ∃ m₀ p₀ seen, Reaches body init m₀ ∧ m₀.thread t = .outside p₀ ∧ Idle t m₀ m ∧
      Passes body t m₀ seen m ∧ p.Guarded G p₀ seen := by
  unfold Machine.Guarded at hm
  rw [ht] at hm
  exact hm

theorem Machine.Guarded.look {init : Machine τ ε σ κ α} {next : σ → Program σ κ α}
    (hm : m.Guarded G body init t) (hgo : m.stopped = none)
    (ht : m.thread t = .outside (.peek next)) :
    (m.become t (.outside (next m.shared))).Guarded G body init t := by
  obtain ⟨m₀, p₀, seen, hreach, hp₀, hidle, hpasses, hguarded⟩ := hm.since ht
  unfold Machine.Guarded
  rw [Machine.become_self]
  exact ⟨m₀, p₀, _, hreach, hp₀, hidle, hpasses.look hgo ht, hguarded m.shared⟩

theorem Machine.Guarded.step {init : Machine τ ε σ κ α} (hreach : Reaches body init m)
    (hm : m.Guarded G body init t) (h : Step body m m') : m'.Guarded G body init t := by
  have hreach' : Reaches body init m' := hreach.tail h
  cases h with
  | @peek u next hgo hu =>
    by_cases htu : t = u
    · subst htu
      exact hm.look hgo hu
    · exact hm.other (.peek u hgo hu) (Machine.become_other htu) ⟨rfl, rfl⟩
  | @act u a next hgo hu =>
    by_cases htu : t = u
    · subst htu
      obtain ⟨_, _, _, -, -, -, -, hguarded⟩ := hm.since hu
      exact .anew hreach' Machine.become_self hguarded
    · refine hm.other (.act u hgo hu) (Machine.become_other htu) ⟨rfl, ?_⟩
      simp [Machine.actedBy, Ne.symm htu]
  | @enter u c next hgo hu hfree =>
    by_cases htu : t = u
    · subst htu
      obtain ⟨_, _, _, -, -, -, -, hguarded⟩ := hm.since hu
      exact .within Machine.become_self hguarded.2
    · refine hm.other (.enter u hgo hu hfree) (Machine.become_other htu) ⟨?_, rfl⟩
      simp [Machine.enteredBy, Ne.symm htu]
  | @inner u f rest next hgo hu =>
    by_cases htu : t = u
    · subst htu
      exact .within Machine.become_self (hm.next hu)
    · exact hm.other (.inner u hgo hu) (Machine.become_other htu) ⟨rfl, rfl⟩
  | @leave u next hgo hu =>
    by_cases htu : t = u
    · subst htu
      exact .anew hreach' Machine.become_self (hm.next hu)
    · exact hm.other (.leave u hgo hu) (Machine.become_other htu) ⟨rfl, rfl⟩
  | @abort u e next hgo hu => exact hm.other (.abort u hgo hu) rfl ⟨rfl, rfl⟩

/-- A thread that waits for the section of `c` was allowed to by the states it has looked at since
it last acted or came out. -/
theorem Reaches.allowed (hstart : ∀ t, (start t).Guarded G (start t) [])
    (h : Reaches body (.initial s start) m) {c : κ} {next : Program σ κ α}
    (ht : m.thread t = .outside (.locked c next)) :
    ∃ m₀ p₀ seen, Reaches body (.initial s start) m₀ ∧ m₀.thread t = .outside p₀ ∧
      Idle t m₀ m ∧ Passes body t m₀ seen m ∧ G p₀ seen c := by
  have hguarded : m.Guarded G body (.initial s start) t := by
    clear ht
    induction h with
    | refl => exact .anew .refl rfl (hstart t)
    | tail hreach hstep ih => exact ih.step hreach hstep
  obtain ⟨m₀, p₀, seen, hreach, hp₀, hidle, hpasses, hallowed⟩ := hguarded.since ht
  exact ⟨m₀, p₀, seen, hreach, hp₀, hidle, hpasses, hallowed.1⟩

end Guards

section Progress

/-- A thread that has not finished can go on, or the one that holds the lock can. -/
theorem Machine.Exclusive.progress (hm : m.Exclusive) (hgo : m.stopped = none)
    (ht : m.thread t ≠ .outside .finished) : ∃ m', Step body m m' := by
  cases hfree : m.holder with
  | none =>
    cases hp : m.thread t with
    | outside p =>
      cases p with
      | finished => exact absurd hp ht
      | peek next => exact ⟨_, .peek t hgo hp⟩
      | act a next => exact ⟨_, .act t hgo hp⟩
      | locked c next => exact ⟨_, .enter t hgo hp hfree⟩
    | inside rest next =>
      rw [hm.holder hp] at hfree
      cases hfree
  | some u =>
    -- the thread that holds the lock is inside, where it never waits
    obtain ⟨rest, next, hu⟩ := (hm u).mp hfree
    cases rest with
    | done => exact ⟨_, .leave u hgo hu⟩
    | step f rest => exact ⟨_, .inner u hgo hu⟩
    | abort e => exact ⟨_, .abort u hgo hu⟩

/-- One step of a thread on its own. -/
inductive Thread.Next (body : κ → Section ε σ) : Thread ε σ κ α → Thread ε σ κ α → Prop
  | peek {next : σ → Program σ κ α} (s : σ) : Next body (.outside (next s)) (.outside (.peek next))
  | act {a : α} {next : Program σ κ α} : Next body (.outside next) (.outside (.act a next))
  | enter {c : κ} {next : Program σ κ α} :
      Next body (.inside (body c) next) (.outside (.locked c next))
  | inner {f : σ → σ} {rest : σ → Section ε σ} {next : Program σ κ α} (s : σ) :
      Next body (.inside (rest s) next) (.inside (.step f rest) next)
  | leave {next : Program σ κ α} : Next body (.outside next) (.inside .done next)

omit [DecidableEq τ] in
theorem Thread.acc_inside {next : Program σ κ α} (hnext : Acc (Thread.Next body) (.outside next))
    (rest : Section ε σ) : Acc (Thread.Next body) (.inside rest next) := by
  induction rest with
  | done =>
    constructor
    intro t ht
    cases ht
    exact hnext
  | step f rest ih =>
    constructor
    intro t ht
    cases ht
    exact ih _
  | abort e =>
    constructor
    intro t ht
    cases ht

theorem Thread.acc_outside (body : κ → Section ε σ) (p : Program σ κ α) :
    Acc (Thread.Next body) (.outside p) := by
  induction p with
  | finished =>
    constructor
    intro t ht
    cases ht
  | peek next ih =>
    constructor
    intro t ht
    cases ht
    exact ih _
  | act a next ih =>
    constructor
    intro t ht
    cases ht
    exact ih
  | locked c next ih =>
    constructor
    intro t ht
    cases ht
    exact Thread.acc_inside ih _

theorem Thread.wellFounded_next (body : κ → Section ε σ) :
    WellFounded (Thread.Next (α := α) body) := by
  constructor
  intro t
  cases t with
  | outside p => exact Thread.acc_outside body p
  | inside rest next => exact Thread.acc_inside (Thread.acc_outside body next) rest

variable [Fintype τ]

/-- A thread that goes on makes the threads fewer, whatever they are. -/
theorem cutExpand_update {ρ : Type} {r : ρ → ρ → Prop} {f : τ → ρ} {t : τ} {p : ρ}
    (h : r p (f t)) : CutExpand r (Finset.univ.val.map (Function.update f t p))
      (Finset.univ.val.map f) := by
  have hsplit (g : τ → ρ) :
      Finset.univ.val.map g = g t ::ₘ (Finset.univ.val.erase t).map g := by
    have hmem : t ∈ (Finset.univ : Finset τ).val := Finset.mem_univ t
    rw [← Multiset.map_cons, Multiset.cons_erase hmem]
  -- the other threads are as they were
  have hrest : (Finset.univ.val.erase t).map (Function.update f t p) =
      (Finset.univ.val.erase t).map f := by
    apply Multiset.map_congr rfl
    intro u hu
    exact Function.update_of_ne (Finset.univ.nodup.mem_erase_iff.mp hu).1 ..
  rw [hsplit (Function.update f t p), hsplit f, Function.update_self, hrest,
    ← Multiset.singleton_add, ← Multiset.singleton_add]
  exact cutExpand_single_add h _

def Machine.threads (m : Machine τ ε σ κ α) : Multiset (Thread ε σ κ α) :=
  Finset.univ.val.map m.thread

theorem Machine.threads_become {p : Thread ε σ κ α} (h : Thread.Next body p (m.thread t)) :
    CutExpand (Thread.Next body) (m.become t p).threads m.threads := cutExpand_update h

theorem Step.threads (hgo : m'.stopped = none) (h : Step body m m') :
    CutExpand (Thread.Next body) m'.threads m.threads := by
  cases h with
  | peek t _ ht =>
    apply Machine.threads_become
    rw [ht]
    exact .peek _
  | act t _ ht =>
    apply Machine.threads_become
    rw [ht]
    exact .act
  | enter t _ ht _ =>
    apply Machine.threads_become
    rw [ht]
    exact .enter
  | inner t _ ht =>
    apply Machine.threads_become
    rw [ht]
    exact .inner _
  | leave t _ ht =>
    apply Machine.threads_become
    rw [ht]
    exact .leave
  | abort t _ _ => cases hgo

omit [Fintype τ] in
theorem Step.running (h : Step body m m') : m.stopped = none := by
  cases h <;> assumption

/-- No execution goes on forever. -/
theorem wellFounded_step (body : κ → Section ε σ) :
    WellFounded fun m' m : Machine τ ε σ κ α => Step body m m' := by
  have hstopped {m : Machine τ ε σ κ α} {e : ε} (he : m.stopped = some e) :
      Acc (fun m' m => Step body m m') m := by
    constructor
    intro m' hstep
    have hgo := hstep.running
    rw [he] at hgo
    cases hgo
  constructor
  intro m
  have hthreads := (WellFounded.cutExpand (Thread.wellFounded_next (α := α) body)).apply m.threads
  generalize hm : m.threads = threads at hthreads
  induction hthreads generalizing m with
  | intro threads _ ih =>
    constructor
    intro m' hstep
    cases hgo : m'.stopped with
    | some e => exact hstopped hgo
    | none =>
      have hless := hstep.threads hgo
      rw [hm] at hless
      exact ih _ hless m' rfl

omit [Fintype τ] in
/-- Where no step is possible, every thread has finished and given the lock back, or a section has
stopped them. -/
theorem Reaches.final (h : Reaches body (.initial s start) m) (hend : ∀ m', ¬Step body m m')
    (hgo : m.stopped = none) : m.holder = none ∧ ∀ t, m.thread t = .outside .finished := by
  have hm := Reaches.exclusive h
  have hfinished (t : τ) : m.thread t = .outside .finished := by
    by_contra ht
    obtain ⟨m', hstep⟩ := hm.progress hgo ht
    exact hend m' hstep
  refine ⟨?_, hfinished⟩
  cases hu : m.holder with
  | none => rfl
  | some u =>
    obtain ⟨rest, next, hin⟩ := (hm u).mp hu
    rw [hfinished u] at hin
    cases hin

end Progress

end LockedSections
