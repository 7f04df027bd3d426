import Mathlib.Data.List.Forall2
import Mathlib.Data.Set.Insert
import Panloader.LockedSections

/-! Threads that share cells without a lock. A cell is filled where it is first needed, maybe by
several threads at once, with one value whoever fills it. Executions are held against those of
threads that know the values from the start. -/
namespace SharedCells
open LockedSections Relation

/-- A `LockedSections.Program` that also loads and stores cells, and may end everything. -/
inductive CellProgram (γ ν χ σ κ α : Type)
  | finished
  | load (c : γ) (next : ν → CellProgram γ ν χ σ κ α)
  | store (c : γ) (v : ν) (next : CellProgram γ ν χ σ κ α)
  | exit (x : χ)
  | peek (next : σ → CellProgram γ ν χ σ κ α)
  | act (a : α) (next : CellProgram γ ν χ σ κ α)
  | locked (c : κ) (next : CellProgram γ ν χ σ κ α)

inductive CellThread (ε γ ν χ σ κ α : Type)
  | outside (p : CellProgram γ ν χ σ κ α)
  | inside (rest : Section ε σ) (next : CellProgram γ ν χ σ κ α)

/-- `stopped` is set by a section that ends everything, `exited` by a thread outside. -/
structure CellMachine (τ ε γ ν χ σ κ α : Type) where
  shared : σ
  cells : γ → ν
  holder : Option τ
  thread : τ → CellThread ε γ ν χ σ κ α
  entered : List (τ × κ)
  acted : List (τ × α)
  stopped : Option ε
  exited : Option χ

variable {τ ε γ ν χ σ κ κ' α α' : Type}

def CellMachine.initial (s : σ) (cells : γ → ν) (program : τ → CellProgram γ ν χ σ κ α) :
    CellMachine τ ε γ ν χ σ κ α where
  shared := s
  cells := cells
  holder := none
  thread t := .outside (program t)
  entered := []
  acted := []
  stopped := none
  exited := none

def CellMachine.Running (m : CellMachine τ ε γ ν χ σ κ α) : Prop :=
  m.stopped = none ∧ m.exited = none

/-- What two kinds of threads agree on: what a cell holds before and after it is filled, which
acts and sections stand for which, and why a thread may end everything. -/
structure Agreement (γ ν χ κ' κ α' α : Type) where
  empty : ν
  value : γ → ν
  Made : α' → α → Prop
  Taken : κ' → κ → Prop
  Lacking : χ → Prop

/-- A thread that has seen the cells of `K` filled does what a thread does that knows all values. -/
inductive Follows (A : Agreement γ ν χ κ' κ α' α) :
    Set γ → CellProgram γ ν χ σ κ' α' → Program σ κ α → Prop
  | finished (K : Set γ) : Follows A K .finished .finished
  | load {K : Set γ} {c : γ} {next : ν → CellProgram γ ν χ σ κ' α'} {q : Program σ κ α} :
      (c ∉ K → Follows A K (next A.empty) q) → Follows A (insert c K) (next (A.value c)) q →
      Follows A K (.load c next) q
  | store {K : Set γ} {c : γ} {p : CellProgram γ ν χ σ κ' α'} {q : Program σ κ α} :
      Follows A (insert c K) p q → Follows A K (.store c (A.value c) p) q
  | exit {K : Set γ} {x : χ} {q : Program σ κ α} : A.Lacking x → Follows A K (.exit x) q
  | peek {K : Set γ} {look : σ → CellProgram γ ν χ σ κ' α'} {look' : σ → Program σ κ α} :
      (∀ s, Follows A K (look s) (look' s)) → Follows A K (.peek look) (.peek look')
  | act {K : Set γ} {a' : α'} {a : α} {p : CellProgram γ ν χ σ κ' α'} {q : Program σ κ α} :
      A.Made a' a → Follows A K p q → Follows A K (.act a' p) (.act a q)
  | locked {K : Set γ} {c' : κ'} {c : κ} {p : CellProgram γ ν χ σ κ' α'} {q : Program σ κ α} :
      A.Taken c' c → Follows A K p q → Follows A K (.locked c' p) (.locked c q)

inductive ThreadFollows (A : Agreement γ ν χ κ' κ α' α) (cells : γ → ν) :
    CellThread ε γ ν χ σ κ' α' → Thread ε σ κ α → Prop
  | outside {K : Set γ} {p : CellProgram γ ν χ σ κ' α'} {q : Program σ κ α} :
      (∀ c ∈ K, cells c = A.value c) → Follows A K p q →
      ThreadFollows A cells (.outside p) (.outside q)
  | inside {K : Set γ} {rest : Section ε σ} {p : CellProgram γ ν χ σ κ' α'} {q : Program σ κ α} :
      (∀ c ∈ K, cells c = A.value c) → Follows A K p q →
      ThreadFollows A cells (.inside rest p) (.inside rest q)

/-- The machine with cells is where the machine without is, up to the filling of cells. -/
structure CellSimulation (A : Agreement γ ν χ κ' κ α' α) (m : CellMachine τ ε γ ν χ σ κ' α')
    (b : Machine τ ε σ κ α) : Prop where
  shared : m.shared = b.shared
  holder : m.holder = b.holder
  stopped : m.stopped = b.stopped
  cells : ∀ c, m.cells c = A.empty ∨ m.cells c = A.value c
  thread : ∀ t, ThreadFollows A m.cells (m.thread t) (b.thread t)
  entered : List.Forall₂ (fun x y => x.1 = y.1 ∧ A.Taken x.2 y.2) m.entered b.entered
  acted : List.Forall₂ (fun x y => x.1 = y.1 ∧ A.Made x.2 y.2) m.acted b.acted
  exited : ∀ x, m.exited = some x → A.Lacking x


variable {A : Agreement γ ν χ κ' κ α' α} {m m' : CellMachine τ ε γ ν χ σ κ' α'}
  {b b' : Machine τ ε σ κ α} {body' : κ' → Section ε σ} {body : κ → Section ε σ} {t : τ}

theorem Follows.mono {K L : Set γ} {p : CellProgram γ ν χ σ κ' α'} {q : Program σ κ α}
    (h : Follows A K p q) (hKL : K ⊆ L) : Follows A L p q := by
  induction h generalizing L with
  | finished => exact .finished L
  | load _ _ ihempty ihvalue =>
    apply Follows.load
    · intro hc
      exact ihempty (fun hK => hc (hKL hK)) hKL
    · exact ihvalue (Set.insert_subset_insert hKL)
  | store _ ih => exact .store (ih (Set.insert_subset_insert hKL))
  | exit hx => exact .exit hx
  | peek _ ih => exact .peek fun s => ih s hKL
  | act ha _ ih => exact .act ha (ih hKL)
  | locked hc _ ih => exact .locked hc (ih hKL)

theorem CellSimulation.load (h : CellSimulation A m b) {c : γ}
    {next : ν → CellProgram γ ν χ σ κ' α'} {q : Program σ κ α} {K : Set γ}
    (hK : ∀ d ∈ K, m.cells d = A.value d) (hempty : c ∉ K → Follows A K (next A.empty) q)
    (hvalue : Follows A (insert c K) (next (A.value c)) q) :
    ∃ L, (∀ d ∈ L, m.cells d = A.value d) ∧ Follows A L (next (m.cells c)) q := by
  by_cases hc : m.cells c = A.value c
  · refine ⟨insert c K, ?_, hc ▸ hvalue⟩
    intro d hd
    rcases hd with rfl | hd
    · exact hc
    · exact hK d hd
  · -- a cell that does not hold its value yet is empty, and nobody has seen it filled
    rw [(h.cells c).resolve_right hc]
    exact ⟨K, hK, hempty fun hmem => hc (hK c hmem)⟩

theorem CellSimulation.initial {s : σ} {program' : τ → CellProgram γ ν χ σ κ' α'}
    {program : τ → Program σ κ α} (h : ∀ t, Follows A ∅ (program' t) (program t)) :
    CellSimulation A (.initial s (fun _ => A.empty) program' : CellMachine τ ε γ ν χ σ κ' α')
      (.initial s program) where
  shared := rfl
  holder := rfl
  stopped := rfl
  cells _ := .inl rfl
  thread t := by
    apply ThreadFollows.outside _ (h t)
    intro c hc
    cases hc
  entered := .nil
  acted := .nil
  exited x hx := by cases hx

theorem CellSimulation.outside (h : CellSimulation A m b) {p : CellProgram γ ν χ σ κ' α'}
    (ht : m.thread t = .outside p) : ∃ K q, b.thread t = .outside q ∧
      (∀ c ∈ K, m.cells c = A.value c) ∧ Follows A K p q := by
  have hthread := h.thread t
  rw [ht] at hthread
  generalize b.thread t = x at hthread
  cases hthread with
  | outside hK hf => exact ⟨_, _, rfl, hK, hf⟩

theorem CellSimulation.inside (h : CellSimulation A m b) {rest : Section ε σ}
    {p : CellProgram γ ν χ σ κ' α'} (ht : m.thread t = .inside rest p) :
    ∃ K q, b.thread t = .inside rest q ∧ (∀ c ∈ K, m.cells c = A.value c) ∧ Follows A K p q := by
  have hthread := h.thread t
  rw [ht] at hthread
  generalize b.thread t = x at hthread
  cases hthread with
  | inside hK hf => exact ⟨_, _, rfl, hK, hf⟩

theorem CellSimulation.matched_inside (hm : CellSimulation A m b) {rest : Section ε σ}
    {next : Program σ κ α} (hb : b.thread t = .inside rest next) :
    ∃ K p, m.thread t = .inside rest p ∧ (∀ c ∈ K, m.cells c = A.value c) ∧
      Follows A K p next := by
  have hthread := hm.thread t
  rw [hb] at hthread
  generalize m.thread t = x at hthread
  cases hthread with
  | inside hK hf => exact ⟨_, _, rfl, hK, hf⟩

theorem CellSimulation.running (h : CellSimulation A m b) (hgo : m.Running) : b.stopped = none :=
  h.stopped ▸ hgo.1

section Lives

/-- One step of a thread on its own. -/
inductive CellThread.Next (body' : κ' → Section ε σ) :
    CellThread ε γ ν χ σ κ' α' → CellThread ε γ ν χ σ κ' α' → Prop
  | load {c : γ} {next : ν → CellProgram γ ν χ σ κ' α'} (v : ν) :
      Next body' (.outside (next v)) (.outside (.load c next))
  | store {c : γ} {v : ν} {next : CellProgram γ ν χ σ κ' α'} :
      Next body' (.outside next) (.outside (.store c v next))
  | peek {next : σ → CellProgram γ ν χ σ κ' α'} (s : σ) :
      Next body' (.outside (next s)) (.outside (.peek next))
  | act {a : α'} {next : CellProgram γ ν χ σ κ' α'} :
      Next body' (.outside next) (.outside (.act a next))
  | enter {c : κ'} {next : CellProgram γ ν χ σ κ' α'} :
      Next body' (.inside (body' c) next) (.outside (.locked c next))
  | inner {f : σ → σ} {rest : σ → Section ε σ} {next : CellProgram γ ν χ σ κ' α'} (s : σ) :
      Next body' (.inside (rest s) next) (.inside (.step f rest) next)
  | leave {next : CellProgram γ ν χ σ κ' α'} : Next body' (.outside next) (.inside .done next)

theorem CellThread.acc_inside {next : CellProgram γ ν χ σ κ' α'}
    (hnext : Acc (CellThread.Next body') (.outside next)) (rest : Section ε σ) :
    Acc (CellThread.Next body') (.inside rest next) := by
  induction rest with
  | done =>
    constructor
    rintro _ ⟨⟩
    exact hnext
  | step f rest ih =>
    constructor
    rintro _ ⟨⟩
    exact ih _
  | abort e =>
    constructor
    rintro _ ⟨⟩

theorem CellThread.acc_outside (body' : κ' → Section ε σ) (p : CellProgram γ ν χ σ κ' α') :
    Acc (CellThread.Next body') (.outside p) := by
  induction p with
  | finished | exit =>
    constructor
    rintro _ ⟨⟩
  | load _ next ih | peek next ih =>
    constructor
    rintro _ ⟨⟩
    exact ih _
  | store _ _ next ih | act _ next ih =>
    constructor
    rintro _ ⟨⟩
    exact ih
  | locked c next ih =>
    constructor
    rintro _ ⟨⟩
    exact CellThread.acc_inside ih _

theorem CellThread.wellFounded_next (body' : κ' → Section ε σ) :
    WellFounded fun q p : CellThread ε γ ν χ σ κ' α' => CellThread.Next body' q p := by
  constructor
  intro t
  cases t with
  | outside p => exact CellThread.acc_outside body' p
  | inside rest next => exact CellThread.acc_inside (CellThread.acc_outside body' next) rest

end Lives

variable [DecidableEq τ]

def CellMachine.become (m : CellMachine τ ε γ ν χ σ κ α) (t : τ) (p : CellThread ε γ ν χ σ κ α) :
    CellMachine τ ε γ ν χ σ κ α :=
  { m with thread := Function.update m.thread t p }

theorem CellSimulation.become (h : CellSimulation A m b) {p : CellThread ε γ ν χ σ κ' α'}
    {q : Thread ε σ κ α} (hp : ThreadFollows A m.cells p q) :
    CellSimulation A (m.become t p) (b.become t q) where
  shared := h.shared
  holder := h.holder
  stopped := h.stopped
  cells := h.cells
  thread u := by
    by_cases hu : u = t
    · subst hu
      simpa only [CellMachine.become, Machine.become, Function.update_self] using hp
    · simpa only [CellMachine.become, Machine.become, Function.update_of_ne hu] using h.thread u
  entered := h.entered
  acted := h.acted
  exited := h.exited

/-- A step that only the machine with cells makes. -/
theorem CellSimulation.alone (h : CellSimulation A m b) {p : CellThread ε γ ν χ σ κ' α'}
    (hp : ThreadFollows A m.cells p (b.thread t)) : CellSimulation A (m.become t p) b := by
  have hb : b.become t (b.thread t) = b := by
    simp only [Machine.become, Function.update_eq_self]
  rw [← hb]
  exact h.become hp

theorem CellSimulation.step_load (h : CellSimulation A m b) {c : γ}
    {next : ν → CellProgram γ ν χ σ κ' α'} (ht : m.thread t = .outside (.load c next)) :
    CellSimulation A (m.become t (.outside (next (m.cells c)))) b := by
  obtain ⟨K, q, hb, hK, hf⟩ := h.outside ht
  cases hf with
  | load hempty hvalue =>
    obtain ⟨L, hL, hnext⟩ := h.load hK hempty hvalue
    apply h.alone
    rw [hb]
    exact .outside hL hnext

variable [DecidableEq γ]

/-- One step of one thread. Nothing guards the cells. -/
inductive CellStep (body : κ → Section ε σ) :
    CellMachine τ ε γ ν χ σ κ α → CellMachine τ ε γ ν χ σ κ α → Prop
  | load {m : CellMachine τ ε γ ν χ σ κ α} (t : τ) {c : γ} {next : ν → CellProgram γ ν χ σ κ α} :
      m.Running → m.thread t = .outside (.load c next) →
      CellStep body m (m.become t (.outside (next (m.cells c))))
  | store {m : CellMachine τ ε γ ν χ σ κ α} (t : τ) {c : γ} {v : ν}
      {next : CellProgram γ ν χ σ κ α} :
      m.Running → m.thread t = .outside (.store c v next) →
      CellStep body m { m.become t (.outside next) with cells := Function.update m.cells c v }
  | exit {m : CellMachine τ ε γ ν χ σ κ α} (t : τ) {x : χ} :
      m.Running → m.thread t = .outside (.exit x) → CellStep body m { m with exited := some x }
  | peek {m : CellMachine τ ε γ ν χ σ κ α} (t : τ) {next : σ → CellProgram γ ν χ σ κ α} :
      m.Running → m.thread t = .outside (.peek next) →
      CellStep body m (m.become t (.outside (next m.shared)))
  | act {m : CellMachine τ ε γ ν χ σ κ α} (t : τ) {a : α} {next : CellProgram γ ν χ σ κ α} :
      m.Running → m.thread t = .outside (.act a next) →
      CellStep body m { m.become t (.outside next) with acted := m.acted ++ [(t, a)] }
  | enter {m : CellMachine τ ε γ ν χ σ κ α} (t : τ) {c : κ} {next : CellProgram γ ν χ σ κ α} :
      m.Running → m.thread t = .outside (.locked c next) → m.holder = none →
      CellStep body m { m.become t (.inside (body c) next) with
        holder := some t, entered := m.entered ++ [(t, c)] }
  | inner {m : CellMachine τ ε γ ν χ σ κ α} (t : τ) {f : σ → σ} {rest : σ → Section ε σ}
      {next : CellProgram γ ν χ σ κ α} :
      m.Running → m.thread t = .inside (.step f rest) next →
      CellStep body m { m.become t (.inside (rest m.shared) next) with shared := f m.shared }
  | leave {m : CellMachine τ ε γ ν χ σ κ α} (t : τ) {next : CellProgram γ ν χ σ κ α} :
      m.Running → m.thread t = .inside .done next →
      CellStep body m { m.become t (.outside next) with holder := none }
  | abort {m : CellMachine τ ε γ ν χ σ κ α} (t : τ) {e : ε} {next : CellProgram γ ν χ σ κ α} :
      m.Running → m.thread t = .inside (.abort e) next →
      CellStep body m { m with stopped := some e }

abbrev CellReaches (body : κ → Section ε σ) :
    CellMachine τ ε γ ν χ σ κ α → CellMachine τ ε γ ν χ σ κ α → Prop :=
  ReflTransGen (CellStep body)

/-- A thread that follows goes on to follow, whichever cell is filled meanwhile. -/
theorem ThreadFollows.store {cells : γ → ν} {p : CellThread ε γ ν χ σ κ' α'} {q : Thread ε σ κ α}
    (h : ThreadFollows A cells p q) (c : γ) :
    ThreadFollows A (Function.update cells c (A.value c)) p q := by
  have hseen {K : Set γ} (hK : ∀ d ∈ K, cells d = A.value d) :
      ∀ d ∈ K, Function.update cells c (A.value c) d = A.value d := by
    intro d hd
    by_cases hdc : d = c
    · subst hdc
      exact Function.update_self ..
    · rw [Function.update_of_ne hdc]
      exact hK d hd
  rcases h with ⟨hK, hf⟩ | ⟨hK, hf⟩
  · exact .outside (hseen hK) hf
  · exact .inside (hseen hK) hf

theorem CellSimulation.store (h : CellSimulation A m b) {c : γ}
    {p : CellProgram γ ν χ σ κ' α'} {q : Program σ κ α} {K : Set γ}
    (hb : b.thread t = .outside q) (hK : ∀ d ∈ K, m.cells d = A.value d)
    (hp : Follows A (insert c K) p q) :
    CellSimulation A { m.become t (.outside p) with
      cells := Function.update m.cells c (A.value c) } b := by
  let filled : CellMachine τ ε γ ν χ σ κ' α' :=
    { m with cells := Function.update m.cells c (A.value c) }
  have hfilled (d : γ) (hd : d = c ∨ m.cells d = A.value d) : filled.cells d = A.value d := by
    by_cases hdc : d = c
    · subst hdc
      exact Function.update_self ..
    · exact (Function.update_of_ne hdc ..).trans (hd.resolve_left hdc)
  have hsim : CellSimulation A filled b := by
    refine { h with cells := fun d => ?_, thread := fun u => (h.thread u).store c }
    by_cases hdc : d = c
    · exact .inr (hfilled d (.inl hdc))
    · rcases h.cells d with hd | hd
      · exact .inl ((Function.update_of_ne hdc ..).trans hd)
      · exact .inr (hfilled d (.inr hd))
  apply hsim.alone
  rw [hb]
  apply ThreadFollows.outside _ hp
  intro d hd
  rcases hd with rfl | hd
  · exact hfilled d (.inl rfl)
  · exact hfilled d (.inr (hK d hd))

section Forward

theorem CellSimulation.step_store (h : CellSimulation A m b) {c : γ} {v : ν}
    {next : CellProgram γ ν χ σ κ' α'} (ht : m.thread t = .outside (.store c v next)) :
    v = A.value c ∧ CellSimulation A { m.become t (.outside next) with
      cells := Function.update m.cells c v } b := by
  obtain ⟨K, q, hb, hK, hf⟩ := h.outside ht
  cases hf with
  | store hnext => exact ⟨rfl, h.store hb hK hnext⟩

/-- What the machine with cells does, the machine without does, or it need do nothing. -/
theorem CellStep.simulated (hbody : ∀ c' c, A.Taken c' c → body' c' = body c)
    (hm : CellSimulation A m b) (h : CellStep body' m m') :
    ∃ b', Reaches body b b' ∧ CellSimulation A m' b' := by
  cases h with
  | load t _ ht => exact ⟨b, .refl, hm.step_load ht⟩
  | store t _ ht => exact ⟨b, .refl, (hm.step_store ht).2⟩
  | exit t _ ht =>
    obtain ⟨K, q, -, -, hf⟩ := hm.outside ht
    cases hf with
    | exit hx =>
      refine ⟨b, .refl, { hm with exited := fun y hy => ?_ }⟩
      cases hy
      exact hx
  | peek t hgo ht =>
    obtain ⟨K, q, hb, hK, hf⟩ := hm.outside ht
    cases hf with
    | peek hnext =>
      refine ⟨_, .single (.peek t (hm.running hgo) hb), hm.become ?_⟩
      rw [← hm.shared]
      exact .outside hK (hnext m.shared)
  | act t hgo ht =>
    obtain ⟨K, q, hb, hK, hf⟩ := hm.outside ht
    cases hf with
    | act ha hnext =>
      refine ⟨_, .single (.act t (hm.running hgo) hb), ?_⟩
      exact { hm.become (.outside hK hnext) with
        acted := List.rel_append hm.acted (.cons ⟨rfl, ha⟩ .nil) }
  | enter t hgo ht hfree =>
    obtain ⟨K, q, hb, hK, hf⟩ := hm.outside ht
    cases hf with
    | locked hc hnext =>
      refine ⟨_, .single (.enter t (hm.running hgo) hb (hm.holder ▸ hfree)), ?_⟩
      rw [hbody _ _ hc]
      exact { hm.become (.inside hK hnext) with
        holder := rfl
        entered := List.rel_append hm.entered (.cons ⟨rfl, hc⟩ .nil) }
  | inner t hgo ht =>
    obtain ⟨K, q, hb, hK, hnext⟩ := hm.inside ht
    refine ⟨_, .single (.inner t (hm.running hgo) hb), ?_⟩
    rw [← hm.shared]
    exact { hm.become (.inside hK hnext) with shared := rfl }
  | leave t hgo ht =>
    obtain ⟨K, q, hb, hK, hnext⟩ := hm.inside ht
    refine ⟨_, .single (.leave t (hm.running hgo) hb), ?_⟩
    exact { hm.become (.outside hK hnext) with holder := rfl }
  | abort t hgo ht =>
    obtain ⟨K, q, hb, -, -⟩ := hm.inside ht
    exact ⟨_, .single (.abort t (hm.running hgo) hb), { hm with stopped := rfl }⟩

theorem CellReaches.simulated (hbody : ∀ c' c, A.Taken c' c → body' c' = body c)
    (hm : CellSimulation A m b) (h : CellReaches body' m m') :
    ∃ b', Reaches body b b' ∧ CellSimulation A m' b' := by
  induction h with
  | refl => exact ⟨b, .refl, hm⟩
  | tail _ hstep ih =>
    obtain ⟨b₁, hreach, hsim⟩ := ih
    obtain ⟨b₂, hreach', hsim'⟩ := hstep.simulated hbody hsim
    exact ⟨b₂, hreach.trans hreach', hsim'⟩

/-- A cell that has been filled keeps what it holds. -/
theorem CellReaches.kept (hbody : ∀ c' c, A.Taken c' c → body' c' = body c)
    (hm : CellSimulation A m b) (h : CellReaches body' m m') {c : γ} (hc : m.cells c ≠ A.empty) :
    m'.cells c = m.cells c := by
  induction h with
  | refl => rfl
  | tail hreach hstep ih =>
    obtain ⟨b', -, hsim⟩ := CellReaches.simulated hbody hm hreach
    rw [← ih]
    cases hstep with
    | @store t d v _ _ ht =>
      obtain ⟨rfl, -⟩ := hsim.step_store ht
      by_cases hcd : c = d
      · subst hcd
        rw [← ih] at hc
        rw [(hsim.cells c).resolve_left hc]
        exact Function.update_self ..
      · exact Function.update_of_ne hcd ..
    | load | exit | peek | act | enter | inner | leave | abort => rfl

end Forward

section Backward

/-- The program's next step is one that the other machine makes too. -/
def CellProgram.Settled : CellProgram γ ν χ σ κ α → Prop
  | .load _ _ | .store _ _ _ | .exit _ => False
  | _ => True

/-- Where nothing can be lacking, a thread comes to the end of its loads and stores. -/
theorem Follows.settles {K : Set γ} {p : CellProgram γ ν χ σ κ' α'} {q : Program σ κ α}
    (hlack : ∀ x, ¬A.Lacking x) (hf : Follows A K p q) (hm : CellSimulation A m b)
    (hgo : m.Running) (ht : m.thread t = .outside p) (hK : ∀ c ∈ K, m.cells c = A.value c) :
    ∃ m' p', CellReaches body' m m' ∧ CellSimulation A m' b ∧ m'.Running ∧
      m'.thread t = .outside p' ∧ p'.Settled := by
  induction hf generalizing m with
  | finished | peek | act | locked => exact ⟨m, _, .refl, hm, hgo, ht, trivial⟩
  | exit hx => exact absurd hx (hlack _)
  | @load K c next q hempty hvalue ihempty ihvalue =>
    have hstep : CellStep body' m (m.become t (.outside (next (m.cells c)))) := .load t hgo ht
    have hthread : (m.become t (.outside (next (m.cells c)))).thread t =
        .outside (next (m.cells c)) := Function.update_self ..
    have hsim := hm.step_load ht
    by_cases hc : m.cells c = A.value c
    · rw [hc] at hstep hthread hsim
      obtain ⟨m', p', hreach, hrest⟩ := ihvalue hsim hgo hthread (by
        intro d hd
        rcases hd with rfl | hd
        · exact hc
        · exact hK d hd)
      exact ⟨m', p', .head hstep hreach, hrest⟩
    · rw [(hm.cells c).resolve_right hc] at hstep hthread hsim
      obtain ⟨m', p', hreach, hrest⟩ := ihempty (fun h => hc (hK c h)) hsim hgo hthread hK
      exact ⟨m', p', .head hstep hreach, hrest⟩
  | @store K c p q hf ih =>
    have hstep : CellStep body' m { m.become t (.outside p) with
        cells := Function.update m.cells c (A.value c) } := .store t hgo ht
    obtain ⟨m', p', hreach, hrest⟩ := ih (hm.step_store ht).2 hgo (Function.update_self ..) (by
      intro d hd
      by_cases hdc : d = c
      · subst hdc
        exact Function.update_self ..
      · exact (Function.update_of_ne hdc ..).trans (hK d (hd.resolve_left hdc)))
    exact ⟨m', p', .head hstep hreach, hrest⟩

/-- The two machines at one thread, once the thread with cells has nothing left to load. -/
theorem CellSimulation.settled (hlack : ∀ x, ¬A.Lacking x) (hm : CellSimulation A m b)
    (hgo : m.Running) {q : Program σ κ α} (hb : b.thread t = .outside q) :
    ∃ m' p' K, CellReaches body' m m' ∧ CellSimulation A m' b ∧ m'.Running ∧
      m'.thread t = .outside p' ∧ p'.Settled ∧ (∀ c ∈ K, m'.cells c = A.value c) ∧
      Follows A K p' q := by
  have hthread := hm.thread t
  rw [hb] at hthread
  generalize ht : m.thread t = x at hthread
  cases hthread with
  | outside hK hf =>
    obtain ⟨m', p', hreach, hsim, hgo', ht', hp⟩ := hf.settles hlack hm hgo ht hK
    obtain ⟨L, q', hb', hL, hf'⟩ := hsim.outside ht'
    rw [hb] at hb'
    cases hb'
    exact ⟨m', p', L, hreach, hsim, hgo', ht', hp, hL, hf'⟩

/-- Where nothing can be lacking, what the machine without cells does, the machine with cells
does, after some loads and stores. -/
theorem CellSimulation.matched (hbody : ∀ c' c, A.Taken c' c → body' c' = body c)
    (hlack : ∀ x, ¬A.Lacking x) (hm : CellSimulation A m b) (h : Step body b b') :
    ∃ m', TransGen (CellStep body') m m' ∧ CellSimulation A m' b' := by
  have hrunning (hgo : b.stopped = none) : m.Running := by
    refine ⟨hm.stopped.trans hgo, ?_⟩
    cases hx : m.exited with
    | none => rfl
    | some x => exact absurd (hm.exited x hx) (hlack x)
  cases h with
  | peek t hgo hb =>
    obtain ⟨m', p', K, hreach, hsim, hgo', ht, hp, hK, hf⟩ := hm.settled hlack (hrunning hgo) hb
    cases hf with
    | load | store | exit => exact hp.elim
    | peek hnext =>
      refine ⟨_, .tail' hreach (.peek t hgo' ht), hsim.become ?_⟩
      rw [← hsim.shared]
      exact .outside hK (hnext m'.shared)
  | act t hgo hb =>
    obtain ⟨m', p', K, hreach, hsim, hgo', ht, hp, hK, hf⟩ := hm.settled hlack (hrunning hgo) hb
    cases hf with
    | load | store | exit => exact hp.elim
    | act ha hnext =>
      refine ⟨_, .tail' hreach (.act t hgo' ht), ?_⟩
      exact { hsim.become (.outside hK hnext) with
        acted := List.rel_append hsim.acted (.cons ⟨rfl, ha⟩ .nil) }
  | enter t hgo hb hfree =>
    obtain ⟨m', p', K, hreach, hsim, hgo', ht, hp, hK, hf⟩ := hm.settled hlack (hrunning hgo) hb
    cases hf with
    | load | store | exit => exact hp.elim
    | locked hc hnext =>
      refine ⟨_, .tail' hreach (.enter t hgo' ht (hsim.holder.trans hfree)), ?_⟩
      rw [hbody _ _ hc]
      exact { hsim.become (.inside hK hnext) with
        holder := rfl
        entered := List.rel_append hsim.entered (.cons ⟨rfl, hc⟩ .nil) }
  | inner t hgo hb =>
    obtain ⟨K, p, ht, hK, hnext⟩ := hm.matched_inside hb
    refine ⟨_, .single (.inner t (hrunning hgo) ht), ?_⟩
    rw [← hm.shared]
    exact { hm.become (.inside hK hnext) with shared := rfl }
  | leave t hgo hb =>
    obtain ⟨K, p, ht, hK, hnext⟩ := hm.matched_inside hb
    refine ⟨_, .single (.leave t (hrunning hgo) ht), ?_⟩
    exact { hm.become (.outside hK hnext) with holder := rfl }
  | abort t hgo hb =>
    obtain ⟨K, p, ht, -, -⟩ := hm.matched_inside hb
    exact ⟨_, .single (.abort t (hrunning hgo) ht), { hm with stopped := rfl }⟩

theorem CellSimulation.matched_reaches (hbody : ∀ c' c, A.Taken c' c → body' c' = body c)
    (hlack : ∀ x, ¬A.Lacking x) (hm : CellSimulation A m b) (h : Reaches body b b') :
    ∃ m', CellReaches body' m m' ∧ CellSimulation A m' b' := by
  induction h with
  | refl => exact ⟨m, .refl, hm⟩
  | tail _ hstep ih =>
    obtain ⟨m₁, hreach, hsim⟩ := ih
    obtain ⟨m₂, hreach', hsim'⟩ := hsim.matched hbody hlack hstep
    exact ⟨m₂, hreach.trans hreach'.to_reflTransGen, hsim'⟩

end Backward

section Progress

theorem CellProgram.progress {p : CellProgram γ ν χ σ κ' α'} (hgo : m.Running)
    (ht : m.thread t = .outside p) (hp : ¬p.Settled) : ∃ m', CellStep body' m m' := by
  cases p with
  | load c next => exact ⟨_, .load t hgo ht⟩
  | store c v next => exact ⟨_, .store t hgo ht⟩
  | exit x => exact ⟨_, .exit t hgo ht⟩
  | finished | peek | act | locked => exact absurd trivial hp

/-- Where nothing can be lacking and no step is possible, no step is possible without cells. -/
theorem CellSimulation.final (hbody : ∀ c' c, A.Taken c' c → body' c' = body c)
    (hlack : ∀ x, ¬A.Lacking x) (hm : CellSimulation A m b) (hend : ∀ m', ¬CellStep body' m m') :
    ∀ b', ¬Step body b b' := by
  intro b' hstep
  obtain ⟨m', hreach, -⟩ := hm.matched hbody hlack hstep
  obtain ⟨m₁, hfirst, -⟩ := TransGen.head'_iff.mp hreach
  exact hend m₁ hfirst

/-- A thread with cells has finished where it stands still and the other thread has finished. -/
theorem CellSimulation.finished (hm : CellSimulation A m b) (hgo : m.Running)
    (hend : ∀ m', ¬CellStep body' m m') (hb : b.thread t = .outside .finished) :
    m.thread t = .outside .finished := by
  have hthread := hm.thread t
  rw [hb] at hthread
  generalize ht : m.thread t = x at hthread
  cases hthread with
  | outside _ hf =>
    cases hf with
    | finished => rfl
    | load | store | exit =>
      obtain ⟨m', hstep⟩ : ∃ m', CellStep body' m m' := CellProgram.progress hgo ht id
      exact absurd hstep (hend m')

theorem CellStep.running (h : CellStep body' m m') : m.Running := by
  cases h <;> assumption

def CellMachine.threads [Fintype τ] (m : CellMachine τ ε γ ν χ σ κ α) :
    Multiset (CellThread ε γ ν χ σ κ α) := Finset.univ.val.map m.thread

theorem CellStep.threads [Fintype τ] (hgo : m'.Running) (h : CellStep body' m m') :
    CutExpand (CellThread.Next body') m'.threads m.threads := by
  cases h with
  | load t _ ht =>
    apply cutExpand_update
    rw [ht]
    exact .load _
  | store t _ ht =>
    apply cutExpand_update
    rw [ht]
    exact .store
  | exit t _ ht => cases hgo.2
  | peek t _ ht =>
    apply cutExpand_update
    rw [ht]
    exact .peek _
  | act t _ ht =>
    apply cutExpand_update
    rw [ht]
    exact .act
  | enter t _ ht _ =>
    apply cutExpand_update
    rw [ht]
    exact .enter
  | inner t _ ht =>
    apply cutExpand_update
    rw [ht]
    exact .inner _
  | leave t _ ht =>
    apply cutExpand_update
    rw [ht]
    exact .leave
  | abort t _ _ => cases hgo.1

/-- No execution goes on forever. -/
theorem wellFounded_cellStep [Fintype τ] (body' : κ' → Section ε σ) :
    WellFounded fun m' m : CellMachine τ ε γ ν χ σ κ' α' => CellStep body' m m' := by
  have hended {m : CellMachine τ ε γ ν χ σ κ' α'} (h : ¬m.Running) :
      Acc (fun m' m => CellStep body' m m') m := by
    constructor
    intro m' hstep
    exact absurd hstep.running h
  constructor
  intro m
  have hthreads := (WellFounded.cutExpand (CellThread.wellFounded_next body')).apply m.threads
  generalize hm : m.threads = threads at hthreads
  induction hthreads generalizing m with
  | intro threads _ ih =>
    constructor
    intro m' hstep
    by_cases hgo : m'.Running
    · have hless := hstep.threads hgo
      rw [hm] at hless
      exact ih _ hless m' rfl
    · exact hended hgo

end Progress
end SharedCells
