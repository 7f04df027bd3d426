import Mathlib.Logic.Relation

/-! Programs that make requests to a server. A program has memory of its own, which the server may
change when it answers. What one server does that another can do as well, it does for every
program. -/
namespace Clients
open Relation

/-- A program with memory `μ`: it looks at its memory, changes it, says something, or makes a
request and goes on with the answer. -/
inductive Client (μ κ ρ ω α : Type)
  | exit (a : α)
  | look (next : μ → Client μ κ ρ ω α)
  | store (f : μ → μ) (next : Client μ κ ρ ω α)
  | say (o : ω) (next : Client μ κ ρ ω α)
  | request (c : κ) (next : ρ → Client μ κ ρ ω α)

variable {μ κ ρ ω α β S T : Type}

def Client.bind : Client μ κ ρ ω α → (α → Client μ κ ρ ω β) → Client μ κ ρ ω β
  | .exit a, f => f a
  | .look next, f => .look fun m => (next m).bind f
  | .store g next, f => .store g (next.bind f)
  | .say o next, f => .say o (next.bind f)
  | .request c next, f => .request c fun v => (next v).bind f

/-- The answers a server may give in a state, and what becomes of the state and of the program's
memory. -/
abbrev Server (S μ κ ρ : Type) := κ → ρ → S → μ → S → μ → Prop

/-- A program, the server's state, the program's memory, and what the program has said. -/
structure Config (S μ κ ρ ω α : Type) where
  client : Client μ κ ρ ω α
  state : S
  memory : μ
  said : List ω

def Config.withState (cfg : Config S μ κ ρ ω α) (t : T) : Config T μ κ ρ ω α :=
  { cfg with state := t }

inductive Step (serves : Server S μ κ ρ) : Config S μ κ ρ ω α → Config S μ κ ρ ω α → Prop
  | look {next : μ → Client μ κ ρ ω α} {s : S} {m : μ} {said : List ω} :
      Step serves ⟨.look next, s, m, said⟩ ⟨next m, s, m, said⟩
  | store {f : μ → μ} {next : Client μ κ ρ ω α} {s : S} {m : μ} {said : List ω} :
      Step serves ⟨.store f next, s, m, said⟩ ⟨next, s, f m, said⟩
  | say {o : ω} {next : Client μ κ ρ ω α} {s : S} {m : μ} {said : List ω} :
      Step serves ⟨.say o next, s, m, said⟩ ⟨next, s, m, said ++ [o]⟩
  | request {c : κ} {v : ρ} {next : ρ → Client μ κ ρ ω α} {s s' : S} {m m' : μ}
      {said : List ω} : serves c v s m s' m' →
      Step serves ⟨.request c next, s, m, said⟩ ⟨next v, s', m', said⟩

abbrev Reaches (serves : Server S μ κ ρ) :
    Config S μ κ ρ ω α → Config S μ κ ρ ω α → Prop :=
  ReflTransGen (Step serves)

/-- All requests that the program may make are in `P`. -/
def Client.Only (P : κ → Prop) : Client μ κ ρ ω α → Prop
  | .exit _ => True
  | .look next => ∀ m, (next m).Only P
  | .store _ next => next.Only P
  | .say _ next => next.Only P
  | .request c next => P c ∧ ∀ v, (next v).Only P

theorem Client.Only.bind {P : κ → Prop} {p : Client μ κ ρ ω α} {f : α → Client μ κ ρ ω β}
    (hp : p.Only P) (hf : ∀ a, (f a).Only P) : (p.bind f).Only P := by
  induction p with
  | exit a => exact hf a
  | look next ih => exact fun m => ih m (hp m)
  | store g next ih => exact ih hp
  | say o next ih => exact ih hp
  | request c next ih => exact ⟨hp.1, fun v => ih v (hp.2 v)⟩

section Exits

variable {serves : Server S μ κ ρ} {s s' : S} {m m' : μ} {said said' : List ω} {a : α} {b : β}

/-- `p` comes to its end with `a`, where it has said `said'`. -/
def Exits (serves : Server S μ κ ρ) (p : Client μ κ ρ ω α) (s : S) (m : μ) (said : List ω)
    (a : α) (s' : S) (m' : μ) (said' : List ω) : Prop :=
  Reaches serves ⟨p, s, m, said⟩ ⟨.exit a, s', m', said'⟩

theorem exits_exit {c : α} :
    Exits serves (.exit c) s m said a s' m' said' ↔ c = a ∧ s = s' ∧ m = m' ∧ said = said' := by
  constructor
  · intro h
    rcases ReflTransGen.cases_head h with heq | ⟨_, hstep, -⟩
    · cases heq
      exact ⟨rfl, rfl, rfl, rfl⟩
    · cases hstep
  · rintro ⟨rfl, rfl, rfl, rfl⟩
    exact .refl

/-- Where only one step is possible, it is the first one on the way to any other end. -/
theorem reaches_next {cfg next goal : Config S μ κ ρ ω α} (hne : cfg ≠ goal)
    (hstep : Step serves cfg next) (honly : ∀ cfg', Step serves cfg cfg' → cfg' = next) :
    Reaches serves cfg goal ↔ Reaches serves next goal := by
  constructor
  · intro h
    rcases ReflTransGen.cases_head h with heq | ⟨cfg', hfirst, hrest⟩
    · exact absurd heq hne
    · rwa [honly cfg' hfirst] at hrest
  · exact fun h => .head hstep h

theorem exits_look {next : μ → Client μ κ ρ ω α} :
    Exits serves (.look next) s m said a s' m' said' ↔
      Exits serves (next m) s m said a s' m' said' := by
  apply reaches_next _ .look
  · rintro _ ⟨⟩
    rfl
  · rintro ⟨⟩

theorem exits_store {f : μ → μ} {next : Client μ κ ρ ω α} :
    Exits serves (.store f next) s m said a s' m' said' ↔
      Exits serves next s (f m) said a s' m' said' := by
  apply reaches_next _ .store
  · rintro _ ⟨⟩
    rfl
  · rintro ⟨⟩

theorem exits_say {o : ω} {next : Client μ κ ρ ω α} :
    Exits serves (.say o next) s m said a s' m' said' ↔
      Exits serves next s m (said ++ [o]) a s' m' said' := by
  apply reaches_next _ .say
  · rintro _ ⟨⟩
    rfl
  · rintro ⟨⟩

theorem exits_request {c : κ} {next : ρ → Client μ κ ρ ω α} :
    Exits serves (.request c next) s m said a s' m' said' ↔ ∃ v s₁ m₁, serves c v s m s₁ m₁ ∧
      Exits serves (next v) s₁ m₁ said a s' m' said' := by
  constructor
  · intro h
    rcases ReflTransGen.cases_head h with heq | ⟨_, hstep, hrest⟩
    · cases heq
    · cases hstep with
      | request hserves => exact ⟨_, _, _, hserves, hrest⟩
  · rintro ⟨v, s₁, m₁, hserves, h⟩
    exact .head (.request hserves) h

/-- One program after the other. -/
theorem exits_bind {p : Client μ κ ρ ω α} {f : α → Client μ κ ρ ω β} :
    Exits serves (p.bind f) s m said b s' m' said' ↔ ∃ a s₁ m₁ said₁,
      Exits serves p s m said a s₁ m₁ said₁ ∧ Exits serves (f a) s₁ m₁ said₁ b s' m' said' := by
  induction p generalizing s m said with
  | exit c =>
    simp only [Client.bind, exits_exit]
    constructor
    · exact fun h => ⟨c, s, m, said, ⟨rfl, rfl, rfl, rfl⟩, h⟩
    · rintro ⟨_, _, _, _, ⟨rfl, rfl, rfl, rfl⟩, h⟩
      exact h
  | look next ih => simp only [Client.bind, exits_look, ih]
  | store g next ih => simp only [Client.bind, exits_store, ih]
  | say o next ih => simp only [Client.bind, exits_say, ih]
  | request c next ih =>
    simp only [Client.bind, exits_request, ih]
    constructor
    · rintro ⟨v, s₁, m₁, hserves, a, s₂, m₂, said₂, hfirst, hrest⟩
      exact ⟨a, s₂, m₂, said₂, ⟨v, s₁, m₁, hserves, hfirst⟩, hrest⟩
    · rintro ⟨a, s₂, m₂, said₂, ⟨v, s₁, m₁, hserves, hfirst⟩, hrest⟩
      exact ⟨v, s₁, m₁, hserves, a, s₂, m₂, said₂, hfirst, hrest⟩

end Exits

section Simulation

variable {P : κ → Prop} {R : T → S → Prop} {stuck : κ → S → μ → Prop} {B : Server T μ κ ρ}
  {A : Server S μ κ ρ} {cfg cfg' : Config T μ κ ρ ω α} {s : S}

/-- What `B` does with a request in `P`, in a state related to one of `A`, `A` can do as well,
unless it gets stuck on the request. -/
def Simulates (P : κ → Prop) (R : T → S → Prop) (stuck : κ → S → μ → Prop) (B : Server T μ κ ρ)
    (A : Server S μ κ ρ) : Prop :=
  ∀ c v t m t' m' s, P c → R t s → B c v t m t' m' →
    stuck c s m ∨ ∃ s', A c v s m s' m' ∧ R t' s'

/-- The program is about to make a request that the server gets stuck on. -/
def Config.StuckAt (stuck : κ → S → μ → Prop) (cfg : Config S μ κ ρ ω α) : Prop :=
  ∃ c next, cfg.client = .request c next ∧ stuck c cfg.state cfg.memory

theorem Step.only (h : Step B cfg cfg') (hP : cfg.client.Only P) : cfg'.client.Only P := by
  cases h with
  | look => exact hP _
  | store => exact hP
  | say => exact hP
  | request _ => exact hP.2 _

theorem Reaches.only (h : Reaches B cfg cfg') (hP : cfg.client.Only P) :
    cfg'.client.Only P := by
  induction h with
  | refl => exact hP
  | tail _ hstep ih => exact hstep.only ih

theorem Simulates.step (hsim : Simulates P R stuck B A) (hP : cfg.client.Only P)
    (hR : R cfg.state s) (h : Step B cfg cfg') :
    (cfg.withState s).StuckAt (fun c s m => P c ∧ stuck c s m) ∨
      ∃ s', Step A (cfg.withState s) (cfg'.withState s') ∧ R cfg'.state s' := by
  cases h with
  | look => exact .inr ⟨s, .look, hR⟩
  | store => exact .inr ⟨s, .store, hR⟩
  | say => exact .inr ⟨s, .say, hR⟩
  | request hserves =>
    obtain hstuck | ⟨s', hA, hR'⟩ := hsim _ _ _ _ _ _ s hP.1 hR hserves
    · exact .inl ⟨_, _, rfl, hP.1, hstuck⟩
    · exact .inr ⟨s', .request hA, hR'⟩

/-- Every execution on `B` is one on `A`, as far as `A` does not get stuck: the program goes the
same way, with the same memory, and says the same. -/
theorem Simulates.reaches (hsim : Simulates P R stuck B A) (hP : cfg.client.Only P)
    (hR : R cfg.state s) (h : Reaches B cfg cfg') :
    (∃ s', Reaches A (cfg.withState s) (cfg'.withState s') ∧ R cfg'.state s') ∨
      ∃ mid s', Reaches B cfg mid ∧ Reaches B mid cfg' ∧
        Reaches A (cfg.withState s) (mid.withState s') ∧ R mid.state s' ∧
        (mid.withState s').StuckAt fun c s m => P c ∧ stuck c s m := by
  induction h using ReflTransGen.head_induction_on generalizing s with
  | refl => exact .inl ⟨s, .refl, hR⟩
  | @head cfg cfg₁ hstep hrest ih =>
    obtain hstuck | ⟨s₁, hfirst, hR₁⟩ := hsim.step hP hR hstep
    · exact .inr ⟨cfg, s, .refl, .head hstep hrest, .refl, hR, hstuck⟩
    · obtain ⟨s', hreach, hR'⟩ | ⟨mid, s', hto, hfrom, hreach, hR', hstuck⟩ :=
        ih (hstep.only hP) hR₁
      · exact .inl ⟨s', .head hfirst hreach, hR'⟩
      · exact .inr ⟨mid, s', .head hstep hto, hfrom, .head hfirst hreach, hR', hstuck⟩

/-- Where `A` does not get stuck on any request in `P`. -/
theorem Simulates.reaches_end (hsim : Simulates P R stuck B A)
    (hfree : ∀ c s m, P c → ¬stuck c s m) (hP : cfg.client.Only P) (hR : R cfg.state s)
    (h : Reaches B cfg cfg') :
    ∃ s', Reaches A (cfg.withState s) (cfg'.withState s') ∧ R cfg'.state s' := by
  apply (hsim.reaches hP hR h).resolve_right
  rintro ⟨_, _, -, -, -, -, c, _, -, hPc, hstuck⟩
  exact hfree _ _ _ hPc hstuck

end Simulation

end Clients
