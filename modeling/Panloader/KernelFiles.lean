import Mathlib.Data.Set.Insert
import Panloader.PanwrapThreads

/-! A program with threads beside the kernel's table of open descriptors. Each part of a call that
holds the mutex is one step here; none of them writes `mali_fd` more than once. Descriptors that
come from other system calls are in the table from the start. -/
namespace Panloader
open LockedSections

abbrev WrapThread := Thread Halt World Call RealCall

/-- A program with threads and the kernel it runs on. `calling` are the calls under way, `files`
the descriptors that are open, each with its path, and `owned` those that calls of the program
have returned and none has been made to close. -/
structure Process (τ : Type) where
  machine : Machine τ Halt World Call RealCall
  calling : τ → Option Call
  files : ℤ → Option String
  owned : Set ℤ

/-- The descriptor that a call returns, or -1. -/
def Call.descriptor : Call → ℤ
  | .open _ _ _ _ ret => ret
  | _ => -1

/-- The descriptor that a call is to close. -/
def Call.closing : Call → Option ℤ
  | .close fd _ => some fd
  | _ => none

/-- What a real call does to the open descriptors; `answer` is what an `open` returns. -/
def RealCall.Updates (answer : ℤ) (files files' : ℤ → Option String) : RealCall → Prop
  | .open _ path _ _ => (answer = -1 ∧ files' = files) ∨
      (0 ≤ answer ∧ files answer = none ∧ files' = Function.update files answer (some path))
  -- the descriptor is free again whatever `close` returns
  | .close fd => files' = Function.update files fd none
  | _ => files' = files

section Steps

variable {τ : Type} [DecidableEq τ]

/-- A thread makes a call or returns from one, or goes on with it. A call comes with the answer
that the kernel will give it. -/
inductive ProcessStep : Process τ → Process τ → Prop
  | call {p : Process τ} (t : τ) (call : Call) : p.machine.stopped = none → p.calling t = none →
      (∀ fd, call.closing = some fd → fd ∈ p.owned) →
      ProcessStep p { p with
        machine := p.machine.become t (.outside (call.program .finished))
        calling := Function.update p.calling t (some call)
        owned := p.owned \ {fd | call.closing = some fd} }
  | returned {p : Process τ} (t : τ) {call : Call} : p.machine.stopped = none →
      p.calling t = some call → p.machine.thread t = .outside .finished →
      ProcessStep p { p with
        calling := Function.update p.calling t none
        owned := p.owned ∪ {fd | fd = call.descriptor ∧ fd ≠ -1} }
  | real {p : Process τ} (t : τ) {call : Call} {a : RealCall} {next : WrapProgram}
      {files' : ℤ → Option String} : p.machine.stopped = none → p.calling t = some call →
      p.machine.thread t = .outside (.act a next) → a.Updates call.descriptor p.files files' →
      ProcessStep p { p with
        machine := { p.machine.become t (.outside next) with
          acted := p.machine.acted ++ [(t, a)] }
        files := files' }
  | wrapper {p : Process τ} {m' : Machine τ Halt World Call RealCall} :
      LockedSections.Step Cut.coarse.steps p.machine m' → m'.acted = p.machine.acted →
      ProcessStep p { p with machine := m' }

/-- No call is under way, and `files` are open. -/
def Process.initial (w : World) (files : ℤ → Option String) : Process τ where
  machine := .initial w fun _ => .finished
  calling _ := none
  files := files
  owned := {fd | files fd ≠ none}

abbrev ProcessReaches : Process τ → Process τ → Prop := Relation.ReflTransGen ProcessStep

end Steps

section Stages

/-- A thread in an `open` whose real call has been made. -/
inductive NotesOpened (call : Call) : WrapThread → Prop
  | waits : NotesOpened call (.outside (.locked call .finished))
  | enters : NotesOpened call (.inside (.atomic call.underLock) .finished)
  | leaves : NotesOpened call (.inside .done .finished)
  | fails (e : Halt) : NotesOpened call (.inside (.abort e) .finished)
  | returns : NotesOpened call (.outside .finished)

/-- A thread in a `close` whose real call is yet to be made. -/
inductive WillClose (fd ret : ℤ) : WrapThread → Prop
  | starts : WillClose fd ret (.outside (testMaliFd fd (.act (.close fd) .finished)
      (.locked (.close fd ret) (.act (.close fd) .finished))))
  | tests : WillClose fd ret (.outside (.peek fun w => if fd ≠ w.maliFd then
      .act (.close fd) .finished else .locked (.close fd ret) (.act (.close fd) .finished)))
  | waits : WillClose fd ret (.outside (.locked (.close fd ret) (.act (.close fd) .finished)))
  | enters : WillClose fd ret
      (.inside (.atomic (Call.close fd ret).underLock) (.act (.close fd) .finished))
  | leaves : WillClose fd ret (.inside .done (.act (.close fd) .finished))
  | fails (e : Halt) : WillClose fd ret (.inside (.abort e) (.act (.close fd) .finished))
  | acts : WillClose fd ret (.outside (.act (.close fd) .finished))

/-- A real call that leaves the open descriptors as they are. -/
def RealCall.Harmless : RealCall → Prop
  | .open .. | .close _ => False
  | _ => True

inductive OnlyDecodes (call : Call) : WrapProgram → Prop
  | finished : OnlyDecodes call .finished
  | peek {next : World → WrapProgram} : (∀ w, OnlyDecodes call (next w)) →
      OnlyDecodes call (.peek next)
  | act {a : RealCall} {next : WrapProgram} : a.Harmless → OnlyDecodes call next →
      OnlyDecodes call (.act a next)
  | locked {next : WrapProgram} : OnlyDecodes call next → OnlyDecodes call (.locked call next)

inductive Decoding (call : Call) : WrapThread → Prop
  | outside {p : WrapProgram} : OnlyDecodes call p → Decoding call (.outside p)
  | enters {p : WrapProgram} : OnlyDecodes call p →
      Decoding call (.inside (.atomic call.underLock) p)
  | leaves {p : WrapProgram} : OnlyDecodes call p → Decoding call (.inside .done p)
  | fails (e : Halt) {p : WrapProgram} : OnlyDecodes call p →
      Decoding call (.inside (.abort e) p)

/-- Where a thread can be in the call it makes, with the descriptor that it alone has to do with:
the one that an `open` is to return, or that a `close` is to close. -/
inductive Stands : Option Call → WrapThread → Option ℤ → Prop
  | idle : Stands none (.outside .finished) none
  | opening (symbol : OpenSymbol) (path : String) (flags mode : U32) (ret : ℤ) :
      Stands (some (.open symbol path flags mode ret))
        (.outside ((Call.open symbol path flags mode ret).program .finished)) none
  | opened {symbol : OpenSymbol} {path : String} {flags mode : U32} {ret : ℤ} {x : WrapThread} :
      NotesOpened (.open symbol path flags mode ret) x →
      Stands (some (.open symbol path flags mode ret)) x (if ret = -1 then none else some ret)
  | closing {fd ret : ℤ} {x : WrapThread} : WillClose fd ret x →
      Stands (some (.close fd ret)) x (some fd)
  | closed (fd ret : ℤ) : Stands (some (.close fd ret)) (.outside .finished) none
  | decoding {call : Call} {x : WrapThread} : call.Decodes → Decoding call x →
      Stands (some call) x none

/-- The next thing the thread does outside is the real `close` of `fd`. -/
def Closes (fd : ℤ) : WrapThread → Prop
  | .outside (.act (.close fd') _) => fd' = fd
  | .inside .done (.act (.close fd') _) => fd' = fd
  | _ => False

end Stages

/-- What holds between `mali_fd`, the threads and the kernel. -/
structure Sound {τ : Type} (mali : ℤ) (thread : τ → WrapThread) (calling : τ → Option Call)
    (files : ℤ → Option String) (owned : Set ℤ) (held : τ → Option ℤ) : Prop where
  stands : ∀ t, Stands (calling t) (thread t) (held t)
  device : mali ≠ 0 → files mali = some "/dev/mali0"
  clear : ∀ t fd, Closes fd (thread t) → mali = fd → fd = 0
  nonneg : ∀ fd, files fd ≠ none → 0 ≤ fd
  owned_open : ∀ fd ∈ owned, files fd ≠ none
  held_open : ∀ t fd, held t = some fd → files fd ≠ none
  apart : ∀ t fd, held t = some fd → fd ∉ owned
  alone : ∀ t u fd, held t = some fd → held u = some fd → t = u
  named : ∀ t symbol path flags mode fd, calling t = some (.open symbol path flags mode fd) →
    held t = some fd → files fd = some path

section Positions

theorem NotesOpened.not_closes {call : Call} {x : WrapThread} (h : NotesOpened call x) (fd : ℤ) :
    ¬Closes fd x := by
  cases h <;> exact id

theorem Stands.held_of_closes {call : Option Call} {x : WrapThread} {held : Option ℤ} {fd : ℤ}
    (h : Stands call x held) (hcloses : Closes fd x) : held = some fd := by
  cases h with
  | idle | opening | closed => exact hcloses.elim
  | opened hx => exact absurd hcloses (hx.not_closes fd)
  | @closing fd' ret x hx =>
    cases hx with
    | starts | tests | waits | enters | fails => exact hcloses.elim
    | leaves | acts => exact congrArg some hcloses
  | decoding _ hx =>
    cases hx with
    | outside hp =>
      cases hp with
      | @act a next ha _ => cases a <;> first | exact ha.elim | exact hcloses.elim
      | finished | peek | locked => exact hcloses.elim
    | leaves hp =>
      cases hp with
      | @act a next ha _ => cases a <;> first | exact ha.elim | exact hcloses.elim
      | finished | peek | locked => exact hcloses.elim
    | enters | fails => exact hcloses.elim

theorem Call.onlyDecodes_testMaliFd {call : Call} {fd : ℤ} {a : RealCall} (ha : a.Harmless) :
    OnlyDecodes call (testMaliFd fd (.act a .finished) (.locked call .finished)) := by
  apply OnlyDecodes.peek
  intro w
  split_ifs
  · exact .act ha .finished
  · apply OnlyDecodes.peek
    intro w'
    split_ifs
    · exact .act ha .finished
    · exact .locked .finished

/-- Where a thread stands that begins with a call. -/
theorem Call.stands (call : Call) :
    Stands (some call) (.outside (call.program .finished)) call.closing := by
  cases call with
  | «open» symbol path flags mode ret => exact .opening symbol path flags mode ret
  | close fd ret =>
    rw [Call.program]
    split_ifs
    · exact .closing .acts
    · exact .closing .starts
  | ioctl fd request arg env =>
    refine .decoding trivial (.outside ?_)
    rw [Call.program]
    split_ifs
    · exact .locked .finished
    · apply OnlyDecodes.peek
      intro w
      split_ifs
      · exact .act trivial .finished
      · exact .locked .finished
  | mmap symbol addr length prot flags fd offset ret =>
    exact .decoding trivial (.outside (Call.onlyDecodes_testMaliFd trivial))
  | munmap addr length ret => exact .decoding trivial (.outside (.locked .finished))

/-- A `close` is made at once only where no device has its descriptor. -/
theorem Call.closes_program {call : Call} {fd : ℤ}
    (h : Closes fd (.outside (call.program .finished))) : fd ≤ 0 := by
  cases call with
  | close fd' ret =>
    rw [Call.program] at h
    by_cases hfd : fd' ≤ 0
    · rw [if_pos hfd] at h
      rw [← show fd' = fd from h]
      exact hfd
    · rw [if_neg hfd] at h
      exact h.elim
  | ioctl fd' request arg env =>
    rw [Call.program] at h
    by_cases hfd : fd' = 0
    · rw [if_pos hfd] at h
      exact h.elim
    · rw [if_neg hfd] at h
      exact h.elim
  | «open» | mmap | munmap => exact h.elim

/-- A call that has returned gives its descriptor to the program. -/
theorem Stands.held_of_returned {call : Call} {held : Option ℤ}
    (h : Stands (some call) (.outside .finished) held) (hfd : call.descriptor ≠ -1) :
    held = some call.descriptor := by
  cases h with
  | @opened symbol path flags mode ret x hx => exact if_neg hfd
  | closing hx => cases hx
  | closed => exact absurd rfl hfd
  | decoding hcall =>
    cases call with
    | «open» => exact hcall.elim
    | _ => exact absurd rfl hfd

end Positions

section Changes

variable {τ : Type} {mali : ℤ} {thread : τ → WrapThread}
  {calling : τ → Option Call} {files : ℤ → Option String} {owned : Set ℤ} {held : τ → Option ℤ}

theorem Sound.mali_nonneg (h : Sound mali thread calling files owned held) : 0 ≤ mali := by
  by_cases hmali : mali = 0
  · omega
  · apply h.nonneg
    rw [h.device hmali]
    exact Option.some_ne_none _

/-- `mali_fd` is cleared. -/
theorem Sound.forgets (h : Sound mali thread calling files owned held) :
    Sound 0 thread calling files owned held :=
  { h with
    device := fun hne => absurd rfl hne
    clear := fun _ _ _ hfd => hfd.symm }

/-- The thread that holds the descriptor of an open device notes it. -/
theorem Sound.notes (h : Sound mali thread calling files owned held) {t : τ} {fd : ℤ}
    (hheld : held t = some fd) (hfile : files fd = some "/dev/mali0")
    (ht : ¬Closes fd (thread t)) : Sound fd thread calling files owned held := by
  refine { h with device := fun _ => hfile, clear := fun u fd' hcloses hfd => ?_ }
  subst hfd
  -- nobody else could be about to close it
  obtain rfl := h.alone u t fd ((h.stands u).held_of_closes hcloses) hheld
  exact absurd hcloses ht

variable [DecidableEq τ]

theorem of_update {β : Type} {f : τ → β} {t u : τ} {x : β} {P : β → Prop}
    (h : P (Function.update f t x u)) : (u = t ∧ P x) ∨ (u ≠ t ∧ P (f u)) := by
  by_cases hu : u = t
  · subst hu
    rw [Function.update_self] at h
    exact .inl ⟨rfl, h⟩
  · rw [Function.update_of_ne hu] at h
    exact .inr ⟨hu, h⟩

theorem stands_update {t : τ} {c : Option Call} {x : WrapThread} {o : Option ℤ}
    (h : ∀ u, Stands (calling u) (thread u) (held u)) (hx : Stands c x o) (u : τ) :
    Stands (Function.update calling t c u) (Function.update thread t x u)
      (Function.update held t o u) := by
  by_cases hu : u = t
  · subst hu
    simp only [Function.update_self]
    exact hx
  · simp only [Function.update_of_ne hu]
    exact h u

/-- A thread goes on, with the descriptor it holds. -/
theorem Sound.goes (h : Sound mali thread calling files owned held) {t : τ} {x : WrapThread}
    (hx : Stands (calling t) x (held t)) (hclear : ∀ fd, Closes fd x → mali = fd → fd = 0) :
    Sound mali (Function.update thread t x) calling files owned held := by
  refine { h with stands := fun u => ?_, clear := fun u fd hcloses => ?_ }
  · have hstands := stands_update (t := t) h.stands hx u
    rwa [Function.update_eq_self, Function.update_eq_self] at hstands
  · rcases of_update (P := Closes fd) hcloses with ⟨-, hcloses⟩ | ⟨-, hcloses⟩
    · exact hclear fd hcloses
    · exact h.clear u fd hcloses

/-- A thread begins with a call, and holds the descriptor that it is to close. -/
theorem Sound.calls (h : Sound mali thread calling files owned held) (t : τ) {call : Call}
    (hmay : ∀ fd, call.closing = some fd → fd ∈ owned) :
    Sound mali (Function.update thread t (.outside (call.program .finished)))
      (Function.update calling t (some call)) files (owned \ {fd | call.closing = some fd})
      (Function.update held t call.closing) where
  stands := stands_update h.stands call.stands
  device := h.device
  clear u fd hcloses hmali := by
    rcases of_update (P := Closes fd) hcloses with ⟨-, hcloses⟩ | ⟨-, hcloses⟩
    · have hle := Call.closes_program hcloses
      have hge := h.mali_nonneg
      omega
    · exact h.clear u fd hcloses hmali
  nonneg := h.nonneg
  owned_open fd hfd := h.owned_open fd hfd.1
  held_open u fd hheld := by
    rcases of_update (P := (· = some fd)) hheld with ⟨-, hheld⟩ | ⟨-, hheld⟩
    · exact h.owned_open fd (hmay fd hheld)
    · exact h.held_open u fd hheld
  apart u fd hheld hfd := by
    rcases of_update (P := (· = some fd)) hheld with ⟨-, hheld⟩ | ⟨-, hheld⟩
    · exact hfd.2 hheld
    · exact h.apart u fd hheld hfd.1
  alone u v fd hu hv := by
    rcases of_update (P := (· = some fd)) hu with ⟨hut, hcall⟩ | ⟨-, hold⟩ <;>
      rcases of_update (P := (· = some fd)) hv with ⟨hvt, hcall'⟩ | ⟨-, hold'⟩
    · exact hut.trans hvt.symm
    -- a descriptor that the program owned was held by nobody
    · exact absurd (hmay fd hcall) (h.apart v fd hold')
    · exact absurd (hmay fd hcall') (h.apart u fd hold)
    · exact h.alone u v fd hold hold'
  named u symbol path flags mode fd hcall hheld := by
    by_cases hu : u = t
    · subst hu
      rw [Function.update_self] at hcall hheld
      cases hcall
      cases hheld
    · rw [Function.update_of_ne hu] at hcall hheld
      exact h.named u symbol path flags mode fd hcall hheld

/-- A thread has nothing more to do with what it held. -/
theorem Sound.lets_go (h : Sound mali thread calling files owned held) {t : τ} {x : WrapThread}
    {c : Option Call} (hx : Stands c x none) (hclear : ∀ fd, ¬Closes fd x) :
    Sound mali (Function.update thread t x) (Function.update calling t c) files owned
      (Function.update held t none) := by
  have hkept {u : τ} {fd : ℤ} (hu : Function.update held t none u = some fd) :
      u ≠ t ∧ held u = some fd := by
    rcases of_update (P := (· = some fd)) hu with ⟨-, hu⟩ | hu
    · cases hu
    · exact hu
  refine ⟨stands_update h.stands hx, h.device, fun u fd hcloses => ?_, h.nonneg, h.owned_open,
    fun u fd hu => h.held_open u fd (hkept hu).2, fun u fd hu => h.apart u fd (hkept hu).2,
    fun u v fd hu hv => h.alone u v fd (hkept hu).2 (hkept hv).2, ?_⟩
  · rcases of_update (P := Closes fd) hcloses with ⟨-, hcloses⟩ | ⟨-, hcloses⟩
    · exact absurd hcloses (hclear fd)
    · exact h.clear u fd hcloses
  · intro u symbol path flags mode fd hcall hheld
    obtain ⟨hu, hheld⟩ := hkept hheld
    rw [Function.update_of_ne hu] at hcall
    exact h.named u symbol path flags mode fd hcall hheld

/-- A call returns, and the program owns the descriptor that the thread held. -/
theorem Sound.returns (h : Sound mali thread calling files owned held) {t : τ} {call : Call}
    (hcall : calling t = some call) (ht : thread t = .outside .finished) :
    Sound mali thread (Function.update calling t none) files
      (owned ∪ {fd | fd = call.descriptor ∧ fd ≠ -1}) (Function.update held t none) := by
  have hstands := h.stands t
  rw [hcall, ht] at hstands
  have hgone := h.lets_go (t := t) .idle fun _ hcloses => hcloses
  rw [← ht, Function.update_eq_self] at hgone
  refine { hgone with owned_open := fun fd hfd => ?_, apart := fun u fd hu hfd => ?_ }
  · rcases hfd with hfd | ⟨rfl, hne⟩
    · exact h.owned_open fd hfd
    · exact h.held_open t _ (hstands.held_of_returned hne)
  · rcases hfd with hfd | ⟨rfl, hne⟩
    · exact hgone.apart u fd hu hfd
    · rcases of_update (P := (· = some call.descriptor)) hu with ⟨-, hu⟩ | ⟨hut, hu⟩
      · cases hu
      · exact hut (h.alone u t _ hu (hstands.held_of_returned hne))

/-- The kernel opens `fd`, which was free, for a thread that holds nothing. -/
theorem Sound.opens (h : Sound mali thread calling files owned held) {t : τ} {fd : ℤ}
    {path : String} (hfd : 0 ≤ fd) (hfree : files fd = none) (hnamed : ∀ symbol path' flags mode,
      calling t = some (.open symbol path' flags mode fd) → path' = path) :
    ∀ x, Stands (calling t) x (some fd) → (∀ fd', ¬Closes fd' x) →
      Sound mali (Function.update thread t x) calling (Function.update files fd (some path)) owned
        (Function.update held t (some fd)) := by
  intro x hx hclear
  have hopen {fd' : ℤ} (hfile : files fd' ≠ none) :
      Function.update files fd (some path) fd' = files fd' ∧ fd' ≠ fd := by
    have hne : fd' ≠ fd := by
      rintro rfl
      exact hfile hfree
    exact ⟨Function.update_of_ne hne .., hne⟩
  have hheld {u : τ} {fd' : ℤ} (hu : Function.update held t (some fd) u = some fd') :
      (u = t ∧ fd' = fd) ∨ (u ≠ t ∧ held u = some fd' ∧ fd' ≠ fd) := by
    rcases of_update (P := (· = some fd')) hu with ⟨hu, hfd'⟩ | ⟨hu, hold⟩
    · exact .inl ⟨hu, (Option.some.inj hfd').symm⟩
    · exact .inr ⟨hu, hold, (hopen (h.held_open u fd' hold)).2⟩
  constructor
  case stands =>
    intro u
    have hstands := stands_update (t := t) h.stands hx u
    rwa [Function.update_eq_self] at hstands
  case device =>
    intro hne
    have hfile := h.device hne
    rw [(hopen (by rw [hfile]; exact Option.some_ne_none _)).1]
    exact hfile
  case clear =>
    intro u fd' hcloses
    rcases of_update (P := Closes fd') hcloses with ⟨-, hcloses⟩ | ⟨-, hcloses⟩
    · exact absurd hcloses (hclear fd')
    · exact h.clear u fd' hcloses
  case nonneg =>
    intro fd' hfile
    by_cases hne : fd' = fd
    · omega
    · rw [Function.update_of_ne hne] at hfile
      exact h.nonneg fd' hfile
  case owned_open =>
    intro fd' hfd'
    rw [(hopen (h.owned_open fd' hfd')).1]
    exact h.owned_open fd' hfd'
  case held_open =>
    intro u fd' hu
    rcases hheld hu with ⟨-, rfl⟩ | ⟨-, hu, -⟩
    · rw [Function.update_self]
      exact Option.some_ne_none _
    · rw [(hopen (h.held_open u fd' hu)).1]
      exact h.held_open u fd' hu
  case apart =>
    intro u fd' hu hfd'
    rcases hheld hu with ⟨-, rfl⟩ | ⟨-, hu, -⟩
    · exact h.owned_open _ hfd' hfree
    · exact h.apart u fd' hu hfd'
  case alone =>
    intro u v fd' hu hv
    rcases hheld hu with ⟨rfl, hfd'⟩ | ⟨-, hu, hne⟩ <;>
      rcases hheld hv with ⟨rfl, hfd''⟩ | ⟨-, hv, hne'⟩
    · rfl
    · exact absurd hfd' hne'
    · exact absurd hfd'' hne
    · exact h.alone u v fd' hu hv
  case named =>
    intro u symbol path' flags mode fd' hcall hu
    rcases hheld hu with ⟨rfl, rfl⟩ | ⟨-, hu, -⟩
    · rw [Function.update_self, hnamed symbol path' flags mode hcall]
    · rw [(hopen (h.held_open u fd' hu)).1]
      exact h.named u symbol path' flags mode fd' hcall hu

/-- The kernel closes what a thread holds, and `mali_fd` is another descriptor. -/
theorem Sound.closes (h : Sound mali thread calling files owned held) {t : τ} {fd : ℤ}
    (hheld : held t = some fd) (hclear : mali = fd → fd = 0) {x : WrapThread}
    (hx : Stands (calling t) x none) (hnext : ∀ fd', ¬Closes fd' x) :
    Sound mali (Function.update thread t x) calling (Function.update files fd none) owned
      (Function.update held t none) := by
  have hgone := h.lets_go (t := t) hx hnext
  rw [Function.update_eq_self] at hgone
  have hother {u : τ} {fd' : ℤ} (hu : Function.update held t none u = some fd') : fd' ≠ fd := by
    rintro rfl
    rcases of_update (P := (· = some fd')) hu with ⟨-, hu⟩ | ⟨hut, hu⟩
    · cases hu
    · exact hut (h.alone u t fd' hu hheld)
  refine { hgone with
    device := fun hne => ?_
    nonneg := fun fd' hfile => ?_
    owned_open := fun fd' hfd' => ?_
    held_open := fun u fd' hu => ?_
    named := fun u symbol path flags mode fd' hcall hu => ?_ }
  · have hfd : mali ≠ fd := by
      rintro rfl
      exact hne (hclear rfl)
    rw [Function.update_of_ne hfd]
    exact h.device hne
  · by_cases hne : fd' = fd
    · subst hne
      rw [Function.update_self] at hfile
      exact absurd rfl hfile
    · rw [Function.update_of_ne hne] at hfile
      exact h.nonneg fd' hfile
  · have hne : fd' ≠ fd := by
      rintro rfl
      exact h.apart t fd' hheld hfd'
    rw [Function.update_of_ne hne]
    exact h.owned_open fd' hfd'
  · rw [Function.update_of_ne (hother hu)]
    exact hgone.held_open u fd' hu
  · rw [Function.update_of_ne (hother hu)]
    exact hgone.named u symbol path flags mode fd' hcall hu

end Changes

end Panloader
