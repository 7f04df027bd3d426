import Panloader.DescriptorRaces

/-! A program that has the device open at most once, and the descriptor of it that `mali_fd`
holds. -/
namespace Panloader
open LockedSections

section Follow

/-- A thread that has made its part under the mutex. -/
def Noted : WrapThread → Prop
  | .inside .done _ | .inside (.abort _) _ | .outside .finished => True
  | _ => False

theorem Stands.held_of_noted {symbol : OpenSymbol} {path : String} {flags mode : U32} {fd : ℤ}
    {x : WrapThread} {o : Option ℤ} (h : Stands (some (.open symbol path flags mode fd)) x o)
    (hx : Noted x) (hfd : fd ≠ -1) : o = some fd := by
  cases h with
  | opening => exact hx.elim
  | opened => exact if_neg hfd
  | decoding hdec => exact hdec.elim

/-- `mali_fd` is the descriptor of the device that the program has, also where the call that
returns it is about to return. -/
structure Followed {τ : Type} (mali : ℤ) (thread : τ → WrapThread) (calling : τ → Option Call)
    (files : ℤ → Option String) (owned : Set ℤ) : Prop where
  owned : ∀ fd ∈ owned, fd ≠ 0 → files fd = some "/dev/mali0" → mali = fd
  noted : ∀ t symbol flags mode fd, calling t = some (.open symbol "/dev/mali0" flags mode fd) →
    fd ≠ -1 → fd ≠ 0 → Noted (thread t) → mali = fd

variable {τ : Type} [DecidableEq τ] {p p' : Process τ} {held : τ → Option ℤ}

def Process.Followed (p : Process τ) : Prop :=
  Panloader.Followed p.machine.shared.maliFd p.machine.thread p.calling p.files p.owned

/-- A thread goes on and leaves `mali_fd` as it is. -/
theorem Process.Followed.goes (h : p.Followed) {t : τ} {x : WrapThread}
    (hx : ∀ symbol flags mode fd, p.calling t = some (.open symbol "/dev/mali0" flags mode fd) →
      fd ≠ -1 → Noted x → Noted (p.machine.thread t)) :
    Panloader.Followed p.machine.shared.maliFd (Function.update p.machine.thread t x) p.calling
      p.files p.owned where
  owned := h.owned
  noted u symbol flags mode fd hcall hne h0 hnoted := by
    apply h.noted u symbol flags mode fd hcall hne h0
    rcases of_update (P := Noted) hnoted with ⟨rfl, hthen⟩ | ⟨-, hstill⟩
    · exact hx symbol flags mode fd hcall hne hthen
    · exact hstill

/-- A call does its part under the mutex. -/
theorem Process.Followed.inner (h : p.Followed) (hsound : p.Sound held) (hsingle : p.Single)
    {t : τ} {f : World → World} {rest : World → Section Halt World} {next : WrapProgram}
    (ht : p.machine.thread t = .inside (.step f rest) next) :
    Panloader.Followed (f p.machine.shared).maliFd (Function.update p.machine.thread t
      (.inside (rest p.machine.shared) next)) p.calling p.files p.owned := by
  have hstands := hsound.stands t
  rw [ht] at hstands
  generalize hcall : p.calling t = c at hstands
  generalize hheld : held t = o at hstands
  -- what another thread has noted is open
  have hother {u : τ} {symbol : OpenSymbol} {flags mode : U32} {fd : ℤ} (hut : u ≠ t)
      (hopen : p.calling u = some (.open symbol "/dev/mali0" flags mode fd)) (hne : fd ≠ -1)
      (hnoted : Noted
        (Function.update p.machine.thread t (.inside (rest p.machine.shared) next) u)) :
      held u = some fd ∧ p.files fd = some "/dev/mali0" ∧ Noted (p.machine.thread u) := by
    rw [Function.update_of_ne hut] at hnoted
    have hu := hsound.stands u
    rw [hopen] at hu
    have hfd := hu.held_of_noted hnoted hne
    exact ⟨hfd, hsound.named u symbol _ flags mode fd hopen hfd, hnoted⟩
  cases hstands with
  | @opened symbol path flags mode ret x hx =>
    obtain ⟨hf, -⟩ := hx.inner p.machine.shared
    rw [hf, Call.underLock]
    by_cases hnotes : ret ≠ -1 ∧ path = "/dev/mali0"
    · obtain ⟨hret, rfl⟩ := hnotes
      rw [if_pos hret, noteOpened_maliFd, if_pos rfl]
      rw [if_neg hret] at hheld
      have hfile := hsound.named t symbol _ flags mode ret hcall hheld
      constructor
      · intro fd hfd _ hmali
        exact hsingle ret fd hfile hmali
      · intro u symbol' flags' mode' fd hopen hne _ hnoted
        by_cases hut : u = t
        · subst hut
          rw [hcall] at hopen
          cases hopen
          rfl
        · exact hsingle ret fd hfile (hother hut hopen hne hnoted).2.1
    · have hsame : (stateAfter (if ret ≠ -1 then noteOpened path ret else pure ())
          p.machine.shared).maliFd = p.machine.shared.maliFd := by
        by_cases hret : ret ≠ -1
        · rw [if_pos hret, noteOpened_maliFd, if_neg fun hpath => hnotes ⟨hret, hpath⟩]
        · rw [if_neg hret]
          rfl
      rw [hsame]
      apply h.goes
      intro symbol' flags' mode' fd hopen hne _
      rw [hcall] at hopen
      cases hopen
      exact absurd ⟨hne, rfl⟩ hnotes
  | @closing fd ret x hx =>
    obtain ⟨hf, -⟩ := hx.inner p.machine.shared
    rw [hf, noteClosed_maliFd]
    by_cases hclears : p.machine.shared.maliFd ≠ 0 ∧ fd = p.machine.shared.maliFd
    · rw [if_pos hclears]
      constructor
      · intro fd' hfd' h0 hmali
        have hsame := h.owned fd' hfd' h0 hmali
        rw [← hsame, ← hclears.2] at hfd'
        exact absurd hfd' (hsound.apart t fd hheld)
      · intro u symbol flags mode fd' hopen hne h0 hnoted
        by_cases hut : u = t
        · subst hut
          rw [hcall] at hopen
          cases hopen
        · obtain ⟨hu, -, hstill⟩ := hother hut hopen hne hnoted
          have hsame := h.noted u symbol flags mode fd' hopen hne h0 hstill
          rw [← hsame, ← hclears.2] at hu
          exact absurd (hsound.alone u t fd hu hheld) hut
    · rw [if_neg hclears]
      apply h.goes
      intro symbol flags mode fd' hopen
      rw [hcall] at hopen
      cases hopen
  | @decoding call x hdec hx =>
    obtain ⟨hf, -⟩ := hx.inner p.machine.shared
    rw [hf, hdec.maliFd]
    apply h.goes
    intro symbol flags mode fd hopen
    rw [hcall] at hopen
    cases hopen
    exact hdec.elim

theorem Process.Followed.calls (h : p.Followed) (t : τ) (call : Call) :
    Panloader.Followed p.machine.shared.maliFd
      (p.machine.become t (.outside (call.program .finished))).thread
      (Function.update p.calling t (some call)) p.files
      (p.owned \ {fd | call.closing = some fd}) where
  owned fd hfd := h.owned fd hfd.1
  noted u symbol flags mode fd hopen hne h0 hnoted := by
    by_cases hut : u = t
    · subst hut
      rw [Function.update_self] at hopen
      cases hopen
      rw [Machine.become_self] at hnoted
      exact False.elim hnoted
    · rw [Function.update_of_ne hut] at hopen
      rw [Machine.become_other hut] at hnoted
      exact h.noted u symbol flags mode fd hopen hne h0 hnoted

theorem Process.Followed.returns (h : p.Followed) (hsound : p.Sound held) {t : τ} {call : Call}
    (hcall : p.calling t = some call) (ht : p.machine.thread t = .outside .finished) :
    Panloader.Followed p.machine.shared.maliFd p.machine.thread
      (Function.update p.calling t none) p.files
      (p.owned ∪ {fd | fd = call.descriptor ∧ fd ≠ -1}) where
  owned fd hfd h0 hmali := by
    rcases hfd with hfd | ⟨rfl, hne⟩
    · exact h.owned fd hfd h0 hmali
    · have hstands := hsound.stands t
      rw [hcall, ht] at hstands
      have hheld := hstands.held_of_returned hne
      cases call with
      | «open» symbol path flags mode ret =>
        obtain rfl : path = "/dev/mali0" := by
          have hfile := hsound.named t symbol path flags mode ret hcall hheld
          exact Option.some.inj (hfile.symm.trans hmali)
        apply h.noted t symbol flags mode ret hcall hne h0
        rw [ht]
        trivial
      | close | ioctl | mmap | munmap => exact absurd rfl hne
  noted u symbol flags mode fd hopen hne h0 hnoted := by
    by_cases hut : u = t
    · subst hut
      rw [Function.update_self] at hopen
      cases hopen
    · rw [Function.update_of_ne hut] at hopen
      exact h.noted u symbol flags mode fd hopen hne h0 hnoted

/-- A real call changes neither `mali_fd` nor the file behind a descriptor that is owned. -/
theorem Process.Followed.real (h : p.Followed) (hsound : p.Sound held) {t : τ} {call : Call}
    {a : RealCall} {next : WrapProgram} {files' : ℤ → Option String}
    (hcall : p.calling t = some call) (ht : p.machine.thread t = .outside (.act a next))
    (hfiles : a.Updates call.descriptor p.files files') :
    Panloader.Followed p.machine.shared.maliFd
      (Function.update p.machine.thread t (.outside next)) p.calling files' p.owned := by
  have hstands := hsound.stands t
  rw [hcall, ht] at hstands
  have hgoes : Panloader.Followed p.machine.shared.maliFd
      (Function.update p.machine.thread t (.outside next)) p.calling p.files p.owned := by
    apply h.goes
    intro symbol flags mode fd hopen _ hnoted
    rw [hcall] at hopen
    cases hopen
    -- the thread of an open waits for the mutex next
    generalize held t = o at hstands
    cases hstands with
    | opening => exact False.elim hnoted
    | opened hx => cases hx
    | decoding hdec => exact hdec.elim
  refine ⟨fun fd hfd h0 hmali => hgoes.owned fd hfd h0 ?_, hgoes.noted⟩
  cases a with
  | «open» symbol path flags mode =>
    rcases hfiles with ⟨-, rfl⟩ | ⟨-, hfree, rfl⟩
    · exact hmali
    · have hne : fd ≠ call.descriptor := by
        rintro rfl
        exact hsound.owned_open _ hfd hfree
      rwa [Function.update_of_ne hne] at hmali
  | close fd' =>
    obtain rfl : files' = Function.update p.files fd' none := hfiles
    by_cases hne : fd = fd'
    · subst hne
      rw [Function.update_self] at hmali
      cases hmali
    · rwa [Function.update_of_ne hne] at hmali
  | ioctl | mmap | munmap =>
    obtain rfl : files' = p.files := hfiles
    exact hmali

theorem ProcessStep.followed (h : p.Followed) (hsound : p.Sound held) (hsingle : p.Single)
    (hstep : ProcessStep p p') : p'.Followed := by
  cases hstep with
  | call t call => exact h.calls t call
  | returned t _ hcall ht => exact h.returns hsound hcall ht
  | real t _ hcall ht hfiles => exact h.real hsound hcall ht hfiles
  | wrapper hstep hacted =>
    cases hstep with
    | peek t _ ht =>
      apply h.goes
      intro symbol flags mode fd hopen _ _
      have hstands := hsound.stands t
      rw [hopen, ht] at hstands
      generalize held t = o at hstands
      cases hstands with
      | opened hx => cases hx
      | decoding hdec => exact hdec.elim
    | act t _ ht => simp at hacted
    | enter t _ ht _ => exact h.goes fun _ _ _ _ _ _ hnoted => False.elim hnoted
    | inner t _ ht => exact h.inner hsound hsingle ht
    | leave t _ ht =>
      apply h.goes
      intro _ _ _ _ _ _ _
      rw [ht]
      trivial
    | abort t _ ht => exact h

/-- In a program that has the device open at most once, `mali_fd` is the descriptor that the
program has for it, in every interleaving and from the moment that `open` returns it until a
`close` of it is called. -/
theorem mali_fd_follows_device {w : World} (hmali : w.maliFd = 0) {files : ℤ → Option String}
    (hfiles : ∀ fd, files fd ≠ none → 0 ≤ fd) (hnone : ∀ fd, files fd ≠ some "/dev/mali0")
    (h : SingleReaches (.initial w files) p) {fd : ℤ} (hfd : fd ∈ p.owned) (h0 : fd ≠ 0)
    (hfile : p.files fd = some "/dev/mali0") : p.machine.shared.maliFd = fd := by
  have hboth : (∃ held, p.Sound held) ∧ p.Followed := by
    clear hfile hfd
    induction h with
    | refl =>
      refine ⟨⟨_, Process.initial_sound hmali hfiles⟩, ?_, ?_⟩
      · exact fun fd' _ _ hopen => absurd hopen (hnone fd')
      · intro _ _ _ _ _ hcall
        cases hcall
    | tail _ hstep ih =>
      obtain ⟨⟨held, hsound⟩, hfollowed⟩ := ih
      exact ⟨hstep.2.sound hsound, hstep.2.followed hfollowed hsound hstep.1⟩
  exact hboth.2.owned fd hfd h0 hfile

theorem mali_fd_follows_device_opened : ∃ p : Process Bool, 3 ∈ p.owned ∧
    p.machine.shared.maliFd = 3 := by
  obtain ⟨p, hreach, -, howned, hfile⟩ := opensDevice_reaches
  exact ⟨p, howned, mali_fd_follows_device rfl (fun _ hfd => absurd rfl hfd)
    (fun _ hfd => by cases hfd) hreach howned (by decide) hfile⟩

end Follow
end Panloader
