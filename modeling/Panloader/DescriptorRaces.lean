import Panloader.KernelFiles
import Panloader.LockedParts

/-! `close` tests `mali_fd` without the mutex, and the real `open` and `close` are called without
it. In a program that closes what it was given, the races that this allows never leave a closed
descriptor in `mali_fd`. -/
namespace Panloader
open Effects LockedSections

section UnderLock

/-- The state in which a part under the mutex leaves the wrapper, however it ends. -/
def stateAfter (m : Wrap Unit) (w : World) : World :=
  match m w with
  | .ok _ w' => w'
  | .error _ w' => w'

theorem stateAfter_ensures {P Q : World → Prop} {m : Wrap Unit}
    (hm : Ensures P m (fun _ => Q) (fun _ => Q)) {w : World} (hw : P w) : Q (stateAfter m w) := by
  have h := hm w hw
  unfold stateAfter
  cases hr : m w with
  | ok a w' =>
    rw [hr] at h
    exact h
  | error e w' =>
    rw [hr] at h
    exact h

theorem panwrapLog_maliFd (mali : ℤ) (format : String) (args : List Arg) {E : World → Prop} :
    Ensures (fun w => w.maliFd = mali) (panwrapLog format args) (fun _ w => w.maliFd = mali)
      (fun _ => E) := by
  intro w hw
  by_cases ht : w.time.enableTimestamps = true
  · rw [panwrapLog_stamped ht]
    by_cases hf : w.time.timeIsFrozen = true
    · rw [bind_ok (timestampGet_frozen hf)]
      exact hw
    · rw [bind_ok (timestampGet_running hf)]
      exact hw
  · rw [panwrapLog_plain ht]
    exact hw

theorem phases_maliFd (fd : ℤ) :
    Phases (fun w => w.maliFd = fd) (fun w => w.maliFd = fd) (fun w => w.maliFd = fd) where
  freeze := panwrapFreezeTime_keeps fun _ _ _ _ _ hw => hw
  unfreeze := panwrapUnfreezeTime_keeps fun _ _ _ _ _ hw => hw
  decode := ⟨fun _ _ _ hw => hw, fun _ _ => panwrapLog_maliFd fd _ _, fun _ _ hw => hw,
    fun _ _ hw => hw⟩
  left _ hw := hw
  real _ _ hw := hw
  memory _ _ hw := hw

theorem Call.Decodes.maliFd {call : Call} (hcall : call.Decodes) (w : World) :
    (stateAfter call.underLock w).maliFd = w.maliFd :=
  stateAfter_ensures ((phases_maliFd w.maliFd).underLock hcall) rfl

/-- An `open` notes a descriptor of the device, and no other. -/
theorem noteOpened_maliFd (path : String) (ret : ℤ) (w : World) :
    (stateAfter (noteOpened path ret) w).maliFd =
      if path = "/dev/mali0" then ret else w.maliFd := by
  unfold noteOpened
  by_cases hpath : path = "/dev/mali0"
  · rw [if_pos hpath, if_pos hpath]
    have hnote : Ensures (fun u : World => u.maliFd = w.maliFd) (do
        panwrapLog "/dev/mali0 fd == %d\n" [.int ret]
        setMaliFd ret) (fun _ u => u.maliFd = ret) (fun _ u => u.maliFd = ret) :=
      (panwrapLog_maliFd w.maliFd _ _).bind fun _ _ _ => rfl
    exact stateAfter_ensures hnote rfl
  · rw [if_neg hpath, if_neg hpath]
    split_ifs
    · exact stateAfter_ensures (panwrapLog_maliFd w.maliFd _ _) rfl
    · rfl

/-- A `close` clears `mali_fd` or leaves it as it is; it does not hold what is closed. -/
theorem noteClosed_maliFd (fd : ℤ) (w : World) :
    (stateAfter (noteClosed fd) w).maliFd =
      if w.maliFd ≠ 0 ∧ fd = w.maliFd then 0 else w.maliFd := by
  have hnote : stateAfter (noteClosed fd) w = stateAfter (if w.maliFd ≠ 0 ∧ fd = w.maliFd then do
      panwrapLog "/dev/mali0 closed\n" []
      setMaliFd 0
    else pure ()) w := rfl
  rw [hnote]
  by_cases hfd : w.maliFd ≠ 0 ∧ fd = w.maliFd
  · rw [if_pos hfd, if_pos hfd]
    have hclear : Ensures (fun u : World => u.maliFd = w.maliFd) (do
        panwrapLog "/dev/mali0 closed\n" []
        setMaliFd 0) (fun _ u => u.maliFd = 0) (fun _ u => u.maliFd = 0) :=
      (panwrapLog_maliFd w.maliFd _ _).bind fun _ _ _ => rfl
    exact stateAfter_ensures hclear rfl
  · rw [if_neg hfd, if_neg hfd]
    rfl

variable {f : World → World} {rest : World → Section Halt World} {next : WrapProgram}

/-- A part under the mutex that is made at one go is over after it. -/
theorem atomic_inner {m : Wrap Unit} {P : WrapThread → Prop} (h : .step f rest = Section.atomic m)
    (hdone : P (.inside .done next)) (hfails : ∀ e, P (.inside (.abort e) next)) (w : World) :
    f w = stateAfter m w ∧ P (.inside (rest w) next) := by
  cases h
  dsimp only [stateAfter]
  cases m w with
  | ok a w' => exact ⟨rfl, hdone⟩
  | error e w' => exact ⟨rfl, hfails e⟩

theorem NotesOpened.inner {call : Call} (h : NotesOpened call (.inside (.step f rest) next))
    (w : World) : f w = stateAfter call.underLock w ∧
      NotesOpened call (.inside (rest w) next) := by
  generalize hsection : Section.step f rest = x at h
  cases h with
  | enters => exact atomic_inner hsection .leaves .fails w
  | leaves | fails => cases hsection

theorem WillClose.inner {fd ret : ℤ} (h : WillClose fd ret (.inside (.step f rest) next))
    (w : World) : f w = stateAfter (noteClosed fd) w ∧
      WillClose fd ret (.inside (rest w) next) := by
  generalize hsection : Section.step f rest = x at h
  cases h with
  | enters => exact atomic_inner hsection .leaves .fails w
  | leaves | fails => cases hsection

theorem Decoding.inner {call : Call} (h : Decoding call (.inside (.step f rest) next))
    (w : World) : f w = stateAfter call.underLock w ∧ Decoding call (.inside (rest w) next) := by
  generalize hsection : Section.step f rest = x at h
  cases h with
  | enters hnext => exact atomic_inner hsection (.leaves hnext) (.fails · hnext) w
  | leaves | fails => cases hsection

end UnderLock

section Runs

variable {τ : Type} [DecidableEq τ] {p p' : Process τ} {held : τ → Option ℤ}

def Process.Sound (p : Process τ) (held : τ → Option ℤ) : Prop :=
  Panloader.Sound p.machine.shared.maliFd p.machine.thread p.calling p.files p.owned held

/-- A real call that a thread makes. -/
theorem Process.Sound.real (h : p.Sound held) {t : τ} {call : Call} {a : RealCall}
    {next : WrapProgram} {files' : ℤ → Option String} (hcall : p.calling t = some call)
    (ht : p.machine.thread t = .outside (.act a next))
    (hfiles : a.Updates call.descriptor p.files files') :
    ∃ held', Panloader.Sound p.machine.shared.maliFd
      (Function.update p.machine.thread t (.outside next)) p.calling files' p.owned held' := by
  have hstands := h.stands t
  have hclear := h.clear t
  rw [hcall, ht] at hstands
  rw [ht] at hclear
  generalize hheld : held t = o at hstands
  cases hstands with
  | opening symbol path flags mode ret =>
    have hwaits : Stands (p.calling t)
        (.outside (.locked (.open symbol path flags mode ret) .finished))
        (if ret = -1 then none else some ret) := by
      rw [hcall]
      exact .opened .waits
    rcases hfiles with ⟨hret, rfl⟩ | ⟨hret, hfree, rfl⟩
    · change ret = -1 at hret
      rw [if_pos hret, ← hheld] at hwaits
      exact ⟨held, h.goes hwaits fun _ hcloses => hcloses.elim⟩
    · change 0 ≤ ret at hret
      rw [if_neg (by omega)] at hwaits
      refine ⟨_, h.opens hret hfree (fun symbol' path' flags' mode' hopen => ?_) _ hwaits
        fun _ hcloses => hcloses⟩
      rw [hcall] at hopen
      cases hopen
      rfl
  | opened hx => cases hx
  | @closing fd ret x hx =>
    cases hx with
    | acts =>
      obtain rfl : files' = Function.update p.files fd none := hfiles
      have hclosed : Stands (p.calling t) (.outside .finished) none := by
        rw [hcall]
        exact .closed fd ret
      exact ⟨_, h.closes hheld (hclear fd rfl) hclosed fun _ hcloses => hcloses⟩
  | decoding hdec hx =>
    cases hx with
    | outside hp =>
      cases hp with
      | act ha hnext =>
        have hsame : files' = p.files := by
          cases a with
          | «open» | close => exact ha.elim
          | ioctl | mmap | munmap => exact hfiles
        have hgoes : Stands (p.calling t) (.outside next) (held t) := by
          rw [hcall, hheld]
          exact .decoding hdec (.outside hnext)
        rw [hsame]
        refine ⟨held, h.goes hgoes fun fd hcloses => ?_⟩
        have hnone := hgoes.held_of_closes hcloses
        rw [hheld] at hnone
        cases hnone

/-- A thread in a call that hands out and takes no descriptor goes on. -/
theorem Process.Sound.decodes (h : p.Sound held) {t : τ} {call : Call} {x : WrapThread}
    (hcall : p.calling t = some call) (hheld : held t = none) (hdec : call.Decodes)
    (hx : Decoding call x) : Panloader.Sound p.machine.shared.maliFd
      (Function.update p.machine.thread t x) p.calling p.files p.owned held := by
  have hgoes : Stands (p.calling t) x (held t) := by
    rw [hcall, hheld]
    exact .decoding hdec hx
  refine h.goes hgoes fun fd hcloses => ?_
  have hnone := hgoes.held_of_closes hcloses
  rw [hheld] at hnone
  cases hnone

theorem Process.Sound.peeks (h : p.Sound held) {t : τ} {next : World → WrapProgram}
    (ht : p.machine.thread t = .outside (.peek next)) :
    Panloader.Sound p.machine.shared.maliFd (Function.update p.machine.thread t
      (.outside (next p.machine.shared))) p.calling p.files p.owned held := by
  have hstands := h.stands t
  rw [ht] at hstands
  generalize hcall : p.calling t = c at hstands
  generalize hheld : held t = o at hstands
  cases hstands with
  | opened hx => cases hx
  | @closing fd ret x hx =>
    have hgoes {x : WrapThread} (hx : WillClose fd ret x) : Stands (p.calling t) x (held t) := by
      rw [hcall, hheld]
      exact .closing hx
    cases hx with
    | starts =>
      dsimp only
      by_cases h0 : p.machine.shared.maliFd = 0
      · rw [if_pos h0]
        refine h.goes (hgoes .acts) fun fd' hcloses hmali => ?_
        omega
      · rw [if_neg h0]
        exact h.goes (hgoes .tests) fun _ hcloses => hcloses.elim
    | tests =>
      dsimp only
      by_cases hfd : fd ≠ p.machine.shared.maliFd
      · rw [if_pos hfd]
        refine h.goes (hgoes .acts) fun fd' hcloses hmali => ?_
        exact absurd (hmali.trans (show fd = fd' from hcloses).symm).symm hfd
      · rw [if_neg hfd]
        exact h.goes (hgoes .waits) fun _ hcloses => hcloses.elim
  | decoding hdec hx =>
    cases hx with
    | outside hp =>
      cases hp with
      | peek hnext => exact h.decodes hcall hheld hdec (.outside (hnext _))

theorem Process.Sound.enters (h : p.Sound held) {t : τ} {c : Call} {next : WrapProgram}
    (ht : p.machine.thread t = .outside (.locked c next)) :
    Panloader.Sound p.machine.shared.maliFd (Function.update p.machine.thread t
      (.inside (.atomic c.underLock) next)) p.calling p.files p.owned held := by
  have hstands := h.stands t
  rw [ht] at hstands
  generalize hcall : p.calling t = c at hstands
  generalize hheld : held t = o at hstands
  cases hstands with
  | opened hx =>
    cases hx with
    | waits =>
      refine h.goes ?_ fun _ hcloses => hcloses.elim
      rw [hcall, hheld]
      exact .opened .enters
  | closing hx =>
    cases hx with
    | waits =>
      refine h.goes ?_ fun _ hcloses => hcloses.elim
      rw [hcall, hheld]
      exact .closing .enters
  | decoding hdec hx =>
    cases hx with
    | outside hp =>
      cases hp with
      | locked hnext => exact h.decodes hcall hheld hdec (.enters hnext)

theorem Process.Sound.leaves (h : p.Sound held) {t : τ} {next : WrapProgram}
    (ht : p.machine.thread t = .inside .done next) :
    Panloader.Sound p.machine.shared.maliFd (Function.update p.machine.thread t
      (.outside next)) p.calling p.files p.owned held := by
  have hstands := h.stands t
  have hclear := h.clear t
  rw [ht] at hstands hclear
  generalize hcall : p.calling t = c at hstands
  generalize hheld : held t = o at hstands
  cases hstands with
  | opened hx =>
    cases hx with
    | leaves =>
      refine h.goes ?_ fun _ hcloses => hcloses.elim
      rw [hcall, hheld]
      exact .opened .returns
  | closing hx =>
    cases hx with
    | leaves =>
      refine h.goes ?_ hclear
      rw [hcall, hheld]
      exact .closing .acts
  | decoding hdec hx =>
    cases hx with
    | leaves hnext => exact h.decodes hcall hheld hdec (.outside hnext)

/-- A call does its part under the mutex. -/
theorem Process.Sound.inner (h : p.Sound held) {t : τ} {f : World → World}
    {rest : World → Section Halt World} {next : WrapProgram}
    (ht : p.machine.thread t = .inside (.step f rest) next) :
    Panloader.Sound (f p.machine.shared).maliFd (Function.update p.machine.thread t
      (.inside (rest p.machine.shared) next)) p.calling p.files p.owned held := by
  have hstands := h.stands t
  rw [ht] at hstands
  generalize hcall : p.calling t = c at hstands
  generalize hheld : held t = o at hstands
  cases hstands with
  | @opened symbol path flags mode ret x hx =>
    obtain ⟨hf, hrest⟩ := hx.inner p.machine.shared
    have hnext := hrest.not_closes
    have hgoes : Panloader.Sound p.machine.shared.maliFd (Function.update p.machine.thread t
        (.inside (rest p.machine.shared) next)) p.calling p.files p.owned held := by
      refine h.goes ?_ fun fd hcloses => absurd hcloses (hnext fd)
      rw [hcall, hheld]
      exact .opened hrest
    rw [hf, Call.underLock]
    by_cases hret : ret ≠ -1
    · rw [if_pos hret, noteOpened_maliFd]
      by_cases hpath : path = "/dev/mali0"
      · rw [if_pos hpath]
        subst hpath
        rw [if_neg hret] at hheld
        refine hgoes.notes hheld (h.named t symbol _ flags mode ret hcall hheld) ?_
        rw [Function.update_self]
        exact hnext ret
      · rw [if_neg hpath]
        exact hgoes
    · rw [if_neg hret]
      exact hgoes
  | @closing fd ret x hx =>
    obtain ⟨hf, hrest⟩ := hx.inner p.machine.shared
    have hgoes : Stands (p.calling t) (.inside (rest p.machine.shared) next) (held t) := by
      rw [hcall, hheld]
      exact .closing hrest
    rw [hf, noteClosed_maliFd]
    by_cases hfd : p.machine.shared.maliFd ≠ 0 ∧ fd = p.machine.shared.maliFd
    · rw [if_pos hfd]
      exact h.forgets.goes hgoes fun _ _ hzero => hzero.symm
    · rw [if_neg hfd]
      refine h.goes hgoes fun fd' hcloses hmali => ?_
      have hsame := hgoes.held_of_closes hcloses
      rw [hheld, Option.some.injEq] at hsame
      omega
  | decoding hdec hx =>
    obtain ⟨hf, hrest⟩ := hx.inner p.machine.shared
    rw [hf, hdec.maliFd]
    exact h.decodes hcall hheld hdec hrest

theorem ProcessStep.sound (h : p.Sound held) (hstep : ProcessStep p p') :
    ∃ held', p'.Sound held' := by
  cases hstep with
  | call t call _ _ hmay => exact ⟨_, Panloader.Sound.calls h t hmay⟩
  | returned t _ hcall ht => exact ⟨_, Panloader.Sound.returns h hcall ht⟩
  | real t _ hcall ht hfiles => exact h.real hcall ht hfiles
  | wrapper hstep hacted =>
    refine ⟨held, ?_⟩
    cases hstep with
    | peek t _ ht => exact h.peeks ht
    | act t _ ht => simp at hacted
    | enter t _ ht _ => exact h.enters ht
    | inner t _ ht => exact h.inner ht
    | leave t _ ht => exact h.leaves ht
    | abort t _ ht => exact h

omit [DecidableEq τ] in
theorem Process.initial_sound {w : World} (hmali : w.maliFd = 0) {files : ℤ → Option String}
    (hfiles : ∀ fd, files fd ≠ none → 0 ≤ fd) :
    (Process.initial w files : Process τ).Sound fun _ => none where
  stands _ := .idle
  device hne := absurd hmali hne
  clear _ _ hcloses := hcloses.elim
  nonneg := hfiles
  owned_open _ hfd := hfd
  held_open _ _ hheld := by cases hheld
  apart _ _ hheld := by cases hheld
  alone _ _ _ hheld := by cases hheld
  named _ _ _ _ _ _ hcall := by cases hcall

theorem ProcessReaches.sound {w : World} (hmali : w.maliFd = 0) {files : ℤ → Option String}
    (hfiles : ∀ fd, files fd ≠ none → 0 ≤ fd) (h : ProcessReaches (.initial w files) p) :
    ∃ held, p.Sound held := by
  induction h with
  | refl => exact ⟨_, Process.initial_sound hmali hfiles⟩
  | tail _ hstep ih =>
    obtain ⟨held, hsound⟩ := ih
    exact hstep.sound hsound

/-- The device is open at most once. -/
def Process.Single (p : Process τ) : Prop :=
  ∀ fd fd', p.files fd = some "/dev/mali0" → p.files fd' = some "/dev/mali0" → fd = fd'

/-- A run of steps from states in which the device is open at most once. -/
abbrev SingleReaches : Process τ → Process τ → Prop :=
  Relation.ReflTransGen fun p p' => p.Single ∧ ProcessStep p p'

/-- However the threads' calls are interleaved, before and after the mutex and with the kernel's
part of each, `mali_fd` is a descriptor that is open, and open on the device, or 0; and no thread
is about to close what is in it. -/
theorem mali_fd_is_open {w : World} (hmali : w.maliFd = 0) {files : ℤ → Option String}
    (hfiles : ∀ fd, files fd ≠ none → 0 ≤ fd) (h : ProcessReaches (.initial w files) p) :
    (p.machine.shared.maliFd ≠ 0 →
      p.files p.machine.shared.maliFd = some "/dev/mali0") ∧
    ∀ t fd next, p.machine.thread t = .outside (.act (.close fd) next) → fd ≠ 0 →
      p.machine.shared.maliFd ≠ fd := by
  obtain ⟨held, hsound⟩ := ProcessReaches.sound hmali hfiles h
  refine ⟨hsound.device, fun t fd next ht hfd hclosed => ?_⟩
  have hcloses : Closes fd (p.machine.thread t) := by
    rw [ht]
    exact rfl
  exact hfd (hsound.clear t fd hcloses hclosed)

/-- One thread opens the device. -/
theorem opensDevice_reaches : ∃ p : Process Bool,
    SingleReaches (.initial World.plain fun _ => none) p ∧ p.machine.shared.maliFd = 3 ∧
      3 ∈ p.owned ∧ p.files 3 = some "/dev/mali0" := by
  have hnone : ∀ p : Process Bool, (p.files = fun _ => none) → p.Single := by
    intro p hfiles fd fd' hfd
    rw [hfiles] at hfd
    cases hfd
  have hone : ∀ p : Process Bool,
      p.files = Function.update (fun _ => none) 3 (some "/dev/mali0") → p.Single := by
    intro p hfiles fd fd' hfd hfd'
    rw [hfiles] at hfd hfd'
    by_contra hne
    by_cases h3 : fd = 3
    · rw [Function.update_of_ne fun h3' => hne (h3.trans h3'.symm)] at hfd'
      cases hfd'
    · rw [Function.update_of_ne h3] at hfd
      cases hfd
  let start : Process Bool := .initial World.plain fun _ => none
  have hcalled : SingleReaches start _ :=
    .single ⟨hnone _ rfl, .call true openMali rfl rfl fun _ hclosing => by cases hclosing⟩
  have hopened := hcalled.tail
    ⟨hnone _ rfl, .real true rfl rfl rfl (.inr ⟨by decide, rfl, rfl⟩)⟩
  have hlocked := hopened.tail ⟨hone _ rfl, .wrapper (.enter true rfl rfl rfl) rfl⟩
  have hnoted := hlocked.tail ⟨hone _ rfl, .wrapper (.inner true rfl rfl) rfl⟩
  have hleft := hnoted.tail ⟨hone _ rfl, .wrapper (.leave true rfl rfl) rfl⟩
  have hreturned := hleft.tail ⟨hone _ rfl, .returned true rfl rfl rfl⟩
  exact ⟨_, hreturned, rfl, .inr ⟨rfl, by decide⟩, rfl⟩

theorem mali_fd_is_open_opened : ∃ p : Process Bool, p.machine.shared.maliFd = 3 ∧
    p.files 3 = some "/dev/mali0" := by
  obtain ⟨p, hreach, hmali, -, -⟩ := opensDevice_reaches
  have hsteps : ProcessReaches (.initial World.plain fun _ => none) p :=
    hreach.lift id fun _ _ hstep => hstep.2
  have hopen := (mali_fd_is_open rfl (fun _ hfd => absurd rfl hfd) hsteps).1
  rw [hmali] at hopen
  exact ⟨p, hmali, hopen (by decide)⟩

end Runs

end Panloader
