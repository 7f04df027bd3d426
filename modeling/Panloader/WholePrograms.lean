import Panloader.Clients
import Panloader.HarmlessCalls
import Panloader.Transparency

/-! Programs that call libc, with the wrapper and without it. Every execution under the wrapper is
one the program has without it, and the other way round where no call can end the program. -/
namespace Panloader
open Effects Clients

/-- A call of libc as a program makes it. -/
inductive Libc
  | open (symbol : OpenSymbol) (path : String) (flags mode : U32)
  | close (fd : ℤ)
  | ioctl (fd : ℤ) (request : U32) (arg : Option U64)
  | mmap (symbol : MmapSymbol) (addr length : U64) (prot flags : U32) (fd : ℤ) (offset : U64)
  | munmap (addr length : U64)

/-- The real function that is called where nothing is overridden. `junk` is passed for an argument
of `ioctl` that the program leaves out. -/
def Libc.real (junk : U64) : Libc → RealCall
  | .open symbol path flags mode =>
    .open symbol path flags (if NeedsMode flags then some mode else none)
  | .close fd => .close fd
  | .ioctl fd request arg => .ioctl fd request (arg.getD junk)
  | .mmap symbol addr length prot flags fd offset => .mmap symbol addr length prot flags fd offset
  | .munmap addr length => .munmap addr length

def Value.toInt : Value → ℤ
  | .int n => n
  | .ptr _ => 0

def Value.toPtr : Value → U64
  | .int _ => 0
  | .ptr p => p

/-- The intercepted call, which the kernel answers with `v`, leaving `after` of the memory
`before`. `prints` tells the requests outside the table whose name the program survives. -/
def Libc.call (prints : U32 → Bool) (junk : U64) (v : Value) (before after : Memory) : Libc → Call
  | .open symbol path flags mode => .open symbol path flags mode v.toInt
  | .close fd => .close fd v.toInt
  | .ioctl fd request arg => .ioctl fd request arg ⟨before, after, v.toInt, junk, prints request⟩
  | .mmap symbol addr length prot flags fd offset =>
    .mmap symbol addr length prot flags fd offset v.toPtr
  | .munmap addr length => .munmap addr length v.toInt

/-- `mmap` returns a pointer and the other functions an `int`. -/
def RealCall.Returns : RealCall → Value → Prop
  | .mmap _ _ _ _ _ _ _, .ptr _ => True
  | .mmap _ _ _ _ _ _ _, .int _ => False
  | _, .int _ => True
  | _, .ptr _ => False

/-- What the real functions may answer in a state of the kernel, and what becomes of the state and
of the program's memory. -/
structure Kernel (σ : Type) where
  serves : RealCall → Value → σ → Memory → σ → Memory → Prop
  typed : ∀ real v s m s' m', serves real v s m s' m' → real.Returns v

/-- A program that calls libc and prints lines on the output streams. -/
abbrev LibcClient (ω α : Type) := Client Memory Libc Value ω α

variable {σ ω α : Type}

/-- The real functions themselves. -/
def bare (k : Kernel σ) : Server σ Memory Libc Value :=
  fun c v s m s' m' => ∃ junk, k.serves (c.real junk) v s m s' m'

/-- The kernel answers these real calls one after the other, all with `answer`. -/
def Kernel.Answers (k : Kernel σ) (answer : Value) :
    List RealCall → σ → Memory → σ → Memory → Prop
  | [], s, m, s', m' => s' = s ∧ m' = m
  | real :: reals, s, m, s', m' =>
    ∃ u n, k.serves real answer s m u n ∧ k.Answers answer reals u n s' m'

/-- The overridden functions. The kernel answers the real calls that they make, and they return
what they make of it. -/
def wrapped (prints : U32 → Bool) (k : Kernel σ) : Server (World × σ) Memory Libc Value :=
  fun c v s m s' m' => ∃ junk answer, (c.call prints junk answer m m').exec s.1 = .ok v s'.1 ∧
    k.Answers answer (realCalls (newEvents s.1 s'.1)) s.2 m s'.2 m'

/-- The arguments survive the way through the wrapper: no mode is lost, and an `ioctl` without a
size field has a `NULL` argument. -/
def Libc.KeepsArguments : Libc → Prop
  | .open _ _ flags _ => flags &&& oCreat ≠ 0 ∨ flags &&& oTmpfile ≠ oTmpfile
  | .ioctl _ request arg => iocSize (widenRequest request) ≠ 0 ∨ arg = some 0
  | _ => True

/-- No decoder of the call can end the program, and its name is in the table. -/
def Libc.Harmless : Libc → Prop
  | .ioctl _ request _ => ioctlGetInfo (widenRequest request) ≠ none ∧
      ioctlCase (widenRequest request) ∉ checkedRequests.map ioctlCase
  | _ => True

section Forwarded

variable {prints : U32 → Bool} {c : Libc} {junk : U64} {v : Value} {m m' : Memory}

theorem Libc.forwarded_call (h : c.KeepsArguments) :
    (c.call prints junk v m m').forwarded = c.real junk := by
  cases c with
  | «open» symbol path flags mode =>
    have hmode : flags &&& oCreat ≠ 0 ↔ NeedsMode flags := by
      constructor
      · exact .inl
      · rintro (hcreat | htmpfile)
        · exact hcreat
        · exact h.resolve_right fun hne => hne htmpfile
    simp only [Libc.call, Call.forwarded, Libc.real, hmode]
  | ioctl fd request arg =>
    have hptr : ioctlPtr request arg junk = arg.getD junk := by
      rw [ioctlPtr]
      split_ifs with hsize
      · rfl
      · rw [h.resolve_left hsize]
        rfl
    exact congrArg (RealCall.ioctl fd request) hptr
  | close | mmap | munmap => rfl

/-- The kernel answers what it was asked. -/
theorem Libc.answer_call (h : (c.call prints junk v m m').forwarded.Returns v) :
    (c.call prints junk v m m').answer = v := by
  cases c with
  | «open» | close | ioctl | munmap =>
    cases v with
    | int n => rfl
    | ptr p => cases h
  | mmap =>
    cases v with
    | int n => cases h
    | ptr p => rfl

theorem Libc.Harmless.call (h : c.Harmless) : (c.call prints junk v m m').Harmless := by
  cases c with
  | ioctl => exact ⟨.inl h.1, h.2⟩
  | «open» | close | mmap | munmap => trivial

end Forwarded

section Executions

variable {prints : U32 → Bool} {k : Kernel σ} {c : Libc} {v : Value} {m m' : Memory}

theorem Kernel.answers_singleton {real : RealCall} {answer : Value} {s s' : σ} :
    k.Answers answer [real] s m s' m' ↔ k.serves real answer s m s' m' := by
  constructor
  · rintro ⟨u, n, hserves, rfl, rfl⟩
    exact hserves
  · exact fun h => ⟨s', m', h, rfl, rfl⟩

/-- An overridden function that returns has made one real call, and returns its answer. -/
theorem wrapped_served {w w' : World} {s s' : σ} (h : wrapped prints k c v (w, s) m (w', s') m') :
    ∃ junk, (c.call prints junk v m m').exec w = .ok v w' ∧
      k.serves (c.call prints junk v m m').forwarded v s m s' m' := by
  obtain ⟨junk, answer, hexec, hanswers⟩ := h
  obtain ⟨hv, hat⟩ := Call.exec_ok hexec
  rw [hat.since.realCalls_newEvents] at hanswers
  have hserves := Kernel.answers_singleton.mp hanswers
  obtain rfl : v = answer := hv.trans (Libc.answer_call (k.typed _ _ _ _ _ _ hserves))
  exact ⟨junk, hexec, hserves⟩

/-- What the wrapper lets through, the real functions do. -/
theorem wrapped_simulates (prints : U32 → Bool) (k : Kernel σ) :
    Simulates Libc.KeepsArguments (fun (t : World × σ) s => AtRest t.1 ∧ t.2 = s)
      (fun _ _ _ => False) (wrapped prints k) (bare k) := by
  rintro c v ⟨w, s⟩ m ⟨w', s'⟩ m' _ hkeeps ⟨hrest, rfl⟩ h
  obtain ⟨junk, hexec, hserves⟩ := wrapped_served h
  rw [Libc.forwarded_call hkeeps] at hserves
  exact .inr ⟨s', ⟨junk, hserves⟩, (hrest.exec hexec).1, rfl⟩

/-- Every execution of a program under the wrapper is one that it has without it. -/
theorem wrapper_adds_nothing (prints : U32 → Bool) (k : Kernel σ)
    {cfg cfg' : Config (World × σ) Memory Libc Value ω α}
    (hkeeps : cfg.client.Only Libc.KeepsArguments) (hrest : AtRest cfg.state.1)
    (h : Reaches (wrapped prints k) cfg cfg') :
    Reaches (bare k) (cfg.withState cfg.state.2) (cfg'.withState cfg'.state.2) ∧
      AtRest cfg'.state.1 := by
  obtain ⟨_, hreach, hrest', rfl⟩ := (wrapped_simulates prints k).reaches_end
    (fun _ _ _ _ hfalse => hfalse) hkeeps ⟨hrest, rfl⟩ h
  exact ⟨hreach, hrest'⟩

/-- A kernel that may answer anything and leave anything in memory. -/
def Kernel.any : Kernel Unit where
  serves real v _ _ _ _ := real.Returns v
  typed _ _ _ _ _ _ h := h

/-- A program that opens the device and returns what it gets. -/
def opensMali : LibcClient Unit Value := .request (.open .open "/dev/mali0" 2 0) .exit

theorem opensMali_keeps : opensMali.Only Libc.KeepsArguments :=
  ⟨.inr (by decide), fun _ => trivial⟩

/-- No name outside the table can be printed. -/
def noStray : U32 → Bool := fun _ => false

theorem wrapper_adds_nothing_open :
    Reaches (bare Kernel.any) ⟨opensMali, (), fun _ => 0, []⟩
      ⟨.exit (.int 3), (), fun _ => 1, []⟩ := by
  have hopen : Reaches (wrapped noStray Kernel.any) ⟨opensMali, (World.plain, ()), fun _ => 0, []⟩
      ⟨.exit (.int 3), (_, ()), fun _ => 1, []⟩ :=
    .single (.request ⟨0, .int 3, rfl, (), _, trivial, rfl, rfl⟩)
  exact (wrapper_adds_nothing noStray Kernel.any opensMali_keeps ⟨rfl, rfl, rfl⟩ hopen).1

/-- The call ends the program, for an answer that the kernel may give, in a decoder or where its
name is looked up. -/
def EndsInCall (prints : U32 → Bool) (k : Kernel σ) (c : Libc) (t : World × σ) (m : Memory) :
    Prop :=
  ¬c.Harmless ∧ ∃ junk v s' m' e w', k.serves (c.real junk) v t.2 m s' m' ∧
    (c.call prints junk v m m').exec t.1 = .error e w'

/-- What the real functions do, the wrapper lets through or ends. -/
theorem bare_simulates (prints : U32 → Bool) (k : Kernel σ) :
    Simulates Libc.KeepsArguments (fun s (t : World × σ) => AtRest t.1 ∧ t.2 = s)
      (EndsInCall prints k) (bare k) (wrapped prints k) := by
  rintro c v s m s' m' ⟨w, _⟩ hkeeps ⟨hrest, rfl⟩ ⟨junk, hserves⟩
  have hforwarded : (c.call prints junk v m m').forwarded = c.real junk :=
    Libc.forwarded_call hkeeps
  cases hexec : (c.call prints junk v m m').exec w with
  | ok v' w' =>
    obtain ⟨hv', hat⟩ := Call.exec_ok hexec
    have hanswer : (c.call prints junk v m m').answer = v := by
      apply Libc.answer_call
      rw [hforwarded]
      exact k.typed _ _ _ _ _ _ hserves
    obtain rfl : v' = v := hv'.trans hanswer
    refine .inr ⟨(w', s'), ⟨junk, v', hexec, ?_⟩, (hrest.exec hexec).1, rfl⟩
    rw [hat.since.realCalls_newEvents, hforwarded]
    exact Kernel.answers_singleton.mpr hserves
  | error e w' =>
    refine .inl ⟨fun hharmless => ?_, junk, v, s', m', e, w', hserves, hexec⟩
    have hcall : (c.call prints junk v m m').Harmless := hharmless.call
    have hend := hcall.returns w hrest.unlocked
    rw [hexec] at hend
    exact hend

/-- Every execution of a program is one under the wrapper, up to a request in whose decoder, or at
whose name, the wrapper may end the program. -/
theorem wrapper_follows (prints : U32 → Bool) (k : Kernel σ)
    {cfg cfg' : Config σ Memory Libc Value ω α} {w : World}
    (hkeeps : cfg.client.Only Libc.KeepsArguments) (hrest : AtRest w)
    (h : Reaches (bare k) cfg cfg') :
    (∃ w', Reaches (wrapped prints k) (cfg.withState (w, cfg.state))
        (cfg'.withState (w', cfg'.state)) ∧ AtRest w') ∨
    ∃ mid w', Reaches (bare k) cfg mid ∧ Reaches (bare k) mid cfg' ∧
      Reaches (wrapped prints k) (cfg.withState (w, cfg.state)) (mid.withState (w', mid.state)) ∧
      (mid.withState (w', mid.state)).StuckAt (EndsInCall prints k) := by
  obtain ⟨⟨w', _⟩, hreach, hrest', rfl⟩ | ⟨mid, ⟨w', _⟩, hto, hfrom, hreach, ⟨-, rfl⟩, hstuck⟩ :=
    (bare_simulates prints k).reaches hkeeps (s := (w, cfg.state)) ⟨hrest, rfl⟩ h
  · exact .inl ⟨w', hreach, hrest'⟩
  · obtain ⟨c, next, hclient, -, hends⟩ := hstuck
    exact .inr ⟨mid, w', hto, hfrom, hreach, c, next, hclient, hends⟩

theorem wrapper_follows_open :
    ∃ w', Reaches (wrapped noStray Kernel.any) ⟨opensMali, (World.plain, ()), fun _ => 0, []⟩
      ⟨.exit (.int 3), (w', ()), fun _ => 1, []⟩ := by
  have hopen : Reaches (bare Kernel.any) ⟨opensMali, (), fun _ => 0, []⟩
      ⟨.exit (.int 3), (), fun _ => 1, []⟩ :=
    .single (.request ⟨0, trivial⟩)
  obtain ⟨w', hreach, -⟩ | ⟨mid, w', hto, -, -, c, next, hclient, hharmful, -⟩ :=
    wrapper_follows noStray Kernel.any opensMali_keeps (w := World.plain) ⟨rfl, rfl, rfl⟩ hopen
  · exact ⟨w', hreach⟩
  · -- the only request is one that nothing can end
    have honly : mid.client.Only Libc.Harmless := Reaches.only hto ⟨trivial, fun _ => trivial⟩
    rw [show mid.client = .request c next from hclient] at honly
    exact absurd honly.1 hharmful

end Executions
end Panloader
