import Panloader.HarmlessCalls
import Panloader.PanwrapInit
import Panloader.SharedCells

/-! `PROLOG` of `panwrap.h` and `__rd_dlsym_helper` of `panwrap-util.c`: every overridden function
looks its real counterpart up at its first call, into a static variable that no lock guards. -/
namespace Panloader
open LockedSections SharedCells

/-- The functions that are overridden. -/
inductive LibcSymbol
  | open
  | open64
  | close
  | ioctl
  | mmap
  | mmap64
  | munmap
deriving DecidableEq

/-- `#func` -/
def LibcSymbol.name : LibcSymbol → String
  | .open => "open"
  | .open64 => "open64"
  | .close => "close"
  | .ioctl => "ioctl"
  | .mmap => "mmap"
  | .mmap64 => "mmap64"
  | .munmap => "munmap"

def OpenSymbol.libc : OpenSymbol → LibcSymbol
  | .open => .open
  | .open64 => .open64

def MmapSymbol.libc : MmapSymbol → LibcSymbol
  | .mmap => .mmap
  | .mmap64 => .mmap64

/-- The static variables: `libc_dl`, and `orig_##func` of each overridden function. -/
inductive StaticPointer
  | libcDl
  | orig (symbol : LibcSymbol)
deriving DecidableEq

/-- The dynamic loader: `dlopen("libc.so", RTLD_LAZY)`, which gives one handle however often it is
called, `dlsym`, and what `dlerror` says when libc or a symbol of it was not found. -/
structure Loader where
  dlopen : U64
  dlsym : U64 → String → U64
  dlerror : Option String → String

/-- A real call comes with the pointer it is made through, a wait for the mutex with the pointer
that the call under the mutex uses, if there is one. -/
abbrev BoundProgram :=
  CellProgram StaticPointer U64 Complaint World (Option U64 × Call) (U64 × RealCall)

def noLibc (ld : Loader) : Complaint := ⟨-1, "Failed to dlopen libc: %s\n", [ld.dlerror none]⟩

def noSymbol (ld : Loader) (name : String) : Complaint :=
  ⟨-1, "Failed to find %s: %s\n", [name, ld.dlerror (some name)]⟩

def rdDlsymHelper (ld : Loader) (name : String) (next : U64 → BoundProgram) : BoundProgram :=
  let lookup : BoundProgram :=
    .load .libcDl fun libcDl =>
      if libcDl = 0 then .exit (noLibc ld)
      else .load .libcDl fun libcDl =>
        if ld.dlsym libcDl name = 0 then .exit (noSymbol ld name)
        else next (ld.dlsym libcDl name)
  .load .libcDl fun libcDl => if libcDl = 0 then .store .libcDl ld.dlopen lookup else lookup

def prolog (ld : Loader) (symbol : LibcSymbol) (next : BoundProgram) : BoundProgram :=
  .load (.orig symbol) fun orig =>
    if orig = 0 then rdDlsymHelper ld symbol.name fun func => .store (.orig symbol) func next
    else next

/-- A call through `orig_##func`. -/
def callOrig (symbol : LibcSymbol) (real : RealCall) (next : BoundProgram) : BoundProgram :=
  .load (.orig symbol) fun orig => .act (orig, real) next

/-- A call that uses `orig_##func` under the mutex. The pointer is loaded before the mutex is
taken; a filled static variable keeps what it holds. -/
def lockedWith (symbol : LibcSymbol) (call : Call) (next : BoundProgram) : BoundProgram :=
  .load (.orig symbol) fun orig => .locked (some orig, call) next

def boundTestMaliFd (fd : ℤ) (other mali : BoundProgram) : BoundProgram :=
  .peek fun w => if w.maliFd = 0 then other else
    .peek fun w => if fd ≠ w.maliFd then other else mali

/-- A call as the thread that makes it goes through it, with its prologue. -/
def Call.boundProgram (ld : Loader) (call : Call) (next : BoundProgram) : BoundProgram :=
  match call with
  | .open symbol path flags mode _ =>
    prolog ld symbol.libc (callOrig symbol.libc
      (.open symbol path flags (if flags &&& oCreat ≠ 0 then some mode else none))
      (.locked (none, call) next))
  | .close fd _ =>
    prolog ld .close (if fd ≤ 0 then callOrig .close (.close fd) next
      else boundTestMaliFd fd (callOrig .close (.close fd) next)
        (.locked (none, call) (callOrig .close (.close fd) next)))
  | .ioctl fd request arg env =>
    prolog ld .ioctl (if fd = 0 then lockedWith .ioctl call next
      else .peek fun w => if fd ≠ w.maliFd then
          callOrig .ioctl (.ioctl fd request (ioctlPtr request arg env.junk)) next
        else lockedWith .ioctl call next)
  | .mmap symbol addr length prot flags fd offset _ =>
    -- `orig_mmap` is passed to `panwrap_mmap_wrap` as an argument
    prolog ld symbol.libc (.load (.orig symbol.libc) fun orig =>
      boundTestMaliFd fd (.act (orig, .mmap symbol addr length prot flags fd offset) next)
        (.locked (some orig, call) next))
  | .munmap _ _ _ => prolog ld .munmap (lockedWith .munmap call next)

def boundThread (ld : Loader) : List Call → BoundProgram
  | [] => .finished
  | call :: calls => call.boundProgram ld (boundThread ld calls)

abbrev BoundMachine (τ : Type) :=
  CellMachine τ Halt StaticPointer U64 Complaint World (Option U64 × Call) (U64 × RealCall)

/-- Threads that make the calls of `calls`, from the state `w`, with nothing looked up yet. -/
def startBound {τ : Type} (ld : Loader) (w : World) (calls : τ → List Call) : BoundMachine τ :=
  .initial w (fun _ => 0) fun t => boundThread ld (calls t)

/-- The function of the C library with this name. -/
def Loader.find (ld : Loader) (symbol : LibcSymbol) : U64 := ld.dlsym ld.dlopen symbol.name

def RealCall.symbol : RealCall → LibcSymbol
  | .open symbol _ _ _ => symbol.libc
  | .close _ => .close
  | .ioctl _ _ _ => .ioctl
  | .mmap symbol _ _ _ _ _ _ => symbol.libc
  | .munmap _ _ => .munmap

/-- The function that a call uses under the mutex. -/
def Call.lockedSymbol : Call → Option LibcSymbol
  | .open .. | .close .. => none
  | .ioctl .. => some .ioctl
  | .mmap symbol .. => some symbol.libc
  | .munmap .. => some .munmap

/-- The loader fails, and this is what is said about it. -/
def Loader.Lacks (ld : Loader) (complaint : Complaint) : Prop :=
  (ld.dlopen = 0 ∧ complaint = noLibc ld) ∨
    ∃ symbol, ld.find symbol = 0 ∧ complaint = noSymbol ld symbol.name

/-- The real call is made through the function of its own name. -/
def Loader.MadeThrough (ld : Loader) (made : U64 × RealCall) (real : RealCall) : Prop :=
  made = (ld.find real.symbol, real) ∧ ld.find real.symbol ≠ 0

def Loader.TakenWith (ld : Loader) (taken : Option U64 × Call) (call : Call) : Prop :=
  taken = (call.lockedSymbol.map ld.find, call) ∧ ∀ s ∈ call.lockedSymbol, ld.find s ≠ 0

def Loader.agreement (ld : Loader) :
    Agreement StaticPointer U64 Complaint (Option U64 × Call) Call (U64 × RealCall) RealCall where
  empty := 0
  value
    | .libcDl => ld.dlopen
    | .orig symbol => ld.find symbol
  Made := ld.MadeThrough
  Taken := ld.TakenWith
  Lacking := ld.Lacks

section Follow

variable {ld : Loader} {K : Set StaticPointer} {q : WrapProgram} {symbol : LibcSymbol}

theorem follows_rdDlsymHelper {next : U64 → BoundProgram}
    (h : ld.find symbol ≠ 0 →
      Follows ld.agreement (insert .libcDl K) (next (ld.find symbol)) q) :
    Follows ld.agreement K (rdDlsymHelper ld symbol.name next) q := by
  have hlookup : Follows ld.agreement (insert .libcDl K) (.load .libcDl fun libcDl =>
      if libcDl = 0 then .exit (noLibc ld)
      else .load .libcDl fun libcDl =>
        if ld.dlsym libcDl symbol.name = 0 then .exit (noSymbol ld symbol.name)
        else next (ld.dlsym libcDl symbol.name)) q := by
    apply Follows.load fun hc => absurd (Set.mem_insert _ _) hc
    rw [Set.insert_idem]
    change Follows _ _ (if ld.dlopen = 0 then _ else _) q
    by_cases hlibc : ld.dlopen = 0
    · rw [if_pos hlibc]
      exact .exit (.inl ⟨hlibc, rfl⟩)
    · rw [if_neg hlibc]
      apply Follows.load fun hc => absurd (Set.mem_insert _ _) hc
      rw [Set.insert_idem]
      change Follows _ _ (if ld.find symbol = 0 then _ else next (ld.find symbol)) q
      by_cases hfind : ld.find symbol = 0
      · rw [if_pos hfind]
        exact .exit (.inr ⟨symbol, hfind, rfl⟩)
      · rw [if_neg hfind]
        exact h hfind
  apply Follows.load
  · intro _
    exact .store hlookup
  · change Follows _ _ (if ld.dlopen = 0 then _ else _) q
    by_cases hlibc : ld.dlopen = 0
    · rw [if_pos hlibc]
      apply Follows.store
      rw [Set.insert_idem]
      exact hlookup
    · rw [if_neg hlibc]
      exact hlookup

/-- After its prologue a function knows its real counterpart. -/
theorem follows_prolog {next : BoundProgram}
    (h : ld.find symbol ≠ 0 → ∀ L, K ⊆ L → .orig symbol ∈ L → Follows ld.agreement L next q) :
    Follows ld.agreement K (prolog ld symbol next) q := by
  have hhelper (L : Set StaticPointer) (hKL : K ⊆ L) : Follows ld.agreement L
      (rdDlsymHelper ld symbol.name fun func => .store (.orig symbol) func next) q := by
    apply follows_rdDlsymHelper
    intro hfind
    apply Follows.store
    apply h hfind _ _ (Set.mem_insert _ _)
    exact hKL.trans ((Set.subset_insert _ _).trans (Set.subset_insert _ _))
  apply Follows.load
  · intro _
    exact hhelper K subset_rfl
  · change Follows _ _ (if ld.find symbol = 0 then _ else next) q
    by_cases hfind : ld.find symbol = 0
    · rw [if_pos hfind]
      exact hhelper _ (Set.subset_insert _ _)
    · rw [if_neg hfind]
      exact h hfind _ (Set.subset_insert _ _) (Set.mem_insert _ _)

theorem follows_loadOrig {next : U64 → BoundProgram} (hmem : .orig symbol ∈ K)
    (h : Follows ld.agreement K (next (ld.find symbol)) q) :
    Follows ld.agreement K (.load (.orig symbol) next) q := by
  apply Follows.load fun hc => absurd hmem hc
  rw [Set.insert_eq_of_mem hmem]
  exact h

theorem follows_testMaliFd (fd : ℤ) {other' mali' : BoundProgram} {other mali : WrapProgram}
    (hother : Follows ld.agreement K other' other) (hmali : Follows ld.agreement K mali' mali) :
    Follows ld.agreement K (boundTestMaliFd fd other' mali') (testMaliFd fd other mali) := by
  apply Follows.peek
  intro w
  split_ifs
  · exact hother
  · apply Follows.peek
    intro w'
    split_ifs
    · exact hother
    · exact hmali

theorem Call.follows (call : Call) {next' : BoundProgram} {next : WrapProgram}
    (hnext : Follows ld.agreement K next' next) :
    Follows ld.agreement K (call.boundProgram ld next') (call.program next) := by
  have hcall {L : Set StaticPointer} (symbol : LibcSymbol) (real : RealCall)
      (hsymbol : real.symbol = symbol) (hfind : ld.find symbol ≠ 0) (hmem : .orig symbol ∈ L)
      {p : BoundProgram} {q : WrapProgram} (hp : Follows ld.agreement L p q) :
      Follows ld.agreement L (callOrig symbol real p) (.act real q) := by
    subst hsymbol
    exact follows_loadOrig hmem (.act ⟨rfl, hfind⟩ hp)
  have hlocked {L : Set StaticPointer} (symbol : LibcSymbol)
      (hsymbol : call.lockedSymbol = some symbol) (hfind : ld.find symbol ≠ 0)
      (hmem : .orig symbol ∈ L) (hKL : K ⊆ L) :
      Follows ld.agreement L (lockedWith symbol call next') (.locked call next) := by
    refine follows_loadOrig hmem (.locked ⟨?_, ?_⟩ (hnext.mono hKL))
    · rw [hsymbol]
      rfl
    · rw [hsymbol]
      rintro s ⟨⟩
      exact hfind
  cases call with
  | «open» symbol path flags mode ret =>
    apply follows_prolog
    intro hfind L hKL hmem
    refine hcall symbol.libc _ ?_ hfind hmem (.locked ⟨rfl, ?_⟩ (hnext.mono hKL))
    · rfl
    · rintro s ⟨⟩
  | close fd ret =>
    apply follows_prolog
    intro hfind L hKL hmem
    have hclose := hcall _ (.close fd) rfl hfind hmem (hnext.mono hKL)
    simp only [Call.program]
    by_cases hfd : fd ≤ 0
    · rw [if_pos hfd, if_pos hfd]
      exact hclose
    · rw [if_neg hfd, if_neg hfd]
      exact follows_testMaliFd fd hclose (.locked ⟨rfl, by rintro s ⟨⟩⟩ hclose)
  | ioctl fd request arg env =>
    apply follows_prolog
    intro hfind L hKL hmem
    have hdecoded := hlocked _ rfl hfind hmem hKL
    simp only [Call.program]
    by_cases hfd : fd = 0
    · rw [if_pos hfd, if_pos hfd]
      exact hdecoded
    · rw [if_neg hfd, if_neg hfd]
      apply Follows.peek
      intro w
      split_ifs
      · refine hcall .ioctl _ ?_ hfind hmem (hnext.mono hKL)
        rfl
      · exact hdecoded
  | mmap symbol addr length prot flags fd offset ret =>
    apply follows_prolog
    intro hfind L hKL hmem
    apply follows_loadOrig hmem
    apply follows_testMaliFd
    · exact .act ⟨rfl, hfind⟩ (hnext.mono hKL)
    · refine .locked ⟨rfl, ?_⟩ (hnext.mono hKL)
      rintro s ⟨⟩
      exact hfind
  | munmap addr length ret =>
    apply follows_prolog
    intro hfind L hKL hmem
    exact hlocked _ rfl hfind hmem hKL

theorem boundThread_follows (calls : List Call) :
    Follows ld.agreement ∅ (boundThread ld calls) (threadProgram calls) := by
  induction calls with
  | nil => exact .finished ∅
  | cons call calls ih => exact call.follows ih

end Follow

section Interleavings

variable {τ : Type} {ld : Loader} {cut : Cut} {w : World} {calls : τ → List Call}
  {m : BoundMachine τ} {b : Machine τ Halt World Call RealCall}

abbrev Cut.boundSteps (cut : Cut) (taken : Option U64 × Call) : Section Halt World :=
  cut.steps taken.2

/-- The threads are where threads are that need not look anything up, and each function has used
the function of its own name. -/
structure Loader.Bound (ld : Loader) (m : BoundMachine τ)
    (b : Machine τ Halt World Call RealCall) : Prop where
  shared : m.shared = b.shared
  holder : m.holder = b.holder
  stopped : m.stopped = b.stopped
  acted : m.acted = b.acted.map fun (t, real) => (t, ld.find real.symbol, real)
  entered : m.entered = b.entered.map fun (t, call) => (t, call.lockedSymbol.map ld.find, call)
  acted_found : ∀ x ∈ m.acted, x.2.1 ≠ 0
  entered_found : ∀ x ∈ m.entered, x.2.1 ≠ some 0

theorem Loader.bound_of_simulation (h : CellSimulation ld.agreement m b) : ld.Bound m b := by
  have hacted : List.Forall₂ (fun x y => x.2.1 ≠ 0 ∧
      x = (y.1, ld.find (RealCall.symbol y.2), y.2)) m.acted b.acted := by
    apply h.acted.imp
    rintro ⟨t, made⟩ ⟨u, real⟩ ⟨htu, hmade, hfind⟩
    refine ⟨?_, Prod.ext htu hmade⟩
    rw [hmade]
    exact hfind
  have hentered : List.Forall₂ (fun x y => x.2.1 ≠ some 0 ∧
      x = (y.1, (Call.lockedSymbol y.2).map ld.find, y.2)) m.entered b.entered := by
    apply h.entered.imp
    rintro ⟨t, taken⟩ ⟨u, call⟩ ⟨htu, htaken, hfind⟩
    refine ⟨?_, Prod.ext htu htaken⟩
    rw [htaken]
    intro hzero
    obtain ⟨s, hs, hnull⟩ := Option.map_eq_some_iff.mp hzero
    exact hfind s hs hnull
  obtain ⟨hacted_found, hacted_eq⟩ := (List.forall₂_and_left _ _).mp hacted
  obtain ⟨hentered_found, hentered_eq⟩ := (List.forall₂_and_left _ _).mp hentered
  rw [← List.forall₂_map_right_iff, List.forall₂_eq_eq_eq] at hacted_eq hentered_eq
  exact ⟨h.shared, h.holder, h.stopped, hacted_eq, hentered_eq, hacted_found, hentered_found⟩

theorem startBound_simulates :
    CellSimulation ld.agreement (startBound ld w calls) (startThreads w calls) :=
  .initial fun t => boundThread_follows (calls t)

theorem Loader.body_taken (ld : Loader) (cut : Cut) (taken : Option U64 × Call) (call : Call)
    (h : ld.agreement.Taken taken call) : cut.boundSteps taken = cut.steps call :=
  congrArg (fun x => cut.steps x.2) h.1

theorem Loader.lacks_nothing (hlibc : ld.dlopen ≠ 0) (hfind : ∀ s, ld.find s ≠ 0)
    (complaint : Complaint) : ¬ld.Lacks complaint := by
  rintro (⟨hnull, -⟩ | ⟨s, hnull, -⟩)
  · exact hlibc hnull
  · exact hfind s hnull

variable [DecidableEq τ]

/-- The race of the first calls is harmless. In every interleaving in which the threads look up
what they call, whichever of them does so first or again, the state, the mutex and the calls are
those of an interleaving in which nothing need be looked up. Every real call is made through the
function of its own name, and none through `NULL`; a thread ends the program only where the loader
lacks what it says; and what is once in a static variable stays there. -/
theorem bound_interleavings (cut : Cut)
    (h : CellReaches cut.boundSteps (startBound ld w calls) m) :
    (∃ b, Reaches cut.steps (startThreads w calls) b ∧ ld.Bound m b) ∧
    (∀ complaint, m.exited = some complaint → ld.Lacks complaint) ∧
    ∀ m' s, CellReaches cut.boundSteps m m' → m.cells (.orig s) ≠ 0 →
      m.cells (.orig s) = ld.find s ∧ m'.cells (.orig s) = m.cells (.orig s) := by
  have hbody := ld.body_taken cut
  obtain ⟨b, hreach, hsim⟩ := h.simulated hbody startBound_simulates
  refine ⟨⟨b, hreach, Loader.bound_of_simulation hsim⟩, hsim.exited, ?_⟩
  intro m' s hlater hfull
  have hvalue : m.cells (.orig s) = ld.find s := (hsim.cells (.orig s)).resolve_left hfull
  exact ⟨hvalue, hlater.kept hbody hsim hfull⟩

/-- A libc with a function at 0x7000 for every name. -/
def fullLibc : Loader := ⟨0x6000, fun _ _ => 0x7000, fun _ => ""⟩

/-- Both threads find `orig_open` empty before either has looked it up. -/
theorem bound_interleavings_racing : ∃ m : BoundMachine Bool,
    CellReaches Cut.coarse.boundSteps (startBound fullLibc World.plain fun _ => [openMali]) m ∧
    m.acted.map Prod.fst = [false, true] ∧ ∃ b : Machine Bool Halt World Call RealCall,
      Reaches Cut.coarse.steps (startThreads World.plain fun _ => [openMali]) b ∧
      fullLibc.Bound m b := by
  let start : BoundMachine Bool := startBound fullLibc World.plain fun _ => [openMali]
  have hseen : CellReaches Cut.coarse.boundSteps start _ := .single (.load true ⟨rfl, rfl⟩ rfl)
  have hboth := hseen.tail (.load false ⟨rfl, rfl⟩ rfl)
  have hloaded := (hboth.tail (.load false ⟨rfl, rfl⟩ rfl)).tail (.store false ⟨rfl, rfl⟩ rfl)
  have hlooked := (hloaded.tail (.load false ⟨rfl, rfl⟩ rfl)).tail (.load false ⟨rfl, rfl⟩ rfl)
  have hfilled := (hlooked.tail (.store false ⟨rfl, rfl⟩ rfl)).tail (.load false ⟨rfl, rfl⟩ rfl)
  have hopened := hfilled.tail (.act false ⟨rfl, rfl⟩ rfl)
  -- the other thread looks it up once more
  have hagain := (hopened.tail (.load true ⟨rfl, rfl⟩ rfl)).tail (.load true ⟨rfl, rfl⟩ rfl)
  have hlast := (hagain.tail (.load true ⟨rfl, rfl⟩ rfl)).tail (.store true ⟨rfl, rfl⟩ rfl)
  have hdone := (hlast.tail (.load true ⟨rfl, rfl⟩ rfl)).tail (.act true ⟨rfl, rfl⟩ rfl)
  exact ⟨_, hdone, rfl, (bound_interleavings Cut.coarse hdone).1⟩

/-- Where the loader finds all functions, no interleaving is lost: whatever threads do that need
not look anything up is done by threads that look up what they call. -/
theorem bound_interleavings_complete (ld : Loader) (hlibc : ld.dlopen ≠ 0)
    (hfind : ∀ s, ld.find s ≠ 0) (cut : Cut) (w : World) (calls : τ → List Call)
    (h : Reaches cut.steps (startThreads w calls) b) :
    ∃ m, CellReaches cut.boundSteps (startBound ld w calls) m ∧ ld.Bound m b := by
  have hlack : ∀ complaint, ¬ld.agreement.Lacking complaint := Loader.lacks_nothing hlibc hfind
  obtain ⟨m, hm, hsim⟩ := startBound_simulates.matched_reaches (ld.body_taken cut) hlack h
  exact ⟨m, hm, Loader.bound_of_simulation hsim⟩

theorem bound_interleavings_complete_two_threads : ∃ m : BoundMachine Bool,
    CellReaches Cut.coarse.boundSteps (startBound fullLibc World.plain openAndUnmap) m ∧
    m.entered = [(false, some 0x7000, .munmap 4096 4096 0), (true, none, openMali)] := by
  have hlibc : fullLibc.dlopen ≠ 0 := by decide
  have hfind (s : LibcSymbol) : fullLibc.find s ≠ 0 := by
    have hvalue : (0x7000 : U64) ≠ 0 := by decide
    exact hvalue
  obtain ⟨b, hb, -, -, hentered⟩ := openAndUnmap_reaches
  obtain ⟨m, hm, hbound⟩ :=
    bound_interleavings_complete fullLibc hlibc hfind Cut.coarse World.plain openAndUnmap hb
  refine ⟨m, hm, ?_⟩
  rw [hbound.entered, hentered]
  rfl

/-- Threads that make only harmless calls come to their end with the look-ups as well, and in every
order. -/
theorem harmless_lookups_end [Fintype τ] (ld : Loader) (hlibc : ld.dlopen ≠ 0)
    (hfind : ∀ s, ld.find s ≠ 0) (cut : Cut) (w : World)
    (hcalls : ∀ t, ∀ call ∈ calls t, call.Harmless) :
    (¬∃ run : ℕ → BoundMachine τ, run 0 = startBound ld w calls ∧
      ∀ n, CellStep cut.boundSteps (run n) (run (n+1))) ∧
    ∀ m, CellReaches cut.boundSteps (startBound ld w calls) m →
      m.Running ∧ ((∀ m', ¬CellStep cut.boundSteps m m') →
        m.holder = none ∧ ∀ t, m.thread t = .outside .finished) := by
  have hbody := ld.body_taken cut
  have hlack : ∀ complaint, ¬ld.agreement.Lacking complaint := Loader.lacks_nothing hlibc hfind
  constructor
  · rintro ⟨run, -, hstep⟩
    have hwf : WellFounded fun m' m : BoundMachine τ => CellStep cut.boundSteps m m' :=
      wellFounded_cellStep cut.boundSteps
    exact (wellFounded_iff_isEmpty_descending_chain.mp hwf).false ⟨run, hstep⟩
  · intro m hreach
    obtain ⟨b, hb, hsim⟩ := hreach.simulated hbody startBound_simulates
    have hgo : m.Running := by
      constructor
      · rw [hsim.stopped]
        by_contra hstop
        obtain ⟨t, call, hcall, hharmful⟩ := stopped_harmful cut hb hstop
        exact hharmful (hcalls t call hcall)
      · cases hx : m.exited with
        | none => rfl
        | some x => exact absurd (hsim.exited x hx) (hlack x)
    refine ⟨hgo, fun hend => ?_⟩
    have hstuck := hsim.final hbody hlack hend
    obtain ⟨hholder, hfinished⟩ := Reaches.final hb hstuck (hsim.stopped ▸ hgo.1)
    exact ⟨hsim.holder.trans hholder, fun t => hsim.finished hgo hend (hfinished t)⟩

end Interleavings
end Panloader
