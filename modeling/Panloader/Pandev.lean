import Panloader.LogForest
import Panloader.WholePrograms

/-! `pandev.c` and `main.c`, the program of the repository that opens the device itself, with the
wrapper around it. -/
namespace Panloader
open Effects Clients

/-- `O_RDWR`, `O_NONBLOCK` and `O_CLOEXEC` -/
def oRdwr : U32 := 0x2
def oNonblock : U32 := 0x800
def oCloexec : U32 := 0x80000

inductive Stream
  | stdout
  | stderr
deriving DecidableEq

/-- A `printf` or `fprintf`. -/
structure Output where
  stream : Stream
  format : String
  args : List Arg
deriving DecidableEq

/-- The `n` bytes at `a` are set to 0. -/
def Memory.clear (mem : Memory) (a : U64) (n : ℕ) : Memory :=
  fun b => if (b - a).toNat < n then 0 else mem b

/-- `pandev_get_driver_version`, with `struct mali_ioctl_get_version` at `args`. What it returns
where it does not find out is not 0, and `major` and `minor` stay as they are. -/
def pandevGetDriverVersion (args : U64) (fd : ℤ) : LibcClient Output (Except ℤ (U32 × U32)) :=
  .store (·.clear args 16) <|
  .request (.ioctl fd (maliIoctlGetVersion.setWidth 32) (some args)) fun rc =>
  if rc.toInt ≠ 0 then .exit (.error rc.toInt)
  else .look fun mem =>
    .exit (.ok ((mem.read (args + 8) 2).setWidth 32, (mem.read (args + 10) 2).setWidth 32))

def foundVersion (major minor : U32) : Output :=
  ⟨.stdout, "Found kernel driver version v%d.%d at /dev/mali0\n", [.u32 major, .u32 minor]⟩

def untestedVersion : Output where
  stream := .stderr
  format := "Warning! This has only been tested with v10 of the " ++
    "Bifrost kernel driver. There is no guarantee anything " ++ "will work with this version.\n"
  args := []

def pandevOpen (args : U64) : LibcClient Output ℤ :=
  -- no mode is passed
  .request (.open .open "/dev/mali0" (oRdwr ||| oNonblock ||| oCloexec) 0) fun fd =>
  if fd.toInt < 0 then .exit fd.toInt
  else (pandevGetDriverVersion args fd.toInt).bind fun version =>
    match version with
    -- the descriptor stays open, and `rc` is taken for one if it is positive
    | .error rc => .exit rc
    | .ok (major, minor) =>
      .say (foundVersion major minor) <|
      if major ≠ 10 then .say untestedVersion (.exit fd.toInt) else .exit fd.toInt

def openFailed (rc : ℤ) : Output := ⟨.stdout, "pandev_open() failed with rc%d\n", [.int rc]⟩

def moreToCome : Output := ⟨.stdout, "More to come soon :)\n", []⟩

def main (args : U64) : LibcClient Output ℤ :=
  (pandevOpen args).bind fun fd =>
    if fd < 0 then .say (openFailed (-fd)) (.exit (-fd))
    else .say moreToCome (.exit 0)

/-- What `main` returns and prints, where the real `open` returns `fd` and the real `ioctl` `rc`. -/
def mainResult (fd rc : ℤ) (major minor : U32) : ℤ × List Output :=
  if fd < 0 then (-fd, [openFailed (-fd)])
  else if rc < 0 then (-rc, [openFailed (-rc)])
  else if rc ≠ 0 then (0, [moreToCome])
  else if major ≠ 10 then (0, [foundVersion major minor, untestedVersion, moreToCome])
  else (0, [foundVersion major minor, moreToCome])

/-- What the wrapper logs of it. `header` is the first word of the argument, which the kernel
overwrites. -/
def mainLines (fd rc : ℤ) (header : U32) (major minor : U16) : List (ℤ × Line) :=
  if fd = -1 then []
  else (0, "/dev/mali0 fd == %d\n", [.int fd]) ::
    if fd < 0 then []
    else [
      (0, "<%-20s> (%02d) (%08x) (%04d) (%03d)\n",
        [.str "GET_VERSION", .int 0, .u32 0xc0108000, .int 16, .u32 0]),
      (1, "= %02d, %02d\n", [.int rc, .u32 header]),
      (1, "major = %3d\n", [.int major.toNat]),
      (1, "minor = %3d\n", [.int minor.toNat])]

/-- The two calls that `main` makes. -/
def openDevice : Libc := .open .open "/dev/mali0" (oRdwr ||| oNonblock ||| oCloexec) 0
def getVersion (args : U64) (fd : ℤ) : Libc :=
  .ioctl fd (maliIoctlGetVersion.setWidth 32) (some args)

section Exits

variable {S : Type} {serves : Server S Memory Libc Value} {args : U64} {s s' : S}
  {mem mem' : Memory} {fd code : ℤ} {said said' : List Output}

theorem Memory.read_clear (mem : Memory) (a : U64) {n : ℕ} (hn : n < 2^64) (i l : ℕ)
    (h : i + l ≤ n) : (mem.clear a n).read (a + BitVec.ofNat 64 i) l = 0 := by
  induction l generalizing i with
  | zero => rfl
  | succ l ih =>
    have hnext : a + BitVec.ofNat 64 i + 1 = a + BitVec.ofNat 64 (i+1) := by
      rw [BitVec.ofNat_add, BitVec.add_assoc]
      rfl
    have hoffset : (a + BitVec.ofNat 64 i - a).toNat < n := by
      have hcancel : a + BitVec.ofNat 64 i - a = BitVec.ofNat 64 i := by
        rw [BitVec.add_comm, BitVec.add_sub_cancel]
      rw [hcancel, BitVec.toNat_ofNat, Nat.mod_eq_of_lt (by omega)]
      omega
    rw [Memory.read, hnext, ih (i+1) (by omega)]
    have hbyte : mem.clear a n (a + BitVec.ofNat 64 i) = 0 := if_pos hoffset
    rw [hbyte]
    exact BitVec.zero_append_zero

theorem getDriverVersion_exits {r : Except ℤ (U32 × U32)}
    (h : Exits serves (pandevGetDriverVersion args fd) s mem said r s' mem' said') :
    ∃ rc, serves (getVersion args fd) rc s (mem.clear args 16) s' mem' ∧ said' = said ∧
      r = if rc.toInt ≠ 0 then .error rc.toInt
        else .ok ((mem'.read (args + 8) 2).setWidth 32, (mem'.read (args + 10) 2).setWidth 32) := by
  simp only [pandevGetDriverVersion, exits_store, exits_request] at h
  obtain ⟨rc, s₁, m₁, hserves, hrest⟩ := h
  by_cases hrc : rc.toInt ≠ 0
  · rw [if_pos hrc, exits_exit] at hrest
    obtain ⟨rfl, rfl, rfl, rfl⟩ := hrest
    exact ⟨rc, hserves, rfl, (if_pos hrc).symm⟩
  · rw [if_neg hrc, exits_look, exits_exit] at hrest
    obtain ⟨rfl, rfl, rfl, rfl⟩ := hrest
    exact ⟨rc, hserves, rfl, (if_neg hrc).symm⟩

/-- What `pandev_open` returns and prints. -/
def openResult (fd rc : ℤ) (major minor : U32) : ℤ × List Output :=
  if rc ≠ 0 then (rc, [])
  else if major ≠ 10 then (fd, [foundVersion major minor, untestedVersion])
  else (fd, [foundVersion major minor])

theorem pandevOpen_exits {r : ℤ} (h : Exits serves (pandevOpen args) s mem [] r s' mem' said) :
    ∃ fd s₁ m₁, serves openDevice fd s mem s₁ m₁ ∧
      (fd.toInt < 0 ∧ s' = s₁ ∧ (r, said) = (fd.toInt, []) ∨
        0 ≤ fd.toInt ∧ ∃ rc, serves (getVersion args fd.toInt) rc s₁ (m₁.clear args 16) s' mem' ∧
          (r, said) = openResult fd.toInt rc.toInt ((mem'.read (args + 8) 2).setWidth 32)
            ((mem'.read (args + 10) 2).setWidth 32)) := by
  simp only [pandevOpen, exits_request] at h
  obtain ⟨fd, s₁, m₁, hopen, hrest⟩ := h
  refine ⟨fd, s₁, m₁, hopen, ?_⟩
  by_cases hfd : fd.toInt < 0
  · rw [if_pos hfd, exits_exit] at hrest
    obtain ⟨rfl, rfl, rfl, rfl⟩ := hrest
    exact .inl ⟨hfd, rfl, rfl⟩
  · rw [if_neg hfd, exits_bind] at hrest
    obtain ⟨version, s₂, m₂, said₂, hversion, hrest⟩ := hrest
    obtain ⟨rc, hserves, rfl, rfl⟩ := getDriverVersion_exits hversion
    refine .inr ⟨Int.not_lt.mp hfd, rc, ?_⟩
    rw [openResult]
    by_cases hrc : rc.toInt ≠ 0
    · rw [if_pos hrc, exits_exit] at hrest
      obtain ⟨rfl, rfl, rfl, rfl⟩ := hrest
      rw [if_pos hrc]
      exact ⟨hserves, rfl⟩
    · rw [if_neg hrc, exits_say] at hrest
      rw [if_neg hrc]
      by_cases hmajor : ((m₂.read (args + 8) 2).setWidth 32 : U32) ≠ 10
      · rw [if_pos hmajor, exits_say, exits_exit] at hrest
        obtain ⟨rfl, rfl, rfl, rfl⟩ := hrest
        rw [if_pos hmajor]
        exact ⟨hserves, rfl⟩
      · rw [if_neg hmajor, exits_exit] at hrest
        obtain ⟨rfl, rfl, rfl, rfl⟩ := hrest
        rw [if_neg hmajor]
        exact ⟨hserves, rfl⟩

theorem main_exits (h : Exits serves (main args) s mem [] code s' mem' said) :
    ∃ fd s₁ m₁, serves openDevice fd s mem s₁ m₁ ∧
      (fd.toInt < 0 ∧ s' = s₁ ∧ (code, said) = (-fd.toInt, [openFailed (-fd.toInt)]) ∨
        0 ≤ fd.toInt ∧ ∃ rc, serves (getVersion args fd.toInt) rc s₁ (m₁.clear args 16) s' mem' ∧
          (code, said) = mainResult fd.toInt rc.toInt ((mem'.read (args + 8) 2).setWidth 32)
            ((mem'.read (args + 10) 2).setWidth 32)) := by
  rw [main, exits_bind] at h
  obtain ⟨r, s₁, m₁, said₁, hfirst, hrest⟩ := h
  have hlast : s₁ = s' ∧ m₁ = mem' ∧ (code, said) =
      if r < 0 then (-r, said₁ ++ [openFailed (-r)]) else (0, said₁ ++ [moreToCome]) := by
    split_ifs at hrest ⊢ with hr
    all_goals
      rw [exits_say, exits_exit] at hrest
      obtain ⟨rfl, rfl, rfl, rfl⟩ := hrest
      exact ⟨rfl, rfl, rfl⟩
  obtain ⟨rfl, rfl, hresult⟩ := hlast
  rw [hresult]
  obtain ⟨fd, s₂, m₂, hopen, ⟨hfd, rfl, hr⟩ | ⟨hfd, rc, hserves, hr⟩⟩ := pandevOpen_exits hfirst
  · obtain ⟨rfl, rfl⟩ := Prod.mk.inj hr
    refine ⟨fd, _, m₂, hopen, .inl ⟨hfd, rfl, ?_⟩⟩
    rw [if_pos hfd]
    rfl
  · refine ⟨fd, s₂, m₂, hopen, .inr ⟨hfd, rc, hserves, ?_⟩⟩
    -- a descriptor is returned, or an `rc` of either sign
    rw [mainResult, if_neg (Int.not_lt.mpr hfd)]
    unfold openResult at hr
    by_cases hrc : rc.toInt ≠ 0
    · rw [if_pos hrc] at hr
      obtain ⟨rfl, rfl⟩ := Prod.mk.inj hr
      rw [if_pos hrc]
      rfl
    · have hzero : ¬rc.toInt < 0 := by omega
      rw [if_neg hrc] at hr
      rw [if_neg hzero, if_neg hrc]
      by_cases hmajor : ((m₁.read (args + 8) 2).setWidth 32 : U32) ≠ 10
      · rw [if_pos hmajor] at hr ⊢
        obtain ⟨rfl, rfl⟩ := Prod.mk.inj hr
        rw [if_neg (Int.not_lt.mpr hfd)]
        rfl
      · rw [if_neg hmajor] at hr ⊢
        obtain ⟨rfl, rfl⟩ := Prod.mk.inj hr
        rw [if_neg (Int.not_lt.mpr hfd)]
        rfl

end Exits

section Logging

variable {st : Stage} {i : ℤ} {ls : List (ℤ × Line)}

theorem lock_logged : Ensures (Logged st i ls) lock (fun _ => Logged st i ls) fun _ _ => True := by
  intro w hw
  unfold lock
  by_cases hlocked : w.locked = true
  · rw [if_pos hlocked]
    trivial
  · rw [if_neg hlocked]
    exact ⟨hw.maliFd, hw.tracker, hw.mem, hw.indent, hw.lines⟩

theorem unlock_logged {E : Halt → World → Prop} :
    Ensures (Logged st i ls) unlock (fun _ => Logged st i ls) E :=
  fun _ hw => ⟨hw.maliFd, hw.tracker, hw.mem, hw.indent, hw.lines⟩

theorem origIoctl_answers {E : Halt → World → Prop} (fd : ℤ) (request : U32) (ptr : U64)
    (env : IoctlEnv) : Ensures (Logged st i ls) (origIoctl fd request ptr env)
      (fun v w => v = env.ret ∧ Logged { st with mem := env.after } i ls w) E :=
  fun w hw => ⟨rfl, (origIoctl_logged fd request ptr env (E := E)) w hw⟩

theorem openDevice_logged (prints : U32 → Bool) (junk : U64) (v : Value) (mem mem' : Memory) :
    Ensures (Logged st 0 ls) (openDevice.call prints junk v mem mem').exec
      (fun _ => Logged (if v.toInt = -1 then st else { st with maliFd := v.toInt }) 0
        (ls ++ if v.toInt = -1 then [] else [(0, "/dev/mali0 fd == %d\n", [.int v.toInt])]))
      fun _ _ => True := by
  have hnote (fd : ℤ) : Ensures (Logged st 0 ls)
      (if fd ≠ -1 then noteOpened "/dev/mali0" fd else pure ())
      (fun _ => Logged (if fd = -1 then st else { st with maliFd := fd }) 0
        (ls ++ if fd = -1 then [] else [(0, "/dev/mali0 fd == %d\n", [.int fd])]))
      fun _ _ => True := by
    by_cases hfd : fd = -1
    · simp only [hfd, ne_eq, not_true_eq_false, if_false, if_true, List.append_nil]
      exact Ensures.pure ()
    · simp only [hfd, ne_eq, not_false_eq_true, if_false, if_true, noteOpened]
      apply (panwrapLog_logged _ _).bind
      intro _
      exact setMaliFd_logged fd
  apply Ensures.map
  apply (orig_logged _ v.toInt).bind_eq
  apply lock_logged.bind
  intro _
  apply (hnote v.toInt).bind
  intro _
  apply unlock_logged.bind
  intro _
  exact Ensures.pure v.toInt

/-- What is logged of the request for the version. -/
def versionLines (rc : ℤ) (header : U32) (major minor : U16) : List (ℤ × Line) := [
  (0, "<%-20s> (%02d) (%08x) (%04d) (%03d)\n",
    [.str "GET_VERSION", .int 0, .u32 0xc0108000, .int 16, .u32 0]),
  (1, "= %02d, %02d\n", [.int rc, .u32 header]),
  (1, "major = %3d\n", [.int major.toNat]),
  (1, "minor = %3d\n", [.int minor.toNat])]

/-- The branch of `ioctl` that decodes, for the request for the version, whose argument begins
with 0. -/
theorem versionDecoded_logged {args : U64} (fd : ℤ) (env : IoctlEnv)
    (hheader : st.mem.read args 4 = 0) :
    Ensures (Logged st 0 ls) (ioctlDecoded fd (maliIoctlGetVersion.setWidth 32) args env)
      (fun _ => Logged { st with mem := env.after } 0 (ls ++ versionLines env.ret
        (env.after.read args 4) (env.after.read (args + 8) 2) (env.after.read (args + 10) 2)))
      fun _ _ => True := by
  have hpre : ioctlDecodePre (widenRequest (maliIoctlGetVersion.setWidth 32)) args = pure () := rfl
  have hpost : ioctlDecodePost (widenRequest (maliIoctlGetVersion.setWidth 32)) args =
      ioctlDecodePostGetVersion args := rfl
  apply (load_logged 4 args).bind_eq
  apply (panwrapLog_logged _ _).bind
  intro _
  apply panwrapIndentIncr_logged.bind
  intro _
  rw [hpre]
  apply (Ensures.pure ()).bind
  intro _
  apply panwrapUnfreezeTime_logged.bind
  intro _
  apply (origIoctl_answers _ _ _ _).bind_eq
  apply panwrapFreezeTime_logged.bind
  intro _
  apply (load_logged 4 args).bind_eq
  apply (panwrapLog_logged _ _).bind
  intro _
  rw [hpost]
  apply Ensures.bind
  · apply (load_logged 2 (args + 8)).bind_eq
    apply (panwrapLog_logged _ _).bind
    intro _
    apply (load_logged 2 (args + 10)).bind_eq
    exact panwrapLog_logged _ _
  · intro _
    apply panwrapIndentDecr_logged.bind
    intro _
    rw [hheader]
    simp only [List.append_assoc]
    exact Ensures.pure _

/-- The header is cleared before the call, and the version is what the kernel has left. -/
theorem getVersion_logged {args : U64} (hargs : args ≠ 0) {fd : ℤ} (hfd : fd = st.maliFd)
    (prints : U32 → Bool) (junk : U64) (v : Value) (mem mem' : Memory) :
    Ensures (Logged st 0 ls)
      ((getVersion args fd).call prints junk v (mem.clear args 16) mem').exec
      (fun _ => Logged { st with mem := mem' } 0 (ls ++ versionLines v.toInt (mem'.read args 4)
        (mem'.read (args + 8) 2) (mem'.read (args + 10) 2))) fun _ _ => True := by
  have hptr : ioctlPtr (maliIoctlGetVersion.setWidth 32) (some args) junk = args :=
    if_pos (by decide)
  have hheader : (mem.clear args 16).read args 4 = 0 := by
    have hclear := mem.read_clear args (n := 16) (by decide) 0 4 (by decide)
    rwa [BitVec.add_zero] at hclear
  have hname : ioctlGetInfo (widenRequest (maliIoctlGetVersion.setWidth 32)) ≠ none := by decide
  have hdecoded : Ensures (Logged { st with mem := mem.clear args 16 } 0 ls)
      (ioctlDecoded fd (maliIoctlGetVersion.setWidth 32) args
        ⟨mem.clear args 16, mem', v.toInt, junk, prints (maliIoctlGetVersion.setWidth 32)⟩)
      (fun _ => Logged { st with mem := mem' } 0 (ls ++ versionLines v.toInt (mem'.read args 4)
        (mem'.read (args + 8) 2) (mem'.read (args + 10) 2))) fun _ _ => True :=
    versionDecoded_logged fd _ hheader
  apply Ensures.map
  apply (setMem_logged _).bind
  intro _
  apply maliFd_logged.bind_eq
  dsimp only
  rw [hptr, if_neg fun h => h.2 hfd, if_neg hargs]
  apply lock_logged.bind
  intro _
  apply panwrapFreezeTime_logged.bind
  intro _
  apply (lookUpName_ensures fun hstray _ _ => absurd (.inl hname) hstray).bind
  intro _
  apply hdecoded.bind
  intro _
  apply panwrapUnfreezeTime_logged.bind
  intro _
  apply unlock_logged.bind
  intro _
  exact Ensures.pure _

end Logging

section Main

variable {args : U64}

theorem main_only {P : Libc → Prop} (hopen : P openDevice)
    (hversion : ∀ fd, P (getVersion args fd)) :
    (main args).Only P := by
  have hget (fd : ℤ) : (pandevGetDriverVersion args fd).Only P := by
    refine ⟨hversion fd, fun rc => ?_⟩
    dsimp only
    split_ifs
    · trivial
    · exact fun _ => trivial
  apply Client.Only.bind
  · refine ⟨hopen, fun fd => ?_⟩
    dsimp only
    split_ifs
    · trivial
    · apply (hget fd.toInt).bind
      intro version
      rcases version with rc | ⟨major, minor⟩
      · trivial
      · dsimp only
        split_ifs <;> trivial
  · intro fd
    split_ifs <;> trivial

theorem getVersion_keepsArguments (fd : ℤ) : (getVersion args fd).KeepsArguments :=
  .inl (by decide)

theorem openDevice_keepsArguments : openDevice.KeepsArguments := .inr (by decide)

theorem main_keepsArguments : (main args).Only Libc.KeepsArguments :=
  main_only openDevice_keepsArguments getVersion_keepsArguments

theorem main_harmless : (main args).Only Libc.Harmless := by
  have hversion : ioctlGetInfo (widenRequest (maliIoctlGetVersion.setWidth 32)) ≠ none ∧
      ioctlCase (widenRequest (maliIoctlGetVersion.setWidth 32)) ∉
        checkedRequests.map ioctlCase := by decide
  exact main_only trivial fun _ => hversion

end Main

/-- Without the wrapper and with it, `main` returns and prints the same. What it prints, and what
the wrapper logs of it, is what the kernel has answered. -/
theorem main_logged {σ : Type} (prints : U32 → Bool) (k : Kernel σ) {args : U64} (hargs : args ≠ 0)
    {w : World} (hrest : AtRest w) (s : σ) (mem : Memory) :
    (∀ code s' mem' said, Exits (bare k) (main args) s mem [] code s' mem' said →
      ∃ w', Exits (wrapped prints k) (main args) (w, s) mem [] code (w', s') mem' said) ∧
    ∀ code w' s' mem' said,
      Exits (wrapped prints k) (main args) (w, s) mem [] code (w', s') mem' said →
      Exits (bare k) (main args) s mem [] code s' mem' said ∧
      ∃ fd s₁ m₁, k.serves (openDevice.real 0) fd s mem s₁ m₁ ∧
        (fd.toInt < 0 ∧ s' = s₁ ∧ (code, said) = (-fd.toInt, [openFailed (-fd.toInt)]) ∧
            logLines w'.trace = logLines w.trace ++ mainLines fd.toInt 0 0 0 0 ∨
          0 ≤ fd.toInt ∧ ∃ rc,
            k.serves ((getVersion args fd.toInt).real 0) rc s₁ (m₁.clear args 16) s' mem' ∧
            (code, said) = mainResult fd.toInt rc.toInt ((mem'.read (args + 8) 2).setWidth 32)
              ((mem'.read (args + 10) 2).setWidth 32) ∧
            logLines w'.trace = logLines w.trace ++ mainLines fd.toInt rc.toInt (mem'.read args 4)
              (mem'.read (args + 8) 2) (mem'.read (args + 10) 2)) := by
  constructor
  · intro code s' mem' said h
    obtain ⟨⟨w', _⟩, hreach, -, rfl⟩ | ⟨mid, t, hto, -, -, -, c, next, hclient, -, hharmful, -⟩ :=
      (bare_simulates prints k).reaches main_keepsArguments (s := (w, s)) ⟨hrest, rfl⟩ h
    · exact ⟨w', hreach⟩
    · have honly := Reaches.only hto main_harmless
      rw [show mid.client = .request c next from hclient] at honly
      exact absurd honly.1 hharmful
  · intro code w' s' mem' said h
    constructor
    · obtain ⟨_, hreach, -, rfl⟩ := (wrapped_simulates prints k).reaches_end
        (fun _ _ _ _ hfalse => hfalse) main_keepsArguments (s := s) ⟨hrest, rfl⟩ h
      exact hreach
    obtain ⟨fd, ⟨w₁, s₁⟩, m₁, hopen, hcase⟩ := main_exits h
    obtain ⟨junk, hexec, hserves⟩ := wrapped_served hopen
    have hfirst := (openDevice_logged prints junk fd mem m₁).ok hrest.logged hexec
    rw [Libc.forwarded_call openDevice_keepsArguments] at hserves
    refine ⟨fd, s₁, m₁, hserves, ?_⟩
    obtain ⟨hfd, heq, hresult⟩ | ⟨hfd, rc, hversion, hresult⟩ := hcase
    · obtain ⟨rfl, rfl⟩ := Prod.mk.inj heq
      refine .inl ⟨hfd, rfl, hresult, ?_⟩
      rw [hfirst.lines, mainLines, if_pos hfd]
    · obtain ⟨junk', hexec', hserves'⟩ := wrapped_served hversion
      rw [Libc.forwarded_call (getVersion_keepsArguments _)] at hserves'
      have hne : ¬fd.toInt = -1 := by omega
      rw [if_neg hne, if_neg hne] at hfirst
      have hrest := (getVersion_logged hargs rfl prints junk' rc m₁ mem').ok hfirst hexec'
      refine .inr ⟨hfd, rc, hserves', hresult, ?_⟩
      rw [hrest.lines, mainLines, if_neg hne, if_neg (Int.not_lt.mpr hfd), List.append_assoc]
      rfl

/-- The kernel's answer to the request for its version: 10.3. -/
def versionTen : Memory := fun a => if a = 0x7008 then 10 else if a = 0x700a then 3 else 0

theorem versionTen_exits : Exits (bare Kernel.any) (main 0x7000) () (fun _ => 0) [] 0 () versionTen
    [foundVersion 10 3, moreToCome] := by
  refine exits_request.mpr ⟨.int 3, (), fun _ => 0, ⟨0, trivial⟩, ?_⟩
  refine exits_store.mpr (exits_request.mpr ⟨.int 0, (), versionTen, ⟨0, trivial⟩, ?_⟩)
  exact exits_look.mpr (exits_say.mpr (exits_say.mpr (exits_exit.mpr ⟨rfl, rfl, rfl, rfl⟩)))

theorem main_logged_ten : ∃ w' fd rc,
    Exits (wrapped noStray Kernel.any) (main 0x7000) (World.plain, ()) (fun _ => 0) [] 0 (w', ())
      versionTen [foundVersion 10 3, moreToCome] ∧
    logLines w'.trace = mainLines fd rc 0 10 3 := by
  have hargs : (0x7000 : U64) ≠ 0 := by decide
  obtain ⟨hunder, hlogged⟩ :=
    main_logged noStray Kernel.any hargs (w := World.plain) ⟨rfl, rfl, rfl⟩ () fun _ => 0
  obtain ⟨w', h⟩ := hunder _ _ _ _ versionTen_exits
  obtain ⟨-, fd, _, _, -, ⟨-, -, hfailed, -⟩ | ⟨-, rc, -, -, hlines⟩⟩ := hlogged _ _ _ _ _ h
  · -- `main` has said more than that it failed
    have hlength := congrArg (fun result => result.2.length) hfailed
    cases hlength
  · exact ⟨w', fd.toInt, rc.toInt, h, hlines⟩

end Panloader
