import Panloader.PanwrapSyscall

/-! `panwrap_util_init`, which runs before the traced program does: it reads three environment
variables, and starts the clock or ends the program. -/
namespace Panloader

/-- What is printed to `stderr` before `exit(code)`, with the arguments of its conversions. -/
structure Complaint where
  code : ℤ
  format : String
  args : List String
deriving DecidableEq

/-- The process as the wrapper finds it. `fopen` gives the error where it cannot create a file. -/
structure Host where
  getenv : String → Option String
  fopen : String → Option String
  clock : ℕ → Timespec

/-- `log_output` -/
inductive LogOutput
  | stderr
  | stdout
  | file (path : String)
deriving DecidableEq

def invalidValue (env val : String) : Complaint :=
  ⟨1, "Invalid value for %s: %s\nValid values are 0 or 1\n", [env, val]⟩

def parseEnvBool (host : Host) (env : String) (default : Bool) : Except Complaint Bool :=
  match host.getenv env with
  | none => .ok default
  | some val =>
    if val = "1" then .ok true
    else if val = "0" then .ok false
    else .error (invalidValue env val)

/-- `clock_gettime(CLOCK_MONOTONIC, &start_time)` with `enable_timestamps` set. -/
def World.startClock (w : World) : World :=
  { w with
    time := { w.time with enableTimestamps := true, startTime := w.clock w.ticks }
    ticks := w.ticks+1 }

def openOutput (host : Host) : Except Complaint LogOutput :=
  match host.getenv "PANWRAP_OUTPUT" with
  | none => .ok .stdout
  | some env =>
    -- these two are not opened again
    if env = "/dev/stderr" then .ok .stderr
    else if env = "/dev/stdout" then .ok .stdout
    else match host.fopen env with
      | none => .ok (.file env)
      | some error => .error ⟨1, "Failed to open %s: %s\n", [env, error]⟩

/-- The state is that of the static variables' initializers before. -/
def panwrapUtilInit (host : Host) : Except Complaint (World × LogOutput) := do
  let w := World.initial false true host.clock
  let timestamps ← parseEnvBool host "PANWRAP_ENABLE_TIMESTAMPS" false
  let w := if timestamps then w.startClock else w
  let trimming ← parseEnvBool host "PANWRAP_ENABLE_HEXDUMP_TRIM" true
  let w := { w with enableHexdumpTrimming := trimming }
  let output ← openOutput host
  pure (w, output)

section Startup

variable {host : Host}

/-- A variable that may be unset, 0 or 1. -/
def Host.Switch (host : Host) (env : String) : Prop :=
  ∀ val, host.getenv env = some val → val = "0" ∨ val = "1"

theorem parseEnvBool_ok (env : String) (default : Bool) :
    (∃ b, parseEnvBool host env default = .ok b) ↔ host.Switch env := by
  unfold parseEnvBool Host.Switch
  cases host.getenv env with
  | none => simp
  | some val =>
    by_cases h1 : val = "1"
    · simp [h1]
    · by_cases h0 : val = "0" <;> simp [h1, h0]

theorem except_bind_ok {ε α β : Type} {x : Except ε α} {f : α → Except ε β} {b : β} :
    (x >>= f) = .ok b ↔ ∃ a, x = .ok a ∧ f a = .ok b := by
  cases x with
  | error e =>
    constructor
    · intro h
      cases h
    · rintro ⟨a, h, -⟩
      cases h
  | ok a =>
    constructor
    · exact fun h => ⟨a, rfl, h⟩
    · rintro ⟨a, ⟨⟩, h⟩
      exact h

/-- Where the program starts, it does so in a state from which the runs start. -/
theorem panwrapUtilInit_ok (w : World) (output : LogOutput) :
    panwrapUtilInit host = .ok (w, output) ↔ ∃ timestamps trimming,
      parseEnvBool host "PANWRAP_ENABLE_TIMESTAMPS" false = .ok timestamps ∧
      parseEnvBool host "PANWRAP_ENABLE_HEXDUMP_TRIM" true = .ok trimming ∧
      openOutput host = .ok output ∧ w = World.initial timestamps trimming host.clock := by
  -- the clock is started before trimming is known
  have hinitial (timestamps trimming : Bool) :
      { (if timestamps then (World.initial false true host.clock).startClock
          else World.initial false true host.clock) with
        enableHexdumpTrimming := trimming } = World.initial timestamps trimming host.clock := by
    cases timestamps <;> rfl
  simp only [panwrapUtilInit, except_bind_ok, hinitial]
  constructor
  · rintro ⟨timestamps, htime, trimming, htrim, output', hout, heq⟩
    cases heq
    exact ⟨timestamps, trimming, htime, htrim, hout, rfl⟩
  · rintro ⟨timestamps, trimming, htime, htrim, hout, rfl⟩
    exact ⟨timestamps, htime, trimming, htrim, output, hout, rfl⟩

/-- The program starts exactly where both switches are 0, 1 or unset and the log can be opened. -/
theorem panwrapUtilInit_starts : (∃ started, panwrapUtilInit host = .ok started) ↔
    host.Switch "PANWRAP_ENABLE_TIMESTAMPS" ∧ host.Switch "PANWRAP_ENABLE_HEXDUMP_TRIM" ∧
      ∃ output, openOutput host = .ok output := by
  rw [← parseEnvBool_ok _ false, ← parseEnvBool_ok _ true]
  constructor
  · rintro ⟨⟨w, output⟩, h⟩
    obtain ⟨timestamps, trimming, htime, htrim, hout, -⟩ := (panwrapUtilInit_ok w output).mp h
    exact ⟨⟨timestamps, htime⟩, ⟨trimming, htrim⟩, output, hout⟩
  · rintro ⟨⟨timestamps, htime⟩, ⟨trimming, htrim⟩, output, hout⟩
    exact ⟨_, (panwrapUtilInit_ok _ output).mpr ⟨timestamps, trimming, htime, htrim, hout, rfl⟩⟩

end Startup
end Panloader
