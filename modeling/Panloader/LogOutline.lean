import Panloader.Observers
import Panloader.Outlines
import Panloader.QuietDecoders

/-! The lines of the log. A decoder's lines are no less deep than the line it is called below, and
none is more than one level deeper than the line before it; a report of an invalid access begins
again on the left. -/
namespace Panloader
open Effects Outlines

set_option synthInstance.maxSize 4000

/-- What a log line is printed from. -/
abbrev Line := String × List Arg

def Event.line? : Event → Option (ℤ × Line)
  | .log _ level format args => some (level, format, args)
  | _ => none

/-- The lines of a log, each with its indent. -/
def logLines (es : List Event) : List (ℤ × Line) := es.filterMap Event.line?

def indented (ls : List (ℕ × Line)) : List (ℤ × Line) := ls.map fun line => (↑line.1, line.2)

/-- The lines `__panwrap_deref_mem_err` ends the log with. -/
def accessReport (mem : Option PanwrapMappedMemory) (gpuVa size : U64) (line : ℕ)
    (filename : String) : List (ℕ × Line) :=
  [(0, "\n", []),
    (0, "INVALID GPU MEMORY ACCESS @0x%lx - 0x%lx:\n", [.u64 gpuVa, .u64 (gpuVa + size)]),
    (0, "Occurred at line %d of %s\n", [.int line, .str filename])] ++
  match mem with
  | some mem =>
    [(0, "Mapping information:\n", []),
      (1, "CPU VA: %p - %p\n", [.u64 mem.addr, .u64 (mem.addr + mem.length)]),
      (1, "GPU VA: 0x%lx - 0x%lx\n", [.u64 mem.gpuVa, .u64 (mem.gpuVa + mem.length)]),
      (1, "Length: %zu bytes\n", [.u64 mem.length]),
      (0, "Access length was %zu (%zu out of bounds)\n",
        [.u64 size, .u64 (((gpuVa - mem.gpuVa) + size) - mem.length)])]
  | none => [(0, "GPU memory is not contained within known GPU VA mappings\n", [])]

/-- One of the mappings, or `NULL`. -/
class Tracked (mmaps : List PanwrapMappedMemory) (mem : Option PanwrapMappedMemory) : Prop where
  mem_mmaps : ∀ m, mem = some m → m ∈ mmaps

/-- The report of an access that is not accepted. -/
def IsReport (mmaps : List PanwrapMappedMemory) (ls : List (ℕ × Line)) : Prop :=
  ∃ mem gpuVa size line filename, Tracked mmaps mem ∧ derefGpuMem mmaps mem gpuVa size = none ∧
    ls = accessReport (usedMapping mmaps mem gpuVa) gpuVa size line filename

theorem logLines_append (es es' : List Event) :
    logLines (es ++ es') = logLines es ++ logLines es' :=
  List.filterMap_append

theorem indented_append (ls ls' : List (ℕ × Line)) :
    indented (ls ++ ls') = indented ls ++ indented ls' :=
  List.map_append

theorem indented_injective : Function.Injective indented := by
  apply List.map_injective_iff.mpr
  rintro ⟨d, line⟩ ⟨d', line'⟩ h
  obtain ⟨hd, hline⟩ := Prod.mk.inj h
  have hd : d = d' := Int.ofNat.inj hd
  rw [hd, show line = line' from hline]

theorem logLines_emit {w : World} {e : Event} (he : e.line? = none) :
    logLines (w.emit e).trace = logLines w.trace := by
  simp [World.emit, logLines, he]

section Exact

variable {α : Type} {st : Stage} {i : ℤ} {ls : List (ℤ × Line)} {E : Halt → World → Prop}

/-- What the wrapper prints from, its indent, and all lines so far. -/
structure Logged (st : Stage) (i : ℤ) (ls : List (ℤ × Line)) (w : World) : Prop where
  maliFd : w.maliFd = st.maliFd
  tracker : w.tracker = st.tracker
  mem : w.mem = st.mem
  indent : w.panwrapIndent = i
  lines : logLines w.trace = ls

theorem Logged.self (w : World) : Logged w.stage w.panwrapIndent (logLines w.trace) w :=
  ⟨rfl, rfl, rfl, rfl, rfl⟩

theorem panwrapLog_logged (format : String) (args : List Arg) :
    Ensures (Logged st i ls) (panwrapLog format args)
      (fun _ => Logged st i (ls ++ [(i, format, args)])) E := by
  intro w hw
  have hquiet := (quiet_panwrapLog (c := 0) (r := 0) format args).ensures w w.stage [] 0 w
    (At.start w 0)
  obtain ⟨u, stamp, clocks, hu, -, -, htrace, hclocks⟩ := panwrapLog_run format args w
  rw [hu] at hquiet ⊢
  have hnone : logLines clocks = [] := by
    apply List.filterMap_eq_nil_iff.mpr
    intro e he
    obtain ⟨now, rfl⟩ := hclocks e he
    rfl
  refine ⟨(congrArg Stage.maliFd hquiet.stage).trans hw.maliFd,
    (congrArg Stage.tracker hquiet.stage).trans hw.tracker,
    (congrArg Stage.mem hquiet.stage).trans hw.mem, hquiet.indent.trans ?_, ?_⟩
  · rw [hw.indent]
    exact Int.add_zero i
  · rw [htrace, logLines_append, logLines_append, hnone, hw.lines, hw.indent]
    rfl

theorem panwrapIndentIncr_logged : Ensures (Logged st i ls) panwrapIndentIncr
    (fun _ => Logged st (i+1) ls) E := by
  intro w hw
  exact ⟨hw.maliFd, hw.tracker, hw.mem, congrArg (· + 1) hw.indent,
    (logLines_emit rfl).trans hw.lines⟩

theorem panwrapIndentDecr_logged : Ensures (Logged st (i+1) ls) panwrapIndentDecr
    (fun _ => Logged st i ls) E := by
  intro w hw
  refine ⟨hw.maliFd, hw.tracker, hw.mem, ?_, (logLines_emit rfl).trans hw.lines⟩
  show w.panwrapIndent - 1 = i
  rw [hw.indent]
  omega

theorem panwrapDerefMemErr_logged (mem : Option PanwrapMappedMemory) (gpuVa size : U64) (line : ℕ)
    (filename : String) :
    Ensures (Logged st i ls) (panwrapDerefMemErr mem gpuVa size line filename : Wrap α)
      (fun _ _ => False) (fun h w => h = .derefMemErr ∧
        logLines w.trace = ls ++ indented (accessReport mem gpuVa size line filename)) := by
  have hreset : Ensures (Logged st i ls) panwrapIndentReset (fun _ => Logged st 0 ls)
      fun h w => h = .derefMemErr ∧
        logLines w.trace = ls ++ indented (accessReport mem gpuVa size line filename) :=
    fun w hw => ⟨hw.maliFd, hw.tracker, hw.mem, rfl, (logLines_emit rfl).trans hw.lines⟩
  apply hreset.bind
  intro _
  apply Ensures.bind (Q := fun _ => Logged st 0
    (ls ++ indented (accessReport mem gpuVa size line filename)))
  · apply (panwrapLog_logged _ _).bind
    intro _
    apply (panwrapLog_logged _ _).bind
    intro _
    apply (panwrapLog_logged _ _).bind
    intro _
    cases mem with
    | none =>
      apply (panwrapLog_logged _ _).mono
      · intro _ w hw
        simpa [indented, accessReport] using hw
      · exact fun _ _ h => h
    | some mem =>
      apply (panwrapLog_logged _ _).bind
      intro _
      apply panwrapIndentIncr_logged.bind
      intro _
      apply (panwrapLog_logged _ _).bind
      intro _
      apply (panwrapLog_logged _ _).bind
      intro _
      apply (panwrapLog_logged _ _).bind
      intro _
      apply panwrapIndentDecr_logged.bind
      intro _
      apply (panwrapLog_logged _ _).mono
      · intro _ w hw
        simpa [indented, accessReport] using hw
      · exact fun _ _ h => h
  · exact fun _ w hw => ⟨rfl, hw.lines⟩

end Exact

section Rules

variable {α β : Type} {mmaps : List PanwrapMappedMemory} {start : List (ℤ × Line)}
  {base top c d k : ℕ} {b e e' : Bool} {m m' : Wrap α} {f : α → Wrap β}

/-- Lines no less deep than `base`, of which the first may be `top` deep and one that comes after
them `next`. -/
def Outlined (start : List (ℤ × Line)) (base top next : ℕ) (w : World) : Prop :=
  ∃ ls, logLines w.trace = start ++ indented ls ∧ Outline top ls ∧ (∀ line ∈ ls, base ≤ line.1) ∧
    next ≤ nextTop top ls

/-- A moment of a decoder, `c` levels below the level `base`. If `b` is set, a line one level
deeper may follow. -/
structure Below (mmaps : List PanwrapMappedMemory) (start : List (ℤ × Line)) (base top c : ℕ)
    (b : Bool) (w : World) : Prop where
  mmaps : w.tracker.mmaps = mmaps
  indent : w.panwrapIndent = (base + c : ℕ)
  lines : Outlined start base top (base + c + b.toNat) w

/-- An abrupt end of a decoder: after a report, or in the middle. No name is looked up there. -/
def Ended (mmaps : List PanwrapMappedMemory) (start : List (ℤ × Line)) (base top : ℕ) (h : Halt)
    (w : World) : Prop :=
  h ≠ .strayName ∧
  ∃ ls report, logLines w.trace = start ++ indented (ls ++ report) ∧ Outline top ls ∧
    (∀ line ∈ ls, base ≤ line.1) ∧
    if h = .derefMemErr then IsReport mmaps report else report = []

/-- From `c` levels below the one it was called on, `m` goes to `d` levels below it. It can start
where a deeper line may follow, if `b` is set, and so it ends, if `e` is. -/
class Nested (mmaps : List PanwrapMappedMemory) {α : Type} (c : ℕ) (b : Bool) (d : outParam ℕ)
    (e : outParam Bool) (m : Wrap α) : Prop where
  ensures : ∀ start base top, Ensures (Below mmaps start base top c b) m
    (fun _ => Below mmaps start base top d e) (Ended mmaps start base top)

theorem Below.drop {w : World} (hw : Below mmaps start base top c b w) :
    Below mmaps start base top c false w := by
  obtain ⟨ls, hls, hout, hbase, hnext⟩ := hw.lines
  exact ⟨hw.mmaps, hw.indent, ls, hls, hout, hbase, by simp at *; omega⟩

theorem Nested.drop (hm : Nested mmaps c b d e m) : Nested mmaps c b d false m where
  ensures start base top :=
    (hm.ensures start base top).mono (fun _ _ h => h.drop) fun _ _ h => h

theorem Nested.of_false (hm : Nested mmaps c false d e m) : Nested mmaps c b d e m where
  ensures start base top := fun w hw => hm.ensures start base top w hw.drop

/-- A statement without lines. -/
theorem Nested.of_quiet (h : ∀ w, ∃ a w', m w = .ok a w' ∧ w'.tracker.mmaps = w.tracker.mmaps ∧
    w'.panwrapIndent = w.panwrapIndent ∧ logLines w'.trace = logLines w.trace) :
    Nested mmaps c b c b m where
  ensures start base top := by
    intro w hw
    obtain ⟨a, w', hr, hmmaps, hindent, hlines⟩ := h w
    obtain ⟨ls, hls, hrest⟩ := hw.lines
    rw [hr]
    exact ⟨hmmaps.trans hw.mmaps, hindent.trans hw.indent, ls, hlines.trans hls, hrest⟩

theorem Nested.of_event {v : α} {ev : World → Event} (hm : ∀ w, m w = .ok v (w.emit (ev w)))
    (hev : ∀ w, (ev w).line? = none) : Nested mmaps c b c b m :=
  .of_quiet fun w => ⟨v, _, hm w, rfl, rfl, logLines_emit (hev w)⟩

instance nested_pure (a : α) : Nested mmaps c b c b (pure a : Wrap α) :=
  .of_quiet fun w => ⟨a, w, rfl, rfl, rfl, rfl⟩

instance nested_bind [hm : Nested mmaps c b d e m] [hf : ∀ a, Nested mmaps d e k e' (f a)] :
    Nested mmaps c b k e' (m >>= f) where
  ensures start base top :=
    (hm.ensures start base top).bind fun a => (hf a).ensures start base top

theorem Nested.seq [hm : Nested mmaps c b d e m] (hf : ∀ a, Nested mmaps d e k e' (f a)) :
    Nested mmaps c b k e' (m >>= f) :=
  nested_bind

instance nested_ite {p : Prop} [Decidable p] [hm : Nested mmaps c b d e m]
    [hm' : Nested mmaps c b d e' m'] : Nested mmaps c b d false (if p then m else m') := by
  split
  · exact hm.drop
  · exact hm'.drop

theorem nested_halt {h : Halt} (hname : h ≠ .strayName) (hh : h ≠ .derefMemErr) :
    Nested mmaps c b c b (halt h : Wrap α) where
  ensures start base top := by
    intro w hw
    obtain ⟨ls, hls, hout, hbase, -⟩ := hw.lines
    exact ⟨hname, ls, [], by rwa [List.append_nil], hout, hbase, by rw [if_neg hh]⟩

instance nested_divByZero : Nested mmaps c b c b (halt .divByZero : Wrap α) :=
  nested_halt (by decide) (by decide)
instance nested_intOverflow : Nested mmaps c b c b (halt .intOverflow : Wrap α) :=
  nested_halt (by decide) (by decide)
instance nested_endlessLoop : Nested mmaps c b c b (halt .endlessLoop : Wrap α) :=
  nested_halt (by decide) (by decide)

instance nested_load (n : ℕ) (a : U64) : Nested mmaps c b c b (load n a) where
  ensures start base top := by
    intro w hw
    obtain ⟨ls, hls, hrest⟩ := hw.lines
    exact ⟨hw.mmaps, hw.indent, ls, (logLines_emit rfl).trans hls, hrest⟩

instance nested_load8 (a : U64) : Nested mmaps c b c b (load8 a) := nested_load 1 a
instance nested_load16 (a : U64) : Nested mmaps c b c b (load16 a) := nested_load 2 a
instance nested_load32 (a : U64) : Nested mmaps c b c b (load32 a) := nested_load 4 a
instance nested_load64 (a : U64) : Nested mmaps c b c b (load64 a) := nested_load 8 a

instance nested_cont (format : String) (args : List Arg) :
    Nested mmaps c b c b (panwrapLogCont format args) :=
  .of_event (fun _ => rfl) fun _ => rfl

instance nested_hexdump (data size : U64) : Nested mmaps c b c b (emit (.hexdump data size)) :=
  .of_event (fun _ => rfl) fun _ => rfl

instance nested_tracker : Nested mmaps c b c b tracker :=
  .of_quiet fun w => ⟨w.tracker, w, rfl, rfl, rfl, rfl⟩

instance nested_trimming : Nested mmaps c b c b enableHexdumpTrimming :=
  .of_quiet fun w => ⟨w.enableHexdumpTrimming, w, rfl, rfl, rfl, rfl⟩

/-- One more line, on the level of the indent. -/
instance nested_log (format : String) (args : List Arg) :
    Nested mmaps c b c true (panwrapLog format args) where
  ensures start base top := by
    intro w hw
    obtain ⟨ls, hls, hout, hbase, hnext⟩ := hw.lines
    have hlog := panwrapLog_logged (E := Ended mmaps start base top) format args w (Logged.self w)
    cases hr : panwrapLog format args w with
    | error h u =>
      rw [hr] at hlog
      exact hlog
    | ok a u =>
      rw [hr] at hlog
      have htracker : u.tracker = w.tracker := hlog.tracker
      have hindent : u.panwrapIndent = (base + c : ℕ) := hlog.indent.trans hw.indent
      refine ⟨by rw [htracker, hw.mmaps], hindent, ls ++ [(base + c, format, args)], ?_, ?_, ?_, ?_⟩
      · rw [hlog.lines, hls, hw.indent, indented_append, List.append_assoc]
        rfl
      · exact outline_append.mpr ⟨hout, by omega, trivial⟩
      · intro line hline
        rcases List.mem_append.mp hline with hline | hline
        · exact hbase line hline
        · rw [List.mem_singleton.mp hline]
          exact Nat.le_add_right base c
      · rw [nextTop_append]
        exact Nat.le_refl _

/-- One level deeper, below a line that has been printed. -/
instance nested_indentIncr : Nested mmaps c true (c+1) false panwrapIndentIncr where
  ensures start base top := by
    intro w hw
    obtain ⟨ls, hls, hrest⟩ := hw.lines
    refine ⟨hw.mmaps, ?_, ls, (logLines_emit rfl).trans hls, hrest⟩
    have hindent := hw.indent
    show w.panwrapIndent + 1 = _
    omega

instance nested_indentDecr : Nested mmaps (c+1) b c true panwrapIndentDecr where
  ensures start base top := by
    intro w hw
    obtain ⟨ls, hls, hout, hbase, hnext⟩ := hw.lines
    refine ⟨hw.mmaps, ?_, ls, (logLines_emit rfl).trans hls, hout, hbase, ?_⟩
    · have hindent := hw.indent
      show w.panwrapIndent - 1 = _
      omega
    · simp only [Bool.toNat_true]
      omega

instance tracked_none : Tracked mmaps none where
  mem_mmaps := by
    intro m h
    cases h

theorem tracked_findContaining (addr : U64) :
    Tracked mmaps (panwrapFindMappedGpuMemContaining mmaps addr) where
  mem_mmaps _ h := List.mem_of_find?_eq_some h

/-- A mapping that is looked up is a tracked one in all that follows. -/
theorem Nested.found {f : Option PanwrapMappedMemory → Wrap β} {addr : U64}
    (hf : ∀ mem, Tracked mmaps mem → Nested mmaps c b k e' (f mem)) :
    Nested mmaps c b k e' (findContaining addr >>= f) where
  ensures start base top := by
    have hfound : Tracked mmaps (panwrapFindMappedGpuMemContaining mmaps addr) :=
      tracked_findContaining addr
    apply Ensures.bind_eq (v := panwrapFindMappedGpuMemContaining mmaps addr)
      (Q := Below mmaps start base top c b)
    · intro w hw
      exact ⟨congrArg (panwrapFindMappedGpuMemContaining · addr) hw.mmaps, hw⟩
    · exact (hf _ hfound).ensures start base top

/-- A pointer that is followed, or the report. -/
instance nested_panwrapDerefGpuMem (mem : Option PanwrapMappedMemory) (gpuVa size : U64) (line : ℕ)
    (filename : String) [hmem : Tracked mmaps mem] :
    Nested mmaps c b c b (panwrapDerefGpuMem mem gpuVa size line filename) where
  ensures start base top := by
    intro w hw
    cases h : derefGpuMem w.tracker.mmaps mem gpuVa size with
    | some p =>
      rw [panwrapDerefGpuMem_some line filename h]
      exact hw
    | none =>
      obtain ⟨ls, hls, hout, hbase, -⟩ := hw.lines
      rw [panwrapDerefGpuMem_none line filename h, hw.mmaps]
      rw [hw.mmaps] at h
      apply (panwrapDerefMemErr_logged (usedMapping mmaps mem gpuVa) gpuVa size line
        filename).mono (fun _ _ h => h.elim) ?_ w (Logged.self w)
      rintro _ u ⟨rfl, hu⟩
      refine ⟨by decide, ls,
        accessReport (usedMapping mmaps mem gpuVa) gpuVa size line filename, ?_, hout,
        hbase, ?_⟩
      · rw [hu, hls, indented_append, List.append_assoc]
      · rw [if_pos rfl]
        exact ⟨mem, gpuVa, size, line, filename, hmem, h, rfl⟩

instance nested_countFrom (body : ℕ → Wrap Unit) [hb : ∀ i, Nested mmaps c false c e (body i)]
    (i n : ℕ) : Nested mmaps c b c false (countFrom body i n) := by
  apply Nested.of_false
  induction n generalizing i with
  | zero => exact nested_pure ()
  | succ n ih =>
    have hfirst : Nested mmaps c false c false (body i) := (hb i).drop
    exact Nested.seq fun _ => ih (i+1)

instance nested_forInt (n : ℕ) (body : ℕ → Wrap Unit)
    [hb : ∀ i, Nested mmaps c false c e (body i)] : Nested mmaps c b c false (forInt n body) :=
  nested_countFrom _ 0 n

instance nested_udiv (x y : U64) : Nested mmaps c b c false (udiv x y) := nested_ite

end Rules

end Panloader
