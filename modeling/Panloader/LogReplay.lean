import Panloader.LogForest

/-! The log as a record of the wrapper's state: the descriptor of the device and the table of
mappings can be read off the lines at its left margin. -/
namespace Panloader
open Effects LockedSections Outlines

/-- What the log shows of a mapping: its GPU address, its CPU address and its length. -/
abbrev ShownMapping := U64 × U64 × U64

def PanwrapMappedMemory.shown (m : PanwrapMappedMemory) : ShownMapping :=
  (m.gpuVa, m.addr, m.length)

structure Shown where
  maliFd : ℤ
  mmaps : List ShownMapping
deriving DecidableEq

def Stage.shown (st : Stage) : Shown where
  maliFd := st.maliFd
  mmaps := st.tracker.mmaps.map PanwrapMappedMemory.shown

/-- The newest mapping at `addr` is taken away. -/
def Shown.unmap (s : Shown) (addr : U64) : Shown :=
  { s with mmaps := s.mmaps.eraseP (·.2.1 == addr) }

/-- What a reader of the log makes of a line at the left margin. -/
def Shown.read (s : Shown) (line : Line) : Shown :=
  if line.1 = "/dev/mali0 fd == %d\n" then
    match line.2 with
    | [.int fd] => { s with maliFd := fd }
    | _ => s
  else if line.1 = "/dev/mali0 closed\n" then { s with maliFd := 0 }
  else if line.1 = "GPU VA 0x%lx mapped to %p - %p (length == %zu)\n" then
    match line.2 with
    | [.u64 gpuVa, .u64 addr, _, .u64 length] =>
      { s with mmaps := (gpuVa, addr, length) :: s.mmaps }
    | _ => s
  else if line.1 = "Unmapped GPU memory 0x%lx@%p\n" then
    match line.2 with
    | [_, .u64 addr] => s.unmap addr
    | _ => s
  else if line.1 = "Unmapped unknown memory %p\n" then
    match line.2 with
    | [.u64 addr] => s.unmap addr
    | _ => s
  else s

def Shown.replay (s : Shown) (lines : List Line) : Shown := lines.foldl Shown.read s

section Lines

variable (s : Shown)

@[simp] theorem Shown.replay_nil : s.replay [] = s := rfl

theorem Shown.replay_append (lines lines' : List Line) :
    s.replay (lines ++ lines') = (s.replay lines).replay lines' :=
  List.foldl_append

theorem Shown.read_other {format : String} {args : List Arg} (h : format ∉
    ["/dev/mali0 fd == %d\n", "/dev/mali0 closed\n",
      "GPU VA 0x%lx mapped to %p - %p (length == %zu)\n", "Unmapped GPU memory 0x%lx@%p\n",
      "Unmapped unknown memory %p\n"]) : s.read (format, args) = s := by
  simp only [List.mem_cons, List.not_mem_nil, or_false, not_or] at h
  obtain ⟨hopened, hclosed, hmapped, hunmapped, hunknown⟩ := h
  rw [Shown.read, if_neg hopened, if_neg hclosed, if_neg hmapped, if_neg hunmapped, if_neg hunknown]

theorem Shown.read_ioctl (request : U32) (ptr : U64) (mem : Memory) :
    s.read (ioctlHeadline request ptr mem) = s := by
  unfold ioctlHeadline
  split_ifs
  · exact s.read_other (by decide)
  · exact s.read_other (by decide)

end Lines

section Replay

variable {st : Stage}

/-- Taking the first mapping at an address out of the table takes it out of what is shown. -/
theorem shown_delMapping (t : Tracker) (addr : U64) :
    (t.delMapping addr).mmaps.map PanwrapMappedMemory.shown =
      (t.mmaps.map PanwrapMappedMemory.shown).eraseP (·.2.1 == addr) := by
  rw [Tracker.delMapping, List.eraseP_map]
  rfl

theorem replay_mmapHeadlines (gpuVa addr length : U64) (prot : U32) :
    st.shown.replay (mmapHeadlines st.tracker gpuVa addr length prot) =
      Stage.shown { st with tracker := st.tracker.apply (.map gpuVa addr length prot) } := by
  rw [mmapHeadlines, Tracker.apply]
  cases st.tracker.pendingAllocation gpuVa with
  | none =>
    simp only [Shown.replay, List.foldl_cons, List.foldl_nil]
    rw [Shown.read_other, Shown.read_other, Shown.read_other] <;> decide
  | some mem => rfl

theorem replay_munmapHeadlines (addr : U64) :
    st.shown.replay (munmapHeadlines (panwrapFindMappedMem st.tracker.mmaps addr)) =
      Stage.shown { st with tracker := st.tracker.delMapping addr } := by
  have hdel : Stage.shown { st with tracker := st.tracker.delMapping addr } =
      st.shown.unmap addr := by
    rw [Stage.shown, shown_delMapping]
    rfl
  rw [hdel]
  cases hfind : panwrapFindMappedMem st.tracker.mmaps addr with
  | none =>
    -- what is not in the table cannot be taken out of it
    have hnone : st.shown.mmaps.eraseP (·.2.1 == addr) = st.shown.mmaps := by
      apply List.eraseP_of_forall_not
      intro shown hshown
      obtain ⟨m, hm, rfl⟩ := List.mem_map.mp hshown
      exact List.find?_eq_none.mp hfind m hm
    rw [munmapHeadlines, Shown.replay_nil, Shown.unmap, hnone]
  | some mem =>
    obtain ⟨-, rfl⟩ := panwrapFindMappedMem_some hfind
    rw [munmapHeadlines]
    split_ifs
    · rfl
    · rfl

theorem applyOption_lockedEvent_ioctl (t : Tracker) (fd : ℤ) (request : U32) (arg : Option U64)
    (env : IoctlEnv) :
    (t.applyOption (Call.ioctl fd request arg env).lockedEvent).mmaps = t.mmaps := by
  rw [Call.lockedEvent]
  split_ifs
  · rfl
  · rfl

/-- The headlines of a call say what it has done to the state. -/
theorem Call.replay_headlines (call : Call) (st : Stage) :
    st.shown.replay (call.headlines st) = (call.stageUnderLock st).shown := by
  cases call with
  | «open» symbol path flags mode ret =>
    rw [Call.headlines, Call.stageUnderLock]
    by_cases hret : ret = -1
    · simp [hret, Stage.shown]
    · by_cases hmali : path = "/dev/mali0"
      · simp [hret, hmali, Shown.replay, Shown.read, Stage.shown]
      · have hkeep : ¬(ret ≠ -1 ∧ path = "/dev/mali0") := fun h => hmali h.2
        rw [if_neg hret, if_neg hmali, if_neg hkeep]
        split_ifs
        · rw [Shown.replay, List.foldl_cons, List.foldl_nil]
          exact Shown.read_other _ (by decide)
        · rfl
  | close fd ret =>
    rw [Call.headlines, Call.stageUnderLock]
    split_ifs
    · rfl
    · rfl
  | ioctl fd request arg env =>
    rw [Call.headlines, Shown.replay, List.foldl_cons, List.foldl_nil, Shown.read_ioctl,
      Call.stageUnderLock, Stage.shown, Stage.shown, applyOption_lockedEvent_ioctl]
  | mmap symbol addr length prot flags fd offset ret =>
    exact replay_mmapHeadlines offset ret length prot
  | munmap addr length ret => exact replay_munmapHeadlines addr

theorem replay_headlines (calls : List Call) (st : Stage) :
    st.shown.replay (headlines st calls) = (calls.foldl Call.stageUnderLock st).shown := by
  induction calls generalizing st with
  | nil => rfl
  | cons call calls ih =>
    rw [headlines, Shown.replay_append, call.replay_headlines, ih, List.foldl_cons]

theorem inTurn_stage {calls : List Call} {w w' : World}
    (h : inTurn Call.underLock calls w = .ok () w') :
    w'.stage = calls.foldl (fun st call => call.stageUnderLock st) w.stage := by
  induction calls generalizing w with
  | nil =>
    cases h
    rfl
  | cons call calls ih =>
    obtain ⟨u, hcall, hrest⟩ := inTurn_cons h
    rw [ih hrest, List.foldl_cons, Call.stage_underLock hcall]

variable {τ : Type} [DecidableEq τ] {calls : τ → List Call} {m : Machine τ Halt World Call RealCall}

/-- However the calls of any number of threads are interleaved: whenever the mutex is free, reading
the lines at the left margin of the log, from its start, gives the descriptor of the device and the
table of mappings as the wrapper has them, up to what is not printed of a mapping. -/
theorem log_shows_state (timestamps trimming : Bool) (clock : ℕ → Timespec) (cut : Cut)
    (h : Reaches cut.steps (startThreads (World.initial timestamps trimming clock) calls) m)
    (hgo : m.stopped = none) (hfree : m.holder = none) :
    ∃ f : Forest Line, logLines m.shared.trace = indented (f.lines 0) ∧
      Shown.replay ⟨0, []⟩ f.roots =
        ⟨m.shared.maliFd, m.shared.tracker.mmaps.map PanwrapMappedMemory.shown⟩ := by
  have hturn := Reaches.inTurn_free h hgo hfree
  rw [cut.inTurn] at hturn
  obtain ⟨f, hf, hroots⟩ := inTurn_grown (World.initial_atRest _ _ _) hturn
  refine ⟨f, hf, ?_⟩
  rw [hroots]
  have hreplay := replay_headlines (m.entered.map Prod.snd)
    (World.initial timestamps trimming clock).stage
  rw [← inTurn_stage hturn] at hreplay
  exact hreplay

theorem log_shows_state_two_threads : ∃ m : Machine Bool Halt World Call RealCall,
    Reaches Cut.coarse.steps (startThreads World.plain openAndUnmap) m ∧
    ∃ f : Forest Line, logLines m.shared.trace = indented (f.lines 0) ∧
      Shown.replay ⟨0, []⟩ f.roots =
        ⟨m.shared.maliFd, m.shared.tracker.mmaps.map PanwrapMappedMemory.shown⟩ := by
  obtain ⟨m, hreach, hgo, hfree, -⟩ := openAndUnmap_reaches
  exact ⟨m, hreach, log_shows_state false true (fun _ => ⟨0, 0⟩) Cut.coarse hreach hgo hfree⟩

end Replay

end Panloader
