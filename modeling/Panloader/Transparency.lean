import Panloader.Runs

/-! What reaches the real functions: one call each, with the application's arguments, except
where the wrapper drops the argument of a request without a size field or the mode of an
`O_TMPFILE` open. -/
namespace Panloader

/-- The events of the execution that led from `w` to `w'`. -/
def newEvents (w w' : World) : List Event := w'.trace.drop w.trace.length

/-- `open` takes a mode: `O_CREAT` is set, or all bits of `O_TMPFILE` are. -/
def NeedsMode (flags : U32) : Prop := flags &&& oCreat ≠ 0 ∨ flags &&& oTmpfile = oTmpfile

instance (flags : U32) : Decidable (NeedsMode flags) := by
  unfold NeedsMode
  infer_instance

/-- The real function `real` got the arguments that the application passed. A third argument
of `ioctl` counts where one was passed. -/
def Call.SameArguments : Call → RealCall → Prop
  | .open symbol path flags mode _, real =>
    real = .open symbol path flags (if NeedsMode flags then some mode else none)
  | .close fd _, real => real = .close fd
  | .ioctl fd request arg _, real =>
    ∃ ptr, real = .ioctl fd request ptr ∧ ∀ a, arg = some a → ptr = a
  | .mmap symbol addr length prot flags fd offset _, real =>
    real = .mmap symbol addr length prot flags fd offset
  | .munmap addr length _, real => real = .munmap addr length

/-- The execution of `call` from `w` to `w'` called the real function once, with the
application's arguments, and `v` is what that function returned. -/
def Transparent (w : World) (call : Call) (v : Value) (w' : World) : Prop :=
  ∃ real, realCalls (newEvents w w') = [real] ∧ call.SameArguments real ∧ v = call.answer

/-- The arguments survive the way through the wrapper. -/
def Call.KeepsArguments : Call → Prop
  | .open _ _ flags _ _ => flags &&& oCreat ≠ 0 ∨ flags &&& oTmpfile ≠ oTmpfile
  | .ioctl _ request arg _ => iocSize (widenRequest request) ≠ 0 ∨ arg = none ∨ arg = some 0
  | _ => True

theorem Since.realCalls_newEvents {w w' : World} {calls : List RealCall} {top : ℕ}
    (h : Since w calls top w') : realCalls (newEvents w w') = calls := by
  obtain ⟨es, htrace, hcalls, -⟩ := h
  rw [newEvents, htrace, List.drop_left, hcalls]

theorem forwarded_open_iff (symbol : OpenSymbol) (path : String) (flags mode : U32) (ret : ℤ) :
    (Call.open symbol path flags mode ret).SameArguments
        (Call.open symbol path flags mode ret).forwarded ↔
      flags &&& oCreat ≠ 0 ∨ flags &&& oTmpfile ≠ oTmpfile := by
  simp only [Call.SameArguments, Call.forwarded, NeedsMode]
  by_cases hc : flags &&& oCreat ≠ 0
  · simp only [hc, not_false_eq_true, true_or, if_true, ne_eq]
  · -- without `O_CREAT` no mode is passed on, so none may be needed
    by_cases ht : flags &&& oTmpfile = oTmpfile <;> simp [ht]

theorem forwarded_ioctl_iff (fd : ℤ) (request : U32) (arg : Option U64) (env : IoctlEnv) :
    (Call.ioctl fd request arg env).SameArguments (Call.ioctl fd request arg env).forwarded ↔
      iocSize (widenRequest request) ≠ 0 ∨ arg = none ∨ arg = some 0 := by
  have hsame : (Call.ioctl fd request arg env).SameArguments
        (Call.ioctl fd request arg env).forwarded ↔
      ∀ a, arg = some a → ioctlPtr request arg env.junk = a := by
    constructor
    · rintro ⟨ptr, heq, hptr⟩
      have hp : ioctlPtr request arg env.junk = ptr := (RealCall.ioctl.inj heq).2.2
      exact hp ▸ hptr
    · exact fun h => ⟨_, rfl, h⟩
  rw [hsame]
  by_cases hs : iocSize (widenRequest request) ≠ 0
  · refine iff_of_true (fun a ha => ?_) (.inl hs)
    rw [ioctlPtr, if_pos hs, ha, Option.getD_some]
  · -- without a size field the real function gets `NULL`
    have hp : ioctlPtr request arg env.junk = 0 := if_neg hs
    rw [hp]
    cases arg with
    | none => exact iff_of_true (fun _ h => nomatch h) (.inr (.inl rfl))
    | some a =>
      constructor
      · exact fun h => .inr (.inr (congrArg some (h a rfl).symm))
      · rintro (h | h | h)
        · exact absurd h hs
        · exact nomatch h
        · exact fun b hb => Option.some.inj (h.symm.trans hb)

theorem Call.forwarded_iff (call : Call) :
    call.SameArguments call.forwarded ↔ call.KeepsArguments := by
  cases call with
  | «open» symbol path flags mode ret => exact forwarded_open_iff symbol path flags mode ret
  | close fd ret => exact iff_of_true rfl trivial
  | ioctl fd request arg env => exact forwarded_ioctl_iff fd request arg env
  | mmap symbol addr length prot flags fd offset ret => exact iff_of_true rfl trivial
  | munmap addr length ret => exact iff_of_true rfl trivial

/-- A call that returns was transparent exactly when its arguments survive. -/
theorem transparent_iff_keepsArguments {w w' : World} {call : Call} {v : Value}
    (h : call.exec w = .ok v w') : Transparent w call v w' ↔ call.KeepsArguments := by
  obtain ⟨hv, hat⟩ := Call.exec_ok h
  have hcalls : realCalls (newEvents w w') = [call.forwarded] := hat.since.realCalls_newEvents
  constructor
  · rintro ⟨real, hreal, hsame, -⟩
    -- there is one real call, and it is the one that was forwarded
    have heq : call.forwarded = real := List.singleton_inj.mp (hcalls.symm.trans hreal)
    exact call.forwarded_iff.mp (heq ▸ hsame)
  · intro hkeep
    exact ⟨call.forwarded, hcalls, call.forwarded_iff.mpr hkeep, hv⟩

/-- A file is created with mode 0600. -/
def createFile : Call := .open .open "/tmp/frames" 0x241 0x180 5

/-- The device is opened, a file is created, and the argument of an allocation reaches the
driver. -/
theorem transparent_iff_keepsArguments_create :
    ∃ steps w, Run (World.initial true true fun n => ⟨n, 0⟩) steps w ∧
      steps.map Step.call = [openMali, createFile, allocCookie] ∧
      ∀ s ∈ steps, Transparent s.before s.call s.value s.after := by
  have hreturn : ((World.initial true true fun n => ⟨n, 0⟩).runCalls
      [openMali, createFile, allocCookie]).map (fun r => r.1.length) = some 3 := by decide +kernel
  obtain ⟨⟨steps, w⟩, hsteps, -⟩ := Option.map_eq_some_iff.mp hreturn
  have hrun : Run (World.initial true true fun n => ⟨n, 0⟩) steps w := Run.append_calls .nil hsteps
  have hcalls := World.runCalls_calls hsteps
  have hopen : openMali.KeepsArguments := .inr (by decide)
  have hcreate : createFile.KeepsArguments := .inl (by decide)
  have halloc : allocCookie.KeepsArguments := .inl (by decide)
  refine ⟨steps, w, hrun, hcalls, fun s hs => ?_⟩
  have hkeep : s.call.KeepsArguments := by
    have hcall := List.mem_map_of_mem (f := Step.call) hs
    rw [hcalls] at hcall
    simp only [List.mem_cons, List.not_mem_nil, or_false] at hcall
    rcases hcall with hc | hc | hc
    · exact hc ▸ hopen
    · exact hc ▸ hcreate
    · exact hc ▸ halloc
  exact (transparent_iff_keepsArguments (hrun.exec_of_mem hs)).mpr hkeep

/-- `TCGETS` on a terminal is a request without a size field: the real function is called
with `NULL` for the argument 0x1000. -/
theorem tcgets_not_transparent :
    ¬∀ w call v w', Call.exec call w = .ok v w' → Transparent w call v w' := by
  intro h
  have hexec : Call.exec (.ioctl 5 0x5401 (some 0x1000) ⟨fun _ => 0, fun _ => 0, 0, 0, false⟩)
      (World.initial false true fun _ => ⟨0, 0⟩) = .ok _ _ := rfl
  obtain ⟨real, hreal, ⟨ptr, hptr, harg⟩, -⟩ := h _ _ _ _ hexec
  have hnull : [RealCall.ioctl 5 0x5401 0] = [real] := hreal
  rw [hptr, harg 0x1000 rfl] at hnull
  exact absurd hnull (by decide)

end Panloader
