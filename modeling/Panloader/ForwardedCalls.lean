import Mathlib.Data.List.Perm.Subperm
import Panloader.Interleavings
import Panloader.Transparency

/-! The real calls of a program with threads. Whether a call takes the mutex is decided by what
its thread saw of `mali_fd`, and the real call is made on that side of the mutex, once. -/
namespace Panloader
open Effects LockedSections

section Forwarding

theorem Call.outside_append_underLock (call : Call) :
    call.callsOutside ++ call.callsUnderLock = [call.forwarded] := by
  cases call <;> rfl

theorem Call.callsOutside_sublist (call : Call) : call.callsOutside.Sublist [call.forwarded] := by
  rw [← call.outside_append_underLock]
  exact List.sublist_append_left _ _

/-- The real calls of a thread that has entered `cs` and done `as` outside. -/
def realCallsOf (cs : List Call) (as : List RealCall) : List RealCall :=
  as ++ cs.flatMap Call.callsUnderLock

theorem realCallsOf_cons (call : Call) (cs : List Call) (as : List RealCall) :
    (realCallsOf (call :: cs) (call.callsOutside ++ as)).Perm
      (call.forwarded :: realCallsOf cs as) := by
  let under := cs.flatMap Call.callsUnderLock
  have hswap : (as ++ call.callsUnderLock).Perm (call.callsUnderLock ++ as) :=
    List.perm_append_comm
  calc realCallsOf (call :: cs) (call.callsOutside ++ as)
      = call.callsOutside ++ ((as ++ call.callsUnderLock) ++ under) := by
        simp only [realCallsOf, List.flatMap_cons, List.append_assoc, under]
    List.Perm _ (call.callsOutside ++ ((call.callsUnderLock ++ as) ++ under)) :=
        (hswap.append_right under).append_left _
    _ = (call.callsOutside ++ call.callsUnderLock) ++ (as ++ under) := by
        simp only [List.append_assoc]
    _ = call.forwarded :: realCallsOf cs as := by
        rw [call.outside_append_underLock]
        rfl

/-- At its end a thread has made the real calls of its calls. -/
theorem threadProgram_forwards {calls cs : List Call} {as : List RealCall}
    (h : (threadProgram calls).Goes cs as .finished) :
    as.Sublist (calls.map Call.forwarded) ∧
      (realCallsOf cs as).Perm (calls.map Call.forwarded) := by
  induction calls generalizing cs as with
  | nil =>
    cases h
    exact ⟨List.Sublist.refl _, .refl _⟩
  | cons call calls ih =>
    obtain ⟨cs', as', rfl, rfl, hrest⟩ | ⟨as', rfl, hrest⟩ := call.program_finishes _ cs as h
    -- with the mutex: the real call is before, under or after it
    · obtain ⟨horder, hperm⟩ := ih hrest
      exact ⟨call.callsOutside_sublist.append horder,
        (realCallsOf_cons call cs' as').trans (hperm.cons _)⟩
    · obtain ⟨horder, hperm⟩ := ih hrest
      exact ⟨horder.cons_cons _, hperm.cons _⟩

theorem Call.underLock_realCalls {call : Call} {w w' : World}
    (h : call.underLock w = .ok () w') :
    ∃ es, w'.trace = w.trace ++ es ∧ realCalls es = call.callsUnderLock := by
  obtain ⟨es, htrace, hcalls, -⟩ := ((Call.underLock_ensures w call).ok rfl h).since
  exact ⟨es, htrace, hcalls⟩

/-- Calls with the mutex, one after the other, make their real calls in that order. -/
theorem inTurn_realCalls {calls : List Call} {w w' : World}
    (h : inTurn Call.underLock calls w = .ok () w') :
    ∃ es, w'.trace = w.trace ++ es ∧ realCalls es = calls.flatMap Call.callsUnderLock := by
  induction calls generalizing w with
  | nil =>
    cases h
    exact ⟨[], (List.append_nil _).symm, rfl⟩
  | cons call calls ih =>
    obtain ⟨u, hcall, hrest⟩ := inTurn_cons h
    obtain ⟨es, hes, hfirst⟩ := Call.underLock_realCalls hcall
    obtain ⟨es', hes', hlater⟩ := ih hrest
    refine ⟨es ++ es', by rw [hes', hes, List.append_assoc], ?_⟩
    rw [List.flatMap_cons, ← hfirst, ← hlater]
    exact List.filterMap_append

end Forwarding

section Interleaved

variable {τ : Type} [DecidableEq τ] {w : World} {calls : τ → List Call}
  {m : Machine τ Halt World Call RealCall}

/-- No call is lost in a race and none is made twice. In every interleaving and for each thread,
the real calls it has made, without the mutex and with it, are among those of its own calls, each
as often as the thread makes it; those without the mutex are in the thread's order; and when the
thread has finished they are all. Those with the mutex are in the order in which it was taken. -/
theorem calls_forwarded_once (cut : Cut) (h : Reaches cut.steps (startThreads w calls) m) :
    (∀ t, (m.actedBy t).Sublist ((calls t).map Call.forwarded) ∧
      (realCallsOf (m.enteredBy t) (m.actedBy t)).Subperm ((calls t).map Call.forwarded) ∧
      (m.thread t = .outside .finished →
        (realCallsOf (m.enteredBy t) (m.actedBy t)).Perm ((calls t).map Call.forwarded))) ∧
    (m.stopped = none → m.holder = none →
      realCalls (newEvents w m.shared) =
        (m.entered.map Prod.snd).flatMap Call.callsUnderLock) := by
  constructor
  · intro t
    have hway := Reaches.onTheWay h t
    -- up to here, and from here to the end of the thread
    have hworld : Nonempty World := ⟨w⟩
    obtain ⟨cs, as, hrest⟩ := (m.thread t).left.exists_goes
    obtain ⟨horder, hperm⟩ := threadProgram_forwards (hway.trans hrest)
    have hsofar : (realCallsOf (m.enteredBy t) (m.actedBy t)).Sublist
        (realCallsOf (m.enteredBy t ++ cs) (m.actedBy t ++ as)) := by
      simp only [realCallsOf, List.flatMap_append]
      exact (List.sublist_append_left _ as).append (List.sublist_append_left _ _)
    refine ⟨(List.sublist_append_left _ as).trans horder, ?_, fun hfinished => ?_⟩
    · exact hsofar.subperm.trans hperm.subperm
    · rw [hfinished] at hway
      exact (threadProgram_forwards hway).2
  · intro hgo hfree
    have hturn := Reaches.inTurn_free h hgo hfree
    rw [cut.inTurn] at hturn
    obtain ⟨es, htrace, hcalls⟩ := inTurn_realCalls hturn
    rw [newEvents, htrace, List.drop_left]
    exact hcalls

/-- Two threads close the device, and both see it in `mali_fd`. The second one finds it cleared
when it has the mutex; the kernel is asked twice. -/
theorem calls_forwarded_once_closing_twice : ∃ m : Machine Bool Halt World Call RealCall,
    Reaches Cut.coarse.steps
      (startThreads { World.plain with maliFd := 3 } fun _ => [.close 3 0]) m ∧
    m.entered.map Prod.snd = [.close 3 0, .close 3 0] ∧ m.shared.trace.length = 1 ∧
      ∀ t, (realCallsOf (m.enteredBy t) (m.actedBy t)).Perm [.close 3] := by
  let start : Machine Bool Halt World Call RealCall :=
    startThreads { World.plain with maliFd := 3 } fun _ => [.close 3 0]
  have hfirst : Reaches Cut.coarse.steps start _ := .single (.peek true rfl rfl)
  have htested := hfirst.tail (.peek true rfl rfl)
  have hboth := (htested.tail (.peek false rfl rfl)).tail (.peek false rfl rfl)
  have hclosed := (hboth.tail (.enter true rfl rfl rfl)).tail (.inner true rfl rfl)
  have hleft := (hclosed.tail (.leave true rfl rfl)).tail (.act true rfl rfl)
  have hsecond := (hleft.tail (.enter false rfl rfl rfl)).tail (.inner false rfl rfl)
  have hdone := (hsecond.tail (.leave false rfl rfl)).tail (.act false rfl rfl)
  refine ⟨_, hdone, rfl, rfl, fun t => ?_⟩
  have hthread := (calls_forwarded_once Cut.coarse hdone).1 t
  apply hthread.2.2
  cases t <;> rfl

end Interleaved
end Panloader
