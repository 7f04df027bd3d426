import Panloader.ArgumentBytes
import Panloader.Runs

/-! The lookup of an ioctl's name. The name stands in the line that announces the call, which is
the first one that the call prints, unless the lookup has already ended it. -/
namespace Panloader
open Effects

set_option synthInstance.maxSize 4000

def Appends (w w' : World) : Prop := ∃ es, w'.trace = w.trace ++ es

/-- Whatever its end, `m` only adds to the trace. -/
class Extends {α : Type} (m : Wrap α) : Prop where
  appends : Relates Appends m

section Extends

variable {α β : Type}

theorem Appends.trans {u v w : World} (huv : Appends u v) (hvw : Appends v w) : Appends u w := by
  obtain ⟨es, htrace⟩ := huv
  obtain ⟨es', htrace'⟩ := hvw
  exact ⟨es ++ es', by rw [htrace', htrace, List.append_assoc]⟩

theorem Extends.of_ok {m : Wrap α} (h : ∀ w, ∃ a w', m w = .ok a w' ∧ Appends w w') : Extends m :=
  ⟨Relates.of_ok h⟩

instance extends_plain {m : Wrap α} [hm : Plain m] : Extends m :=
  ⟨hm.grows.mono fun _ _ h => h.2⟩

instance extends_bind {m : Wrap α} {f : α → Wrap β} [hm : Extends m] [hf : ∀ a, Extends (f a)] :
    Extends (m >>= f) :=
  ⟨hm.appends.bind (fun a => (hf a).appends) (fun _ _ h => h) fun _ _ _ h h' => h.trans h'⟩

instance extends_setMem (mem : Memory) : Extends (setMem mem) :=
  .of_ok fun w => ⟨(), _, rfl, [], (List.append_nil w.trace).symm⟩

instance extends_unlock : Extends unlock :=
  .of_ok fun w => ⟨(), _, rfl, [], (List.append_nil w.trace).symm⟩

instance extends_orig (call : RealCall) (ret : α) : Extends (orig call ret) :=
  .of_ok fun _ => ⟨ret, _, rfl, [.real call], rfl⟩

instance extends_origIoctl (fd : ℤ) (request : U32) (ptr : U64) (env : IoctlEnv) :
    Extends (origIoctl fd request ptr env) := by
  unfold origIoctl
  infer_instance

/-- The clock is read where timestamps are enabled. -/
theorem panwrapFreezeTime_run (w : World) : ∃ w' clocks, panwrapFreezeTime w = .ok () w' ∧
    w'.trace = w.trace ++ clocks ∧ ∀ e ∈ clocks, ∃ now, e = .clock .freeze now := by
  by_cases ht : w.time.enableTimestamps = true
  · exact ⟨_, [.clock .freeze (w.clock w.ticks)], panwrapFreezeTime_enabled ht, rfl, by simp⟩
  · exact ⟨w, [], panwrapFreezeTime_disabled ht, (List.append_nil _).symm, by simp⟩

instance extends_panwrapFreezeTime : Extends panwrapFreezeTime :=
  .of_ok fun w => by
    obtain ⟨w', clocks, hr, htrace, -⟩ := panwrapFreezeTime_run w
    exact ⟨(), w', hr, clocks, htrace⟩

instance extends_panwrapUnfreezeTime : Extends panwrapUnfreezeTime :=
  .of_ok fun w => by
    by_cases ht : (!w.time.enableTimestamps || !w.time.timeIsFrozen) = true
    · exact ⟨(), w, panwrapUnfreezeTime_skipped ht, [], (List.append_nil _).symm⟩
    · exact ⟨(), _, panwrapUnfreezeTime_frozen ht, [.clock .unfreeze (w.clock w.ticks)], rfl⟩

end Extends

/-- The formats of the line that announces an ioctl; the name is the first argument. -/
def announceFormats : List String :=
  ["<%-20s> (%02d) (%08x), has no arguments? Cannot decode :(\n",
    "<%-20s> (%02d) (%08x) (%04d) (%03d)\n"]

def Event.announcedName : Event → Option Arg
  | .log _ _ format (name :: _) => if format ∈ announceFormats then some name else none
  | _ => none

/-- The name that a call has looked up, if it has announced itself. -/
def nameLookedUp (es : List Event) : Option Arg := es.findSome? Event.announcedName

/-- From `w` to `w'` the name `name` was looked up, or none. -/
def LookedUp (w : World) (name : Option Arg) (w' : World) : Prop :=
  ∃ es, w'.trace = w.trace ++ es ∧ nameLookedUp es = name

section Lookups

variable {w u v : World} {name : Arg}

theorem LookedUp.silent {es : List Event} (h : LookedUp w none u) (htrace : v.trace = u.trace ++ es)
    (hes : ∀ e ∈ es, e.announcedName = none) : LookedUp w none v := by
  obtain ⟨es', htrace', hnone⟩ := h
  refine ⟨es' ++ es, by rw [htrace, htrace', List.append_assoc], ?_⟩
  unfold nameLookedUp at hnone ⊢
  rw [List.findSome?_append, hnone]
  exact List.findSome?_eq_none_iff.mpr hes

theorem LookedUp.appends (h : LookedUp w (some name) u) (happ : Appends u v) :
    LookedUp w (some name) v := by
  obtain ⟨es, htrace, hname⟩ := h
  obtain ⟨es', htrace'⟩ := happ
  refine ⟨es ++ es', by rw [htrace', htrace, List.append_assoc], ?_⟩
  unfold nameLookedUp at hname ⊢
  rw [List.findSome?_append, hname]
  rfl

theorem Extends.keepsName {α : Type} {m : Wrap α} [hm : Extends m] :
    Ensures (LookedUp w (some name)) m (fun _ => LookedUp w (some name))
      (fun _ => LookedUp w (some name)) := by
  intro u hu
  exact (hm.appends u).mono (fun _ _ h => hu.appends h) (fun _ _ h => hu.appends h) u rfl

theorem announce_ensures {format : String} (hformat : format ∈ announceFormats) (args : List Arg) :
    Ensures (LookedUp w none) (panwrapLog format (name :: args))
      (fun _ => LookedUp w (some name)) (fun _ => LookedUp w (some name)) := by
  rintro u ⟨es, htrace, hnone⟩
  obtain ⟨v, stamp, clocks, hr, -, -, htrace', hclocks⟩ := panwrapLog_run format (name :: args) u
  rw [hr]
  refine ⟨es ++ (clocks ++ [.log stamp u.panwrapIndent format (name :: args)]), ?_, ?_⟩
  · rw [htrace', htrace, List.append_assoc]
  -- the clock may have been read for the stamp of the line
  have hclocksNone : clocks.findSome? Event.announcedName = none := by
    apply List.findSome?_eq_none_iff.mpr
    intro e he
    obtain ⟨now, rfl⟩ := hclocks e he
    rfl
  have hline : (Event.log stamp u.panwrapIndent format (name :: args)).announcedName = some name :=
    if_pos hformat
  unfold nameLookedUp at hnone ⊢
  rw [List.findSome?_append, hnone, List.findSome?_append, hclocksNone, Option.none_or,
    Option.none_or, List.findSome?_cons, hline]

end Lookups

section Calls

variable {w : World} (fd : ℤ) (request : U32) (arg : Option U64) (env : IoctlEnv)

theorem ioctlNoArguments_looksUp :
    Ensures (LookedUp w none) (ioctlNoArguments fd request env)
      (fun _ => LookedUp w (some (ioctlName (widenRequest request))))
      (fun _ => LookedUp w (some (ioctlName (widenRequest request)))) := by
  unfold ioctlNoArguments
  exact (announce_ensures (by decide) _).bind fun _ => Extends.keepsName

theorem ioctlDecoded_looksUp (ptr : U64) :
    Ensures (LookedUp w none) (ioctlDecoded fd request ptr env)
      (fun _ => LookedUp w (some (ioctlName (widenRequest request))))
      (fun _ => LookedUp w (some (ioctlName (widenRequest request)))) := by
  have hload : Ensures (LookedUp w none) (load32 ptr) (fun _ => LookedUp w none)
      (fun _ => LookedUp w (some (ioctlName (widenRequest request)))) := by
    intro u hu
    have htrace : (u.emit (.load ptr 4)).trace = u.trace ++ [.load ptr 4] := rfl
    exact hu.silent htrace (by simp [Event.announcedName])
  unfold ioctlDecoded
  apply hload.bind
  intro func
  exact (announce_ensures (by decide) _).bind fun _ => Extends.keepsName

theorem ioctlBody_looksUp (ptr : U64) :
    Ensures (LookedUp w none)
      (if ptr = 0 then ioctlNoArguments fd request env else ioctlDecoded fd request ptr env)
      (fun _ => LookedUp w (some (ioctlName (widenRequest request))))
      (fun _ => LookedUp w (some (ioctlName (widenRequest request)))) := by
  by_cases hp : ptr = 0
  · rw [if_pos hp]
    exact ioctlNoArguments_looksUp fd request env
  · rw [if_neg hp]
    exact ioctlDecoded_looksUp fd request env ptr

/-- The calls that look a name up: they are not forwarded at once, and they get the lock. -/
def LooksUp (w : World) (fd : ℤ) : Prop := w.locked = false ∧ OnDecodingPath w.maliFd fd

/-- A call has looked its name up: it has announced itself, or the lookup has ended it. -/
def NameSought (w : World) (m : Wrap ℤ) : Prop :=
  nameLookedUp (w.eventsOf m) ≠ none ∨ ∃ w', m w = .error .strayName w'

/-- A call that looks its name up comes to where it does, with nothing but the clock read. -/
theorem ioctl_comesToLookup (h : LooksUp w fd) : ∃ u : World, LookedUp w none u ∧
    Panloader.ioctl fd request arg env w = (do
      lookUpName request env
      let ret ← (if ioctlPtr request arg env.junk = 0 then ioctlNoArguments fd request env
        else ioctlDecoded fd request (ioctlPtr request arg env.junk) env)
      panwrapUnfreezeTime
      unlock
      pure ret : Wrap ℤ) u := by
  obtain ⟨hlocked, hpath⟩ := h
  let entered : World := { w with mem := env.before }
  have hset : setMem env.before w = .ok () entered := rfl
  have hmali : maliFd entered = .ok w.maliFd entered := rfl
  have hlock : lock entered = .ok () { entered with locked := true } :=
    if_neg (by simp [entered, hlocked])
  obtain ⟨u, clocks, hfreeze, htrace, hclocks⟩ :=
    panwrapFreezeTime_run { entered with locked := true }
  refine ⟨u, ⟨clocks, htrace, ?_⟩, ?_⟩
  · apply List.findSome?_eq_none_iff.mpr
    intro e he
    obtain ⟨now, rfl⟩ := hclocks e he
    rfl
  · unfold Panloader.ioctl
    rw [bind_ok hset, bind_ok hmali, if_neg hpath, bind_ok hlock, bind_ok hfreeze]

theorem ioctl_looksUp (h : LooksUp w fd) : NameSought w (Panloader.ioctl fd request arg env) := by
  obtain ⟨u, hu, hioctl⟩ := ioctl_comesToLookup fd request arg env h
  by_cases hname : Named request env
  · -- all that happens from here on leaves the announcement the first line
    have hrest : Ensures (LookedUp w none) (do
        let ret ← (if ioctlPtr request arg env.junk = 0 then ioctlNoArguments fd request env
          else ioctlDecoded fd request (ioctlPtr request arg env.junk) env)
        panwrapUnfreezeTime
        unlock
        pure ret) (fun _ => LookedUp w (some (ioctlName (widenRequest request))))
        (fun _ => LookedUp w (some (ioctlName (widenRequest request)))) :=
      (ioctlBody_looksUp fd request env _).bind fun _ => Extends.keepsName
    rw [lookUpName_named hname, pure_bind] at hioctl
    have hafter : LookedUp w (some (ioctlName (widenRequest request)))
        (w.after (Panloader.ioctl fd request arg env)) := by
      apply World.after_of_ensures
      rintro v rfl
      rw [hioctl]
      exact hrest u hu
    obtain ⟨es, htrace, hes⟩ := hafter
    left
    rw [World.eventsOf_eq htrace, hes]
    exact Option.some_ne_none _
  · have hstray : lookUpName request env u = .error .strayName u := by
      rw [lookUpName_stray hname]
      rfl
    rw [bind_error hstray] at hioctl
    exact .inr ⟨u, hioctl⟩

/-- Other calls are forwarded, or wait for the lock. -/
theorem ioctl_looksNothingUp (h : ¬LooksUp w fd) :
    ¬NameSought w (Panloader.ioctl fd request arg env) := by
  let entered : World := { w with mem := env.before }
  have hset : setMem env.before w = .ok () entered := rfl
  have hmali : maliFd entered = .ok w.maliFd entered := rfl
  have hend : Ensures (fun u => u = w) (Panloader.ioctl fd request arg env)
      (fun _ => LookedUp w none) (fun e u => LookedUp w none u ∧ e ≠ .strayName) := by
    rintro u rfl
    unfold Panloader.ioctl
    rw [bind_ok hset, bind_ok hmali]
    by_cases hpath : OnDecodingPath u.maliFd fd
    · have hlocked : u.locked = true := by
        by_contra hfree
        exact h ⟨Bool.eq_false_iff.mpr hfree, hpath⟩
      have hlock : lock entered = .error .deadlock entered := if_pos hlocked
      rw [if_neg hpath, bind_error hlock]
      exact ⟨⟨[], (List.append_nil u.trace).symm, rfl⟩, by decide⟩
    · rw [if_pos (not_not.mp hpath)]
      exact ⟨[.real (.ioctl fd request (ioctlPtr request arg env.junk))], rfl, rfl⟩
  rintro (hsome | ⟨w', hr⟩)
  · obtain ⟨es, htrace, hes⟩ :=
      World.after_of_ensures (hend.mono_error fun _ _ hu => hu.1)
    rw [World.eventsOf_eq htrace, hes] at hsome
    exact hsome rfl
  · have hstray := hend w rfl
    rw [hr] at hstray
    exact hstray.2 rfl

theorem nameSought_iff :
    NameSought w (Panloader.ioctl fd request arg env) ↔ LooksUp w fd := by
  by_cases h : LooksUp w fd
  · exact iff_of_true (ioctl_looksUp fd request arg env h) h
  · exact iff_of_false (ioctl_looksNothingUp fd request arg env h) h

end Calls

section Table

/-- The indices of the lookup lie inside `mali_info.info`. -/
def InTable (request : U64) : Prop :=
  iocType request - maliIoctlTypeBase < maliIoctlTypeCount ∧ iocNr request < ioctlInfoRowLength

theorem typeIndex_iff (type : U64) :
    type - maliIoctlTypeBase < maliIoctlTypeCount ↔ 0x80 ≤ type ∧ type ≤ 0x82 := by
  unfold maliIoctlTypeBase maliIoctlTypeCount
  constructor
  · intro h
    bv_omega
  · intro h
    bv_omega

/-- The row is as long as the largest number, so this number is outside. -/
theorem nrIndex_iff (request : U64) :
    iocNr request < ioctlInfoRowLength ↔ iocNr request ≠ 0xff := by
  have hlength : ioctlInfoRowLength = 0xff := by decide
  have hle : (iocNr request).toNat ≤ 0xff := by
    unfold iocNr
    rw [BitVec.toNat_and]
    exact Nat.and_le_right
  rw [hlength]
  constructor
  · intro h
    bv_omega
  · intro h
    bv_omega

/-- If a call looks its name up, the indices lie inside the table. -/
def LookupInTable (w : World) (fd : ℤ) (request : U32) (arg : Option U64) (env : IoctlEnv) : Prop :=
  NameSought w (Panloader.ioctl fd request arg env) → InTable (widenRequest request)

/-- The lookup stays inside the table exactly where a call is not decoded or its request has one
of the three types and a number other than the largest. -/
theorem ioctl_lookup_in_table_iff (w : World) (fd : ℤ) (request : U32) (arg : Option U64)
    (env : IoctlEnv) :
    LookupInTable w fd request arg env ↔
      (w.locked = false → OnDecodingPath w.maliFd fd →
        (0x80 ≤ iocType (widenRequest request) ∧ iocType (widenRequest request) ≤ 0x82) ∧
          iocNr (widenRequest request) ≠ 0xff) := by
  unfold LookupInTable
  rw [nameSought_iff, InTable, typeIndex_iff, nrIndex_iff, LooksUp, and_imp]

/-- `TCGETS` on descriptor 0, with no device open. -/
theorem tcgets_lookup_outside_table :
    ¬LookupInTable World.plain 0 0x5401 (some 0x1000) ⟨fun _ => 0, fun _ => 0, 0, 0, false⟩ := by
  intro h
  have hlooks : LooksUp World.plain 0 := ⟨rfl, by decide⟩
  have htable := h ((nameSought_iff 0 0x5401 _ _).mpr hlooks)
  exact absurd htable.1 (by decide)

end Table
end Panloader
