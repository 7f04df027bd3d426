import Panloader.PlainPrograms
import Panloader.ReportedErrors
import Panloader.DecoderOutcome

/-! How many bytes a hexdump prints. Trimming leaves the zeros at the end out, and an `int` counts
what is left. -/
namespace Panloader
open Effects

set_option synthInstance.maxSize 4000

/-- The last of the first `n` bytes at `d` that is not 0. -/
def lastSet (mem : Memory) (d : U64) : ℕ → Option ℕ
  | 0 => none
  | n+1 => if mem (d + BitVec.ofNat 64 n) ≠ 0 then some n else lastSet mem d n

/-- How many of the `size` bytes at `data` a dump prints: all of them where there are only
zeros. -/
def dumpedLength (trim : Bool) (mem : Memory) (data : U64) (size : ℕ) : ℕ :=
  if trim then ((lastSet mem data size).map (·+1)).getD size else size

/-- The dump's `int` can count them. A size above `2^63` is a negative offset for the trimming,
which then goes through all offsets below. -/
def Dumpable (trim : Bool) (mem : Memory) (data size : U64) : Prop :=
  (trim = true → size.toNat ≤ 2^63) ∧ dumpedLength trim mem data size.toNat ≤ intMax

instance (trim : Bool) (mem : Memory) (data size : U64) :
    Decidable (Dumpable trim mem data size) := by
  unfold Dumpable
  infer_instance

theorem Memory.read_byte (mem : Memory) (a : U64) : mem.read a 1 = mem a := by
  apply BitVec.eq_of_toNat_eq
  exact (BitVec.toNat_append 0#0 (mem a)).trans (by simp)

theorem lastSet_lt {mem : Memory} {d : U64} {n k : ℕ} (h : lastSet mem d n = some k) : k < n := by
  induction n with
  | zero => exact nomatch h
  | succ n ih =>
    unfold lastSet at h
    split_ifs at h with hbyte
    · have hk := Option.some.inj h
      omega
    · have hlt := ih h
      omega

/-- Behind the last byte that is not 0 there are zeros only. -/
theorem lastSet_zero {mem : Memory} {d : U64} {n i : ℕ}
    (hi : i < n) (hlast : ∀ k, lastSet mem d n = some k → k < i) :
    mem (d + BitVec.ofNat 64 i) = 0 := by
  induction n with
  | zero => exact absurd hi (by omega)
  | succ n ih =>
    unfold lastSet at hlast
    split_ifs at hlast with hbyte
    · have hn := hlast n rfl
      omega
    · rcases Nat.eq_or_lt_of_le (Nat.le_of_lt_succ hi) with rfl | hlt
      · exact not_not.mp hbyte
      · exact ih hlt hlast

section Trimming

/-- A state with the tracker `t` and the memory `mem`, in which the trimming is set to `trim`. -/
structure SeesTrim (t : Tracker) (mem : Memory) (trim : Bool) (w : World) : Prop
    extends Sees t mem w where
  trimming : w.enableHexdumpTrimming = trim

variable {α : Type} {t : Tracker} {mem : Memory} {trim : Bool}

theorem SeesTrim.self (w : World) : SeesTrim w.tracker w.mem w.enableHexdumpTrimming w :=
  ⟨Sees.self w, rfl⟩

theorem stable_trimming : Stable fun w => w.enableHexdumpTrimming = trim where
  emit _ _ _ h := h
  log format args := by
    intro w hw
    by_cases ht : w.time.enableTimestamps = true
    · rw [panwrapLog_stamped ht]
      by_cases hf : w.time.timeIsFrozen = true
      · rw [bind_ok (timestampGet_frozen hf)]
        exact hw
      · rw [bind_ok (timestampGet_running hf)]
        exact hw
    · rw [panwrapLog_plain ht]
      exact hw
  indent _ _ h := h
  tracker _ _ h := h

theorem ensures_seesTrim {m : Wrap α} [hm : Plain m] {Q : α → Prop} {E : Halt → Prop}
    (h : Ensures (Sees t mem) m (fun a w => Q a ∧ Sees t mem w) (fun h _ => E h)) :
    Ensures (SeesTrim t mem trim) m (fun a w => Q a ∧ SeesTrim t mem trim w) (fun h _ => E h) := by
  rintro w ⟨hw, htrim⟩
  have hend := h w hw
  have hkept := hm.ensures stable_trimming w htrim
  cases hr : m w with
  | ok a u =>
    rw [hr] at hend hkept
    exact ⟨hend.1, hend.2, hkept⟩
  | error e u =>
    rw [hr] at hend
    exact hend

instance total_seesTrim {m : Wrap α} [Plain m] [ht : Total (Sees t mem) m] :
    Total (SeesTrim t mem trim) m where
  ensures := by
    have hsees : Ensures (Sees t mem) m (fun _ w => True ∧ Sees t mem w) fun _ _ => False :=
      ht.ensures.mono (fun _ _ hw => ⟨trivial, hw⟩) fun _ _ h => h
    exact (ensures_seesTrim hsees).mono (fun _ _ hw => hw.2) fun _ _ h => h

theorem decides_seesTrim {m : Wrap α} [Plain m] {P : Prop} (h : Decides (Sees t mem) m P) :
    Decides (SeesTrim t mem trim) m P :=
  ensures_seesTrim (Q := fun _ => P) (E := fun _ => ¬P) h

end Trimming

section Hexdump

variable {t : Tracker} {mem : Memory} {trim : Bool} {data size : U64}

/-- The loop of a dump that is too long ends with its counter. -/
theorem hexdumpCells_overflow {i n : ℕ} (alpha : Gutter) (hi : i ≤ intMax) (hn : intMax < i + n) :
    Ensures (Sees t mem) (hexdumpCells data i n alpha) (fun _ _ => False)
      fun h _ => h = .intOverflow := by
  induction n generalizing i alpha with
  | zero => exact absurd hn (by omega)
  | succ n ih =>
    have hcell : Total (Sees t mem) (hexdumpCell data alpha i) := inferInstance
    apply (hcell.ensures.mono_error fun _ _ h => h.elim).bind
    intro alpha'
    by_cases hlast : i = intMax
    · -- there are more cells, and `i` cannot count them
      rw [if_pos hlast]
      exact fun _ _ => rfl
    · rw [if_neg hlast]
      exact ih alpha' (by omega) (by omega)

theorem panwrapLogHexdump_overflow (hsize : intMax < size.toNat) :
    Ensures (Sees t mem) (panwrapLogHexdump data size) (fun _ _ => False)
      fun h _ => h = .intOverflow := by
  have hcells : Ensures (Sees t mem) (hexdumpCells data 0 size.toNat fun _ => 0)
      (fun _ _ => False) fun h _ => h = .intOverflow :=
    hexdumpCells_overflow _ (Nat.zero_le _) (by omega)
  apply ((total_emit (.hexdump data size)).ensures.mono_error fun _ _ h => h.elim).bind
  intro _
  exact hcells.bind fun _ _ h => h.elim

theorem panwrapLogHexdump_decides :
    Decides (Sees t mem) (panwrapLogHexdump data size) (size.toNat ≤ intMax) := by
  by_cases hsize : size.toNat ≤ intMax
  · have htotal : Total (Sees t mem) (panwrapLogHexdump data size) :=
      total_panwrapLogHexdump data size hsize
    exact Decides.of_total.congr (iff_of_true trivial hsize)
  · have hstops : Ensures (Sees t mem) (panwrapLogHexdump data size) (fun _ _ => False)
        fun h _ => h = .intOverflow := panwrapLogHexdump_overflow (Nat.lt_of_not_le hsize)
    exact hstops.mono (fun _ _ h => h.elim) fun _ _ _ => hsize

/-- What the scan comes to from the last of `n` bytes. It leaves only its reads. -/
theorem trimScan_run {n room : ℕ} (hroom : n ≤ room) (w : World) :
    ∃ es, trimScan data room (n - 1) w =
        .ok (((lastSet w.mem data n).map Int.ofNat).getD (-1)) (w.emitAll es) ∧
      ∀ e ∈ es, ∃ a, e = .load a 1 := by
  induction n generalizing room w with
  | zero =>
    refine ⟨[], ?_, by simp⟩
    unfold trimScan
    rw [World.emitAll_nil]
    rfl
  | succ n ih =>
    obtain ⟨room, rfl⟩ : ∃ r, room = r+1 := ⟨room-1, by omega⟩
    have hlast : ((n+1 : ℕ) : ℤ) - 1 = n := by omega
    have haddr : BitVec.ofInt 64 n = BitVec.ofNat 64 n := BitVec.ofInt_natCast ..
    have hload : load8 (data + BitVec.ofNat 64 n) w = .ok (w.mem (data + BitVec.ofNat 64 n))
        (w.emit (.load (data + BitVec.ofNat 64 n) 1)) := by
      rw [← Memory.read_byte w.mem]
      rfl
    rw [hlast]
    unfold trimScan lastSet
    rw [if_neg (by omega), haddr, bind_ok hload]
    by_cases hbyte : w.mem (data + BitVec.ofNat 64 n) ≠ 0
    · refine ⟨[.load (data + BitVec.ofNat 64 n) 1], ?_, by simp⟩
      rw [if_pos hbyte, if_pos hbyte, World.emitAll_cons, World.emitAll_nil]
      rfl
    · have hbelow : n ≤ room := by omega
      obtain ⟨es, hrest, hreads⟩ := ih hbelow (w.emit (.load (data + BitVec.ofNat 64 n) 1))
      refine ⟨.load (data + BitVec.ofNat 64 n) 1 :: es, ?_, ?_⟩
      · rw [if_neg hbyte, if_neg hbyte, World.emitAll_cons]
        exact hrest
      · intro e he
        rcases List.mem_cons.mp he with rfl | he
        · exact ⟨_, rfl⟩
        · exact hreads e he

theorem trimScan_ensures {n room : ℕ} (hroom : n ≤ room) :
    Ensures (Sees t mem) (trimScan data room (n - 1))
      (fun r w => r = ((lastSet mem data n).map Int.ofNat).getD (-1) ∧ Sees t mem w)
      fun _ _ => False := by
  intro w hw
  obtain ⟨es, hrun, -⟩ : ∃ es, trimScan data room (n - 1) w = _ ∧ _ := trimScan_run hroom w
  rw [hrun, ← hw.mem]
  exact ⟨rfl, hw.tracker, rfl⟩

/-- It ends no higher than where it starts, or with its counter. -/
theorem trimScan_le {I : World → Prop} (hI : ∀ w e, I w → I (w.emit e)) (room : ℕ)
    (trimOffset : ℤ) :
    Ensures I (trimScan data room trimOffset) (fun r w => r ≤ trimOffset ∧ I w)
      fun h _ => h = .intOverflow := by
  have hread (a : U64) : Ensures I (load8 a) (fun _ => I) fun h _ => h = .intOverflow :=
    fun w hw => hI w _ hw
  have hhere (o : ℤ) : Ensures I (pure o : Wrap ℤ) (fun r w => r ≤ o ∧ I w)
      fun h _ => h = .intOverflow := fun _ hw => ⟨Int.le_refl o, hw⟩
  induction room generalizing trimOffset with
  | zero =>
    unfold trimScan
    dsimp only
    split_ifs with hstop
    · exact hhere _
    · apply (hread _).bind
      intro b
      split_ifs with hb
      · exact hhere _
      · exact fun _ _ => rfl
  | succ room ih =>
    unfold trimScan
    dsimp only
    split_ifs with hstop
    · exact hhere _
    · apply (hread _).bind
      intro b
      split_ifs with hb
      · exact hhere _
      · apply (ih (trimOffset-1)).mono
        · rintro r w ⟨hr, hw⟩
          exact ⟨by omega, hw⟩
        · intro h w hh
          exact hh

theorem toInt_pred (hsize : size.toNat ≤ 2^63) : (size - 1).toInt = (size.toNat : ℤ) - 1 := by
  have hone : (1 : U64).toNat = 1 := rfl
  rw [BitVec.toInt_eq_toNat_cond, BitVec.toNat_sub]
  split_ifs <;> omega

theorem toInt_pred_neg (hsize : ¬size.toNat ≤ 2^63) : (size - 1).toInt < 0 := by
  have hone : (1 : U64).toNat = 1 := rfl
  have hlt := size.isLt
  rw [BitVec.toInt_eq_toNat_cond, BitVec.toNat_sub]
  split_ifs <;> omega

/-- The body of the trimmed dump that has found where to end. -/
def dumpTo (data size : U64) (trimOffset : ℤ) : Wrap Unit :=
  if trimOffset < 0 then panwrapLogHexdump data size
  else do
    let trimSize := BitVec.ofInt 64 (trimOffset + 1)
    panwrapLogHexdump data trimSize
    panwrapLog "<0 repeating %zu times>\n" [.u64 (size - trimSize)]

theorem panwrapLogHexdumpTrimmed_eq (data size : U64) :
    panwrapLogHexdumpTrimmed data size = (enableHexdumpTrimming >>= fun trim =>
      if !trim then panwrapLogHexdump data size
      else trimScan data ((size - 1).toInt + 2^63).toNat (size - 1).toInt >>=
        dumpTo data size) := rfl

theorem dumpTo_decides (hsize : size.toNat ≤ 2^63) :
    Decides (Sees t mem)
      (dumpTo data size (((lastSet mem data size.toNat).map Int.ofNat).getD (-1)))
      (dumpedLength true mem data size.toNat ≤ intMax) := by
  unfold dumpTo dumpedLength
  rw [if_pos rfl]
  cases hlast : lastSet mem data size.toNat with
  | none =>
    -- zeros only, which are dumped whole
    exact panwrapLogHexdump_decides
  | some k =>
    have hk := lastSet_lt hlast
    have hnonneg : ¬((Option.map Int.ofNat (some k)).getD (-1) < 0) := by simp
    rw [if_neg hnonneg]
    have hlength : (BitVec.ofInt 64 (k + 1)).toNat = k + 1 := by
      rw [BitVec.toNat_ofInt]
      omega
    apply (panwrapLogHexdump_decides.bind fun _ => Decides.of_total).congr
    simp [hlength]

/-- From a negative offset nothing is dumped that an `int` could count. -/
theorem trimmed_overflow (hsize : ¬size.toNat ≤ 2^63) :
    Decides (Sees t mem)
      (trimScan data ((size - 1).toInt + 2^63).toNat (size - 1).toInt >>= dumpTo data size)
      False := by
  have hneg := toInt_pred_neg hsize
  have hmax : ¬size.toNat ≤ intMax := by
    unfold intMax
    omega
  have hscan : Ensures (Sees t mem)
      (trimScan data ((size - 1).toInt + 2^63).toNat (size - 1).toInt)
      (fun r w => r ≤ (size - 1).toInt ∧ Sees t mem w) fun h _ => h = .intOverflow :=
    trimScan_le (fun _ _ hw => ⟨hw.tracker, hw.mem⟩) _ _
  apply (hscan.mono_error fun _ _ _ => not_false).bind
  intro r
  apply Ensures.of_fact
  intro hr
  rw [dumpTo, if_pos (Int.lt_of_le_of_lt hr hneg)]
  exact panwrapLogHexdump_decides.congr (iff_false_intro hmax)

/-- Only its counters stop a dump. -/
theorem panwrapLogHexdump_stops : Ensures (Sees t mem) (panwrapLogHexdump data size)
    (fun _ => Sees t mem) fun h _ => h = .intOverflow := by
  by_cases hsize : size.toNat ≤ intMax
  · exact (total_panwrapLogHexdump data size hsize).ensures.mono_error fun _ _ h => h.elim
  · exact (panwrapLogHexdump_overflow (Nat.lt_of_not_le hsize)).mono (fun _ _ h => h.elim)
      fun _ _ h => h

theorem dumpTo_stops (trimOffset : ℤ) : Ensures (Sees t mem) (dumpTo data size trimOffset)
    (fun _ => Sees t mem) fun h _ => h = .intOverflow := by
  unfold dumpTo
  split_ifs
  · exact panwrapLogHexdump_stops
  · apply panwrapLogHexdump_stops.bind
    intro _
    exact (total_panwrapLog _ _).ensures.mono_error fun _ _ h => h.elim

theorem panwrapLogHexdumpTrimmed_stops : Ensures (Sees t mem) (panwrapLogHexdumpTrimmed data size)
    (fun _ => Sees t mem) fun h _ => h = .intOverflow := by
  rw [panwrapLogHexdumpTrimmed_eq]
  have hflag : Ensures (Sees t mem) enableHexdumpTrimming (fun _ => Sees t mem)
      fun h _ => h = .intOverflow := fun _ hw => hw
  apply hflag.bind
  intro trim
  cases trim with
  | false => exact panwrapLogHexdump_stops
  | true =>
    have hscan : Ensures (Sees t mem)
        (trimScan data ((size - 1).toInt + 2^63).toNat (size - 1).toInt)
        (fun r w => r ≤ (size - 1).toInt ∧ Sees t mem w) fun h _ => h = .intOverflow :=
      trimScan_le (fun _ _ hw => ⟨hw.tracker, hw.mem⟩) _ _
    exact (hscan.mono (fun _ _ h => h.2) fun _ _ h => h).bind dumpTo_stops

theorem panwrapLogHexdumpTrimmed_decides :
    Decides (SeesTrim t mem trim) (panwrapLogHexdumpTrimmed data size)
      (Dumpable trim mem data size) := by
  rw [panwrapLogHexdumpTrimmed_eq]
  have hflag : Ensures (SeesTrim t mem trim) enableHexdumpTrimming
      (fun v w => v = trim ∧ SeesTrim t mem trim w) fun _ _ => False :=
    fun _ hw => ⟨hw.trimming, hw⟩
  apply Decides.seq_value hflag
  unfold Dumpable
  cases trim with
  | false =>
    have hall : dumpedLength false mem data size.toNat = size.toNat := rfl
    rw [hall]
    apply (decides_seesTrim panwrapLogHexdump_decides).congr
    simp
  | true =>
    have hplain (o : ℤ) : Plain (dumpTo data size o) := by
      unfold dumpTo
      infer_instance
    apply decides_seesTrim
    by_cases hsize : size.toNat ≤ 2^63
    · have hroom : size.toNat ≤ ((size - 1).toInt + 2^63).toNat := by
        rw [toInt_pred hsize]
        omega
      have hscan : Ensures (Sees t mem)
          (trimScan data ((size - 1).toInt + 2^63).toNat (size.toNat - 1))
          (fun r w => r = ((lastSet mem data size.toNat).map Int.ofNat).getD (-1) ∧ Sees t mem w)
          fun _ _ => False := trimScan_ensures hroom
      rw [← toInt_pred hsize] at hscan
      apply (Decides.seq_value hscan (dumpTo_decides hsize)).congr
      exact (and_iff_right fun _ => hsize).symm
    · -- the scan starts from a negative offset
      apply (trimmed_overflow hsize).congr
      exact iff_of_false not_false fun h => hsize (h.1 rfl)

end Hexdump
end Panloader
