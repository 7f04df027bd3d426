import Mathlib.Data.List.TakeWhile
import Panloader.HexdumpLength
import Panloader.HexText
import Panloader.PrintedText

/-! The text of a hexdump: rows of 16 cells with an offset in front and a gutter behind, and what
is read from it. -/
namespace Panloader
open Effects HexText

set_option synthInstance.maxSize 4000

def byteText (b : U8) : List Char :=
  [Nat.digitChar (b.toNat / 16), Nat.digitChar (b.toNat % 16)]

/-- Cell `j` of a row, with the space between columns. -/
def cellText (j : ℕ) (b : U8) : List Char :=
  (if j % hexdumpColLen = 0 then [' '] else []) ++ ' ' :: byteText b

def offsetText (k : ℕ) : List Char :=
  ((Nat.toDigits 16 (16*k)).map Char.toUpper).leftpad 8 '0'

/-- Row `k` as far as these cells. -/
def rowStart (k : ℕ) (cells : List U8) : List Char :=
  offsetText k ++ cells.zipIdx.flatMap fun c => cellText c.2 c.1

/-- A byte as the gutter has it: itself from the space to `~`, and `.` if it is not in that range
or not there. -/
def shownByte : Option U8 → U8
  | some b => if 0x20 ≤ b ∧ b ≤ 0x7e then b else dot
  | none => dot

def gutterChar (b : Option U8) : Char := Char.ofNat (shownByte b).toNat

def gutterText (cells : List U8) : List Char := (List.range 16).map fun j => gutterChar cells[j]?

def rowEnd (cells : List U8) : List Char := ' ' :: ' ' :: '|' :: (gutterText cells ++ ['|', '\n'])

/-- Row `k`. Cells that are missing leave three spaces each. -/
def rowText (k : ℕ) (cells : List U8) : List Char :=
  rowStart k cells ++ (List.replicate (3*(16 - cells.length)) ' ' ++ rowEnd cells)

/-- The first `r` bytes of row `k` of a dump. -/
def rowCells (mem : Memory) (data : U64) (k r : ℕ) : List U8 :=
  (List.range r).map fun j => mem (data + BitVec.ofNat 64 (16*k + j))

def fullRows (mem : Memory) (data : U64) (k : ℕ) : List (List Char) :=
  (List.range k).map fun k => rowText k (rowCells mem data k 16)

def dumpRows (mem : Memory) (data : U64) (n : ℕ) : List (List Char) :=
  (List.range ((n+15) / 16)).map fun k => rowText k (rowCells mem data k (min 16 (n - 16*k)))

/-- What has been printed before cell `i`. -/
def linesBefore (mem : Memory) (data : U64) (i : ℕ) : List (List Char) :=
  fullRows mem data (i / 16) ++
    if i % 16 = 0 then [] else [rowStart (i / 16) (rowCells mem data (i / 16) (i % 16))]

/-- The gutter before cell `i`. -/
def alphaBefore (mem : Memory) (data : U64) : ℕ → Gutter
  | 0 => fun _ => 0
  | i+1 => (alphaBefore mem data i).set (i % hexdumpRowLen)
      (shownByte (some (mem (data + BitVec.ofNat 64 i))))

section Printing

variable {t : Tracker} {mem : Memory} {data : U64} {cells : List U8}

theorem printf_offset {k : ℕ} (hk : 16*k ≤ intMax) :
    printf "%08X" [.u32 (BitVec.ofNat 32 (16*k))] = offsetText k := by
  have hsmall : (BitVec.ofNat 32 (16*k)).toNat = 16*k := by
    rw [BitVec.toNat_ofNat]
    unfold intMax at hk
    omega
  have hprint (v : U32) : printf "%08X" [.u32 v] =
      ((Nat.toDigits 16 v.toNat).map Char.toUpper).leftpad 8 '0' := by
    simp [printf, printfFrom, Conversion.render, Arg.number]
  rw [hprint, hsmall]
  rfl

theorem printf_byte (b : U8) : printf " %02x" [.int b.toNat] = ' ' :: byteText b := by
  have hprint : printf " %02x" [.int b.toNat] =
      ' ' :: (Nat.toDigits 16 b.toNat).leftpad 2 '0' := by
    simp [printf, printfFrom, Conversion.render, Arg.number]
  rw [hprint, leftpad_byte b.isLt]
  rfl

theorem printable_iff (b : U8) : printable b = true ↔ 0x20 ≤ b ∧ b ≤ 0x7e := by
  simp only [printable, Bool.and_eq_true, decide_eq_true_eq, BitVec.le_def, BitVec.lt_def]
  constructor
  · exact fun h => h.1
  · -- what is at most `~` is below the second bound
    exact fun h => ⟨h, h.2.trans_lt (by decide)⟩

/-- What is put into the gutter for a byte that is there. -/
theorem shownByte_some (b : U8) : shownByte (some b) = if printable b then b else dot := by
  simp only [shownByte, printable_iff]

theorem shownByte_ne_zero (b : Option U8) : shownByte b ≠ 0 := by
  cases b with
  | none => decide
  | some b =>
    rw [shownByte_some]
    split_ifs with hb
    · rintro rfl
      exact absurd hb (by decide)
    · decide

theorem printf_gutter {alpha : Gutter} (halpha : ∀ j < 16, alpha j = shownByte cells[j]?) :
    printf "  |%s|\n" [.bytes alpha.text] = rowEnd cells := by
  have hprint (b : List U8) : printf "  |%s|\n" [.bytes b] = ' ' :: ' ' :: '|' ::
      ((b.takeWhile (· ≠ 0)).map (fun c => Char.ofNat c.toNat) ++ ['|', '\n']) := by
    simp [printf, printfFrom, Conversion.render, Arg.string, List.leftpad]
  have htext : alpha.text = (List.range 16).map fun j => shownByte cells[j]? := by
    apply List.map_congr_left
    intro j hj
    exact halpha j (List.mem_range.mp hj)
  have hwhole : alpha.text.takeWhile (· ≠ 0) = alpha.text := by
    rw [htext, List.takeWhile_eq_self_iff]
    intro b hb
    obtain ⟨j, -, rfl⟩ := List.mem_map.mp hb
    exact decide_eq_true (shownByte_ne_zero _)
  rw [hprint, hwhole, htext, List.map_map]
  rfl

theorem rowCells_succ (k r : ℕ) : rowCells mem data k (r+1) =
    rowCells mem data k r ++ [mem (data + BitVec.ofNat 64 (16*k + r))] := by
  rw [rowCells, List.range_succ, List.map_append]
  rfl

@[simp] theorem length_rowCells (k r : ℕ) : (rowCells mem data k r).length = r := by
  simp [rowCells]

theorem rowCells_getElem? {k r j : ℕ} (hj : j < r) :
    (rowCells mem data k r)[j]? = some (mem (data + BitVec.ofNat 64 (16*k + j))) := by
  simp [rowCells, hj]

/-- The gutter has what the row has got so far. -/
theorem alphaBefore_row {k r j : ℕ} (hr : r ≤ 16) (hj : j < r) :
    alphaBefore mem data (16*k + r) j =
      shownByte (some (mem (data + BitVec.ofNat 64 (16*k + j)))) := by
  induction r with
  | zero => exact absurd hj (by omega)
  | succ r ih =>
    have hcolumn : (16*k + r) % hexdumpRowLen = r := by
      unfold hexdumpRowLen
      omega
    have hstep : alphaBefore mem data (16*k + (r+1)) j =
        if j = r then shownByte (some (mem (data + BitVec.ofNat 64 (16*k + r))))
        else alphaBefore mem data (16*k + r) j := by
      rw [← Nat.add_assoc, alphaBefore, hcolumn]
      rfl
    rw [hstep]
    by_cases hlast : j = r
    · rw [if_pos hlast, hlast]
    · rw [if_neg hlast]
      exact ih (by omega) (by omega)

theorem rowStart_snoc (k : ℕ) (cells : List U8) (b : U8) :
    rowStart k (cells ++ [b]) = rowStart k cells ++ cellText cells.length b := by
  simp [rowStart, List.zipIdx_append]

theorem fullRows_succ (k : ℕ) : fullRows mem data (k+1) =
    fullRows mem data k ++ [rowText k (rowCells mem data k 16)] := by
  rw [fullRows, List.range_succ, List.map_append]
  rfl

theorem linesBefore_row (k : ℕ) : linesBefore mem data (16*k) = fullRows mem data k := by
  have hdiv : 16*k / 16 = k := by omega
  have hmod : 16*k % 16 = 0 := by omega
  rw [linesBefore, hdiv, hmod, if_pos rfl, List.append_nil]

theorem linesBefore_cell {k r : ℕ} (hr : 0 < r) (hr' : r < 16) :
    linesBefore mem data (16*k + r) =
      fullRows mem data k ++ [rowStart k (rowCells mem data k r)] := by
  have hdiv : (16*k + r) / 16 = k := by omega
  have hmod : (16*k + r) % 16 = r := by omega
  rw [linesBefore, hdiv, hmod, if_neg (by omega)]

end Printing

section Cells

variable {t : Tracker} {mem : Memory} {data : U64}

theorem hexdumpByte_shows (i : ℕ) (rows : List (List Char)) (line : List Char) :
    Shows linesObserver t mem (rows ++ [line]) (hexdumpByte data (alphaBefore mem data i) i)
      (alphaBefore mem data (i+1))
      (rows ++ [line ++ ' ' :: byteText (mem (data + BitVec.ofNat 64 i))]) := by
  have hload : Shows linesObserver t mem (rows ++ [line]) (load8 (data + BitVec.ofNat 64 i))
      (mem (data + BitVec.ofNat 64 i)) (rows ++ [line]) := by
    rw [← Memory.read_byte mem]
    exact Shows.load 1 _
  rw [← printf_byte, ← appendLast_snoc, alphaBefore, shownByte_some]
  exact hload.bind ((Shows.cont _ _).bind (Shows.pure _))

/-- The gutter closes the row behind its last cell. -/
theorem linesBefore_close (k : ℕ) : linesBefore mem data (16*k + 16) =
    appendLast (fullRows mem data k ++ [rowStart k (rowCells mem data k 16)])
      (printf "  |%s|\n" [.bytes (alphaBefore mem data (16*k + 16)).text]) := by
  have hnext : 16*k + 16 = 16*(k+1) := by omega
  have halpha (j : ℕ) (hj : j < 16) : alphaBefore mem data (16*k + 16) j =
      shownByte (rowCells mem data k 16)[j]? := by
    rw [alphaBefore_row (Nat.le_refl _) hj, rowCells_getElem? hj]
  have hrow : rowText k (rowCells mem data k 16) =
      rowStart k (rowCells mem data k 16) ++ rowEnd (rowCells mem data k 16) := by
    simp [rowText]
  rw [printf_gutter halpha, appendLast_snoc, hnext, linesBefore_row, fullRows_succ, hrow]

theorem offset_shows {k r : ℕ} (hr : r < 16) (hint : 16*k + r ≤ intMax) :
    Shows linesObserver t mem (linesBefore mem data (16*k + r))
      (if r = 0 then panwrapLog "%08X" [.u32 (BitVec.ofNat 32 (16*k + r))] else pure ()) ()
      (fullRows mem data k ++ [rowStart k (rowCells mem data k r)]) := by
  by_cases hfirst : r = 0
  · -- the row before is complete, and this line is new
    subst hfirst
    have hrow : rowStart k (rowCells mem data k 0) = offsetText k := by
      simp [rowStart, rowCells]
    rw [if_pos rfl, hrow, ← printf_offset hint, Nat.add_zero, linesBefore_row]
    exact Shows.log "%08X" [.u32 (BitVec.ofNat 32 (16*k))]
  · rw [if_neg hfirst, linesBefore_cell (by omega) hr]
    exact Shows.pure ()

theorem columnSpace_shows (r : ℕ) (rows : List (List Char)) (line : List Char) :
    Shows linesObserver t mem (rows ++ [line])
      (if r % hexdumpColLen = 0 then panwrapLogCont " " [] else pure ()) ()
      (rows ++ [line ++ if r % hexdumpColLen = 0 then [' '] else []]) := by
  by_cases hcol : r % hexdumpColLen = 0
  · rw [if_pos hcol, if_pos hcol, ← appendLast_snoc]
    exact Shows.cont " " []
  · rw [if_neg hcol, if_neg hcol, List.append_nil]
    exact Shows.pure ()

theorem gutter_shows {k r : ℕ} (hr : r < 16) :
    Shows linesObserver t mem (fullRows mem data k ++ [rowStart k (rowCells mem data k (r+1))])
      (if r = hexdumpRowLen-1 then
        panwrapLogCont "  |%s|\n" [.bytes (alphaBefore mem data (16*k + (r+1))).text]
      else pure ()) () (linesBefore mem data (16*k + (r+1))) := by
  by_cases hlast : r = hexdumpRowLen-1
  · have hfull : r+1 = 16 := by
      unfold hexdumpRowLen at hlast
      omega
    rw [if_pos hlast, hfull, linesBefore_close]
    exact Shows.cont _ _
  · have hmore : r+1 < 16 := by
      unfold hexdumpRowLen at hlast
      omega
    rw [if_neg hlast, linesBefore_cell (Nat.succ_pos r) hmore]
    exact Shows.pure ()

theorem hexdumpCell_shows {k r : ℕ} (hr : r < 16) (hint : 16*k + r ≤ intMax)
    (hflat : ¬data + BitVec.ofNat 64 (16*k + r) < data) :
    Shows linesObserver t mem (linesBefore mem data (16*k + r))
      (hexdumpCell data (alphaBefore mem data (16*k + r)) (16*k + r))
      (alphaBefore mem data (16*k + (r+1))) (linesBefore mem data (16*k + (r+1))) := by
  have hcolumn : (16*k + r) % hexdumpRowLen = r := by
    unfold hexdumpRowLen
    omega
  have hgroup : (16*k + r) % hexdumpColLen = r % hexdumpColLen := by
    unfold hexdumpColLen
    omega
  unfold hexdumpCell
  rw [hcolumn, hgroup, if_neg hflat]
  have hbyte : Shows linesObserver t mem
      (fullRows mem data k ++ [rowStart k (rowCells mem data k r) ++
        if r % hexdumpColLen = 0 then [' '] else []])
      (hexdumpByte data (alphaBefore mem data (16*k + r)) (16*k + r))
      (alphaBefore mem data (16*k + (r+1)))
      (fullRows mem data k ++ [rowStart k (rowCells mem data k (r+1))]) := by
    rw [rowCells_succ, rowStart_snoc, length_rowCells, cellText, ← List.append_assoc]
    exact hexdumpByte_shows _ _ _
  apply (offset_shows hr hint).bind
  apply (columnSpace_shows r _ _).bind
  exact hbyte.bind ((gutter_shows hr).bind (Shows.pure _))

/-- The bytes are where an address does not wrap around. -/
theorem not_wrapped {i : ℕ} (hflat : data.toNat + i < 2^64) :
    ¬data + BitVec.ofNat 64 i < data := by
  have hsum : (data + BitVec.ofNat 64 i).toNat = data.toNat + i := by
    rw [BitVec.toNat_add, BitVec.toNat_ofNat]
    omega
  rw [BitVec.lt_def, hsum]
  omega

theorem hexdumpCells_shows {i n : ℕ} (hint : i + n ≤ intMax) (hflat : data.toNat + (i+n) ≤ 2^64) :
    Shows linesObserver t mem (linesBefore mem data i)
      (hexdumpCells data i n (alphaBefore mem data i)) (alphaBefore mem data (i+n))
      (linesBefore mem data (i+n)) := by
  induction n generalizing i with
  | zero => exact Shows.pure _
  | succ n ih =>
    -- cell `i` as a cell of a row
    have hplace : 16*(i/16) + i%16 = i := Nat.div_add_mod i 16
    have hend : i+1+n = i+(n+1) := by omega
    have hcell : Shows linesObserver t mem (linesBefore mem data (16*(i/16) + i%16))
        (hexdumpCell data (alphaBefore mem data (16*(i/16) + i%16)) (16*(i/16) + i%16))
        (alphaBefore mem data (16*(i/16) + i%16 + 1))
        (linesBefore mem data (16*(i/16) + i%16 + 1)) :=
      hexdumpCell_shows (Nat.mod_lt _ (by decide)) (by omega) (not_wrapped (by omega))
    rw [hplace] at hcell
    have hcount : Shows linesObserver t mem (linesBefore mem data (i+1))
        (if i = intMax then halt .intOverflow else pure ()) () (linesBefore mem data (i+1)) := by
      rw [if_neg (by omega)]
      exact Shows.pure ()
    have hrest := ih (i := i+1) (by omega) (by omega)
    rw [hend] at hrest
    exact hcell.bind (hcount.bind hrest)

/-- The columns that a last row leaves free. -/
theorem hexdumpPad_shows {i n : ℕ} {alpha : Gutter} {cells : List U8}
    (rows : List (List Char)) (line : List Char) (hn : 0 < n) (hrow : i + n = 16)
    (hcells : cells.length ≤ i) (halpha : ∀ j < i, alpha j = shownByte cells[j]?) :
    Shows linesObserver t mem (rows ++ [line]) (hexdumpPad i n alpha) ()
      (rows ++ [line ++ (List.replicate (3*n) ' ' ++ rowEnd cells)]) := by
  induction n generalizing i alpha line with
  | zero => exact absurd hn (by decide)
  | succ n ih =>
    have hset (j : ℕ) (hj : j < i+1) : alpha.set i dot j = shownByte cells[j]? := by
      rcases Nat.eq_or_lt_of_le (Nat.le_of_lt_succ hj) with rfl | hlt
      · rw [List.getElem?_eq_none hcells]
        exact if_pos rfl
      · rw [← halpha j hlt]
        exact if_neg (by omega)
    have hspaces : Shows linesObserver t mem (rows ++ [line]) (panwrapLogCont "   " []) ()
        (rows ++ [line ++ [' ', ' ', ' ']]) := by
      rw [← appendLast_snoc]
      exact Shows.cont "   " []
    have hmore : List.replicate (3*(n+1)) ' ' = [' ', ' ', ' '] ++ List.replicate (3*n) ' ' := by
      rw [Nat.mul_succ, Nat.add_comm, List.replicate_add]
      rfl
    rw [hmore, List.append_assoc, ← List.append_assoc]
    cases n with
    | zero =>
      -- column 15, behind which the gutter is
      have hgutter : Shows linesObserver t mem (rows ++ [line ++ [' ', ' ', ' ']])
          (if i = hexdumpRowLen-1 then
            panwrapLogCont "  |%s|\n" [.bytes (alpha.set i dot).text]
          else pure ()) () (rows ++ [line ++ [' ', ' ', ' '] ++ rowEnd cells]) := by
        have hi : i = hexdumpRowLen-1 := by
          unfold hexdumpRowLen
          omega
        have htext := printf_gutter (fun j (hj : j < 16) => hset j (by omega))
        rw [if_pos hi, ← htext, ← appendLast_snoc rows (line ++ [' ', ' ', ' '])]
        exact Shows.cont _ _
      exact hspaces.bind (hgutter.bind (Shows.pure ()))
    | succ n =>
      have hskip : Shows linesObserver t mem (rows ++ [line ++ [' ', ' ', ' ']])
          (if i = hexdumpRowLen-1 then
            panwrapLogCont "  |%s|\n" [.bytes (alpha.set i dot).text]
          else pure ()) () (rows ++ [line ++ [' ', ' ', ' ']]) := by
        have hi : ¬i = hexdumpRowLen-1 := by
          unfold hexdumpRowLen
          omega
        rw [if_neg hi]
        exact Shows.pure ()
      have hrest := ih (line ++ [' ', ' ', ' ']) (Nat.succ_pos n) (by omega) (by omega) hset
      exact hspaces.bind (hskip.bind hrest)

end Cells

section Dumps

variable {t : Tracker} {mem : Memory} {data size : U64}

theorem dumpRows_eq {k r : ℕ} (hr : r < 16) : dumpRows mem data (16*k + r) =
    fullRows mem data k ++ if r = 0 then [] else [rowText k (rowCells mem data k r)] := by
  have hfull (n : ℕ) (hn : 16*k ≤ n) :
      (List.range k).map (fun k => rowText k (rowCells mem data k (min 16 (n - 16*k)))) =
        fullRows mem data k := by
    apply List.map_congr_left
    intro j hj
    have hj := List.mem_range.mp hj
    have hcount : min 16 (n - 16*j) = 16 := by omega
    rw [hcount]
  rw [dumpRows]
  by_cases hzero : r = 0
  · have hrows : (16*k + r + 15) / 16 = k := by omega
    rw [if_pos hzero, hrows, hfull _ (by omega), List.append_nil]
  · have hrows : (16*k + r + 15) / 16 = k+1 := by omega
    have hcount : min 16 (16*k + r - 16*k) = r := by omega
    rw [if_neg hzero, hrows, List.range_succ, List.map_append, hfull _ (by omega), List.map_cons,
      hcount, List.map_nil]

theorem panwrapLogHexdump_shows (hsize : size.toNat ≤ intMax)
    (hflat : data.toNat + size.toNat ≤ 2^64) :
    Shows linesObserver t mem [] (panwrapLogHexdump data size) ()
      (dumpRows mem data size.toNat) := by
  have hplace : 16*(size.toNat/16) + size.toNat%16 = size.toNat := Nat.div_add_mod _ 16
  have hr : size.toNat % 16 < 16 := Nat.mod_lt _ (by decide)
  have hevent (w : World) :
      emit (.hexdump data size) w = .ok () (w.emitAll [.hexdump data size]) := rfl
  have hemit : Shows linesObserver t mem [] (emit (.hexdump data size)) () [] :=
    Shows.emits hevent
  have hcells : Shows linesObserver t mem [] (hexdumpCells data 0 size.toNat fun _ => 0)
      (alphaBefore mem data size.toNat) (linesBefore mem data size.toNat) := by
    have hall : Shows linesObserver t mem (linesBefore mem data 0)
        (hexdumpCells data 0 size.toNat (alphaBefore mem data 0))
        (alphaBefore mem data (0 + size.toNat)) (linesBefore mem data (0 + size.toNat)) :=
      hexdumpCells_shows (by omega) (by omega)
    rwa [Nat.zero_add] at hall
  have hrows : dumpRows mem data (16*(size.toNat/16) + size.toNat%16) = _ := dumpRows_eq hr
  rw [hplace] at hrows
  have hrowLen : hexdumpRowLen = 16 := rfl
  have hpad : Shows linesObserver t mem (linesBefore mem data size.toNat)
      (if size.toNat % hexdumpRowLen ≠ 0 then
        hexdumpPad (size.toNat % hexdumpRowLen) (hexdumpRowLen - size.toNat % hexdumpRowLen)
          (alphaBefore mem data size.toNat)
      else pure ()) () (dumpRows mem data size.toNat) := by
    rw [hrows, linesBefore, hrowLen]
    by_cases hzero : size.toNat % 16 = 0
    · -- the last row was closed with its last cell
      rw [if_neg (not_not.mpr hzero), if_pos hzero, if_pos hzero]
      exact Shows.pure ()
    · rw [if_pos hzero, if_neg hzero, if_neg hzero, rowText, length_rowCells]
      apply hexdumpPad_shows
      · exact Nat.sub_pos_of_lt hr
      · exact Nat.add_sub_cancel' (Nat.le_of_lt hr)
      · exact Nat.le_of_eq (length_rowCells _ _)
      · intro j hj
        have halpha : alphaBefore mem data (16*(size.toNat/16) + size.toNat%16) j =
            shownByte (some (mem (data + BitVec.ofNat 64 (16*(size.toNat/16) + j)))) :=
          alphaBefore_row (Nat.le_of_lt hr) hj
        rw [rowCells_getElem? hj, ← halpha, hplace]
  exact hemit.bind (hcells.bind hpad)

end Dumps
end Panloader
