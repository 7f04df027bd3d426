import Panloader.HexdumpText
import Panloader.Runs

/-! Reading a hexdump: the cells of its rows and the zeros that its last line counts are the bytes
that were dumped. -/
namespace Panloader
open Effects HexText

set_option synthInstance.maxSize 4000

/-- The cells up to the gutter. -/
def readCells : List Char → List U8
  | ' ' :: cs => readCells cs
  | '|' :: _ => []
  | high :: low :: cs => BitVec.ofNat 8 (readHex [high, low]) :: readCells cs
  | _ => []

/-- A row has eight digits of offset. -/
def readRow (line : List Char) : List U8 := readCells (line.drop 8)

/-- The number in `<0 repeating N times>`. -/
def readRepeat (line : List Char) : ℕ :=
  Nat.ofDigitChars 10 ((line.drop 13).takeWhile Char.isDigit) 0

def readLine (line : List Char) : List U8 :=
  if line.head? = some '<' then List.replicate (readRepeat line) 0 else readRow line

def readDump (lines : List (List Char)) : List U8 := lines.flatMap readLine

def bufferBytes (mem : Memory) (data : U64) (n : ℕ) : List U8 :=
  (List.range n).map fun i => mem (data + BitVec.ofNat 64 i)

def repeatLine (n : ℕ) : List Char :=
  "<0 repeating ".toList ++ (Nat.toDigits 10 n ++ " times>\n".toList)

/-- Row `k` of a dump of these bytes that has `rows` rows. -/
structure RowShows (bytes : List U8) (rows k : ℕ) (row : List Char) : Prop where
  offset : readHex (row.take 8) = 16*k
  cells : k+1 < rows → (readRow row).length = 16
  gutter : ∃ front gutter, row = front ++ '|' :: (gutter ++ ['|', '\n']) ∧ gutter.length = 16 ∧
    ∀ j < 16, gutter[j]? = some (gutterChar bytes[16*k + j]?)

structure Lossless (lines : List (List Char)) (bytes : List U8) : Prop where
  recovered : readDump lines = bytes
  form : ∃ rows last, lines = rows ++ last ∧ (last = [] ∨ ∃ n, last = [repeatLine n]) ∧
    ∀ k row, rows[k]? = some row → RowShows bytes rows.length k row

section Rows

variable {mem : Memory} {data : U64} {cells : List U8} {k : ℕ}

theorem readCells_space (cs : List Char) : readCells (' ' :: cs) = readCells cs := rfl

theorem readCells_spaces (n : ℕ) (cs : List Char) :
    readCells (List.replicate n ' ' ++ cs) = readCells cs := by
  induction n with
  | zero => rfl
  | succ n ih => rwa [List.replicate_succ, List.cons_append, readCells_space]

theorem digitChar_cell : ∀ d < 16, Nat.digitChar d ≠ ' ' ∧ Nat.digitChar d ≠ '|' := by decide

theorem readCells_byteText (b : U8) (cs : List Char) :
    readCells (byteText b ++ cs) = b :: readCells cs := by
  have hb := b.isLt
  have hhigh : b.toNat / 16 < 16 := by omega
  have hlow : b.toNat % 16 < 16 := Nat.mod_lt _ (by decide)
  obtain ⟨hspace, hbar⟩ := digitChar_cell _ hhigh
  have hread : readHex [Nat.digitChar (b.toNat / 16), Nat.digitChar (b.toNat % 16)] = b.toNat := by
    simp only [readHex, List.foldl_cons, List.foldl_nil, digitValue_digitChar _ hhigh,
      digitValue_digitChar _ hlow]
    omega
  have hcell : readCells (byteText b ++ cs) =
      BitVec.ofNat 8 (readHex (byteText b)) :: readCells cs := by
    simp only [byteText, List.cons_append, List.nil_append, readCells]
  rw [hcell, byteText, hread, BitVec.ofNat_toNat, BitVec.setWidth_eq]

theorem readCells_cellText (j : ℕ) (b : U8) (cs : List Char) :
    readCells (cellText j b ++ cs) = b :: readCells cs := by
  unfold cellText
  split_ifs
  · exact readCells_byteText b cs
  · exact readCells_byteText b cs

theorem readCells_cells (n : ℕ) (cs : List Char) :
    readCells ((cells.zipIdx n).flatMap (fun c => cellText c.2 c.1) ++ cs) =
      cells ++ readCells cs := by
  induction cells generalizing n with
  | nil => rfl
  | cons b cells ih =>
    rw [List.zipIdx_cons, List.flatMap_cons, List.append_assoc, readCells_cellText, ih]
    rfl

theorem length_offsetText (hk : 16*k < 16^8) : (offsetText k).length = 8 := by
  have hdigits := length_leftpad_toDigits (by decide : 0 < 8) hk
  rw [List.length_leftpad] at hdigits
  rwa [offsetText, List.length_leftpad, List.length_map]

theorem readHex_offsetText : readHex (offsetText k) = 16*k := by
  rw [offsetText, readHex_leftpad, readHex_toDigits digitValue_toUpper]

/-- A row is what is left behind its offset. -/
theorem rowText_eq : rowText k cells = offsetText k ++
    (cells.zipIdx.flatMap (fun c => cellText c.2 c.1) ++
      (List.replicate (3*(16 - cells.length)) ' ' ++ rowEnd cells)) := by
  rw [rowText, rowStart, List.append_assoc]

theorem readRow_rowText (hk : 16*k < 16^8) : readRow (rowText k cells) = cells := by
  have hend : readCells (rowEnd cells) = [] := rfl
  rw [readRow, rowText_eq, List.drop_left' (length_offsetText hk), readCells_cells,
    readCells_spaces, hend, List.append_nil]

theorem offsetText_take (hk : 16*k < 16^8) : (rowText k cells).take 8 = offsetText k := by
  rw [rowText_eq, List.take_left' (length_offsetText hk)]

theorem digitChar_toUpper_ne : ∀ d < 16, (Nat.digitChar d).toUpper ≠ '<' := by decide

/-- The line of the zeros is the only one that starts with `<`. -/
theorem readLine_rowText (hk : 16*k < 16^8) : readLine (rowText k cells) = cells := by
  have hdigit : ∀ c ∈ offsetText k, c ≠ '<' := by
    intro c hc
    rw [offsetText, List.leftpad, List.mem_append, List.mem_map] at hc
    rcases hc with hzero | ⟨d, hd, rfl⟩
    · rw [List.eq_of_mem_replicate hzero]
      decide
    · obtain ⟨n, hn, rfl⟩ := mem_toDigits hd
      exact digitChar_toUpper_ne n hn
  have hhead : (rowText k cells).head? ≠ some '<' := by
    cases hoffset : offsetText k with
    | nil =>
      have hlength := length_offsetText hk
      rw [hoffset] at hlength
      exact absurd hlength (by decide)
    | cons c cs =>
      rw [rowText_eq, hoffset, List.cons_append, List.head?_cons]
      intro hc
      exact hdigit c (hoffset ▸ List.mem_cons_self) (Option.some.inj hc)
  rw [readLine, if_neg hhead, readRow_rowText hk]

theorem readLine_repeatLine (n : ℕ) : readLine (repeatLine n) = List.replicate n 0 := by
  have hdrop : (repeatLine n).drop 13 = Nat.toDigits 10 n ++ " times>\n".toList :=
    List.drop_left' rfl
  have hdigits : ∀ c ∈ Nat.toDigits 10 n, c.isDigit = true := fun c hc =>
    Nat.isDigit_of_mem_toDigits (by decide) (by decide) hc
  have hread : readRepeat (repeatLine n) = n := by
    rw [readRepeat, hdrop, List.takeWhile_append_of_pos hdigits]
    have hrest : " times>\n".toList.takeWhile Char.isDigit = [] := by decide
    rw [hrest, List.append_nil, Nat.ofDigitChars_ten_toDigits]
  have hhead : (repeatLine n).head? = some '<' := rfl
  rw [readLine, if_pos hhead, hread]

end Rows

section Buffers

variable {mem : Memory} {data size : U64} {n m k : ℕ}

theorem bufferBytes_add (m r : ℕ) : bufferBytes mem data (m + r) =
    bufferBytes mem data m ++
      (List.range r).map fun j => mem (data + BitVec.ofNat 64 (m + j)) := by
  rw [bufferBytes, List.range_add, List.map_append, List.map_map]
  rfl

theorem bufferBytes_getElem? (i : ℕ) : (bufferBytes mem data n)[i]? =
    if i < n then some (mem (data + BitVec.ofNat 64 i)) else none := by
  rw [bufferBytes, List.getElem?_map]
  split_ifs with hi
  · rw [List.getElem?_range hi, Option.map_some]
  · rw [List.getElem?_eq_none (by rw [List.length_range]; omega), Option.map_none]

theorem bufferBytes_trimmed (hn : n ≤ m)
    (hzero : ∀ i, n ≤ i → i < m → mem (data + BitVec.ofNat 64 i) = 0) :
    bufferBytes mem data m = bufferBytes mem data n ++ List.replicate (m - n) 0 := by
  have hsplit : bufferBytes mem data (n + (m - n)) = _ := bufferBytes_add n (m - n)
  rw [Nat.add_sub_cancel' hn] at hsplit
  rw [hsplit, List.append_cancel_left_eq, List.eq_replicate_iff]
  constructor
  · rw [List.length_map, List.length_range]
  · intro b hb
    obtain ⟨j, hj, rfl⟩ := List.mem_map.mp hb
    have hj := List.mem_range.mp hj
    exact hzero (n + j) (by omega) (by omega)

/-- The first `m` rows of `n` bytes. -/
theorem rows_read (hm : 16*m < 16^8 + 16) :
    ((List.range m).map fun k => rowText k (rowCells mem data k (min 16 (n - 16*k)))).flatMap
      readLine = bufferBytes mem data (min n (16*m)) := by
  induction m with
  | zero => rw [Nat.mul_zero, Nat.min_zero]; rfl
  | succ m ih =>
    rw [List.range_succ, List.map_append, List.flatMap_append, ih (by omega), List.map_singleton,
      List.flatMap_singleton, readLine_rowText (by omega)]
    by_cases hn : n ≤ 16*m
    · -- the rows before have all the bytes
      have hcount : min 16 (n - 16*m) = 0 := by omega
      have hleft : min n (16*m) = n := by omega
      have hright : min n (16*(m+1)) = n := by omega
      rw [hcount, hleft, hright]
      exact List.append_nil _
    · have hleft : min n (16*m) = 16*m := by omega
      have hright : min n (16*(m+1)) = 16*m + min 16 (n - 16*m) := by omega
      rw [hleft, hright, bufferBytes_add]
      rfl

theorem dumpRows_read (hn : n ≤ intMax) :
    (dumpRows mem data n).flatMap readLine = bufferBytes mem data n := by
  unfold intMax at hn
  have hall : min n (16*((n+15) / 16)) = n := by omega
  rw [dumpRows, rows_read (by omega), hall]

theorem rowText_gutter (cells : List U8) :
    ∃ front, rowText k cells = front ++ '|' :: (gutterText cells ++ ['|', '\n']) := by
  refine ⟨rowStart k cells ++ (List.replicate (3*(16 - cells.length)) ' ' ++ [' ', ' ']), ?_⟩
  simp [rowText, rowEnd]

/-- A row shows the bytes of the buffer, and has nothing to show where the buffer has a 0 or
nothing. -/
theorem rowText_shows {rows : ℕ} (hn : n ≤ m)
    (hzero : ∀ i, n ≤ i → i < m → mem (data + BitVec.ofNat 64 i) = 0) (hk : 16*k < 16^8)
    (hrows : rows = (n+15) / 16) :
    RowShows (bufferBytes mem data m) rows k
      (rowText k (rowCells mem data k (min 16 (n - 16*k)))) where
  offset := by
    rw [offsetText_take hk, readHex_offsetText]
  cells := by
    intro hlast
    rw [readRow_rowText hk, length_rowCells]
    omega
  gutter := by
    obtain ⟨front, hfront⟩ := rowText_gutter (k := k) (rowCells mem data k (min 16 (n - 16*k)))
    refine ⟨front, _, hfront, ?_, ?_⟩
    · rw [gutterText, List.length_map, List.length_range]
    · intro j hj
      have hshown : gutterChar (rowCells mem data k (min 16 (n - 16*k)))[j]? =
          gutterChar (bufferBytes mem data m)[16*k + j]? := by
        rw [bufferBytes_getElem?]
        by_cases hcell : j < min 16 (n - 16*k)
        · rw [rowCells_getElem? hcell, if_pos (by omega)]
        · have hnone : (rowCells mem data k (min 16 (n - 16*k)))[j]? = none :=
            List.getElem?_eq_none (by rw [length_rowCells]; omega)
          rw [hnone]
          split_ifs with hthere
          · -- a byte that was trimmed
            rw [hzero (16*k + j) (by omega) hthere]
            rfl
          · rfl
      rw [gutterText, List.getElem?_map, List.getElem?_range hj, Option.map_some, hshown]

theorem lossless_rows {last : List (List Char)} (hn : n ≤ m) (hmax : n ≤ intMax)
    (hzero : ∀ i, n ≤ i → i < m → mem (data + BitVec.ofNat 64 i) = 0)
    (hlast : last = [] ∧ n = m ∨ last = [repeatLine (m - n)]) :
    Lossless (dumpRows mem data n ++ last) (bufferBytes mem data m) where
  recovered := by
    rw [readDump, List.flatMap_append, dumpRows_read hmax, bufferBytes_trimmed hn hzero]
    rcases hlast with ⟨rfl, rfl⟩ | rfl
    · rw [Nat.sub_self]
      rfl
    · rw [List.flatMap_singleton, readLine_repeatLine]
  form := by
    refine ⟨dumpRows mem data n, last, rfl, ?_, ?_⟩
    · rcases hlast with ⟨h, -⟩ | h
      · exact Or.inl h
      · exact Or.inr ⟨_, h⟩
    · intro k row hrow
      have hcount : (dumpRows mem data n).length = (n+15) / 16 := by
        rw [dumpRows, List.length_map, List.length_range]
      have hk : k < (n+15) / 16 := by
        rw [← hcount]
        exact (List.getElem?_eq_some_iff.mp hrow).1
      unfold intMax at hmax
      rw [hcount]
      rw [dumpRows, List.getElem?_map, List.getElem?_range hk, Option.map_some] at hrow
      obtain rfl := Option.some.inj hrow
      exact rowText_shows hn hzero (by omega) rfl

end Buffers

section Trimmed

variable {t : Tracker} {mem : Memory} {data size : U64} {s : List (List Char)}

/-- The scan for the last byte that is not 0 prints nothing. -/
theorem trimScan_shows {n room : ℕ} (hroom : n ≤ room) :
    Shows linesObserver t mem s (trimScan data room (n - 1))
      (((lastSet mem data n).map Int.ofNat).getD (-1)) s := by
  intro w a w' hw hr
  obtain ⟨es, hrun, hreads⟩ := trimScan_run hroom w
  obtain ⟨rfl, rfl⟩ := EStateM.Result.ok.inj (hrun.symm.trans hr)
  refine ⟨by rw [hw.mem], ⟨hw.tracker, hw.mem⟩, es, rfl, Observer.foldl_ignored ?_⟩
  intro e he
  obtain ⟨addr, rfl⟩ := hreads e he
  rfl

theorem printf_repeat (v : U64) :
    printf "<0 repeating %zu times>\n" [.u64 v] = repeatLine v.toNat := by
  have hprint : printf "<0 repeating %zu times>\n" [.u64 v] =
      "<0 repeating ".toList ++ (Nat.toDigits 10 v.toNat ++ " times>\n".toList) := by
    simp [printf, printfFrom, Conversion.render, Arg.number, List.leftpad]
  exact hprint

/-- What the dump prints that has found where to end. -/
theorem dumpTo_shows (hsize : size.toNat ≤ intMax) (hflat : data.toNat + size.toNat ≤ 2^64) :
    ∃ lines, Shows linesObserver t mem []
        (dumpTo data size (((lastSet mem data size.toNat).map Int.ofNat).getD (-1))) () lines ∧
      Lossless lines (bufferBytes mem data size.toNat) := by
  unfold dumpTo
  cases hlast : lastSet mem data size.toNat with
  | none =>
    -- zeros only, and they are all in the rows
    refine ⟨dumpRows mem data size.toNat ++ [], ?_, ?_⟩
    · rw [List.append_nil]
      exact panwrapLogHexdump_shows hsize hflat
    · exact lossless_rows (Nat.le_refl _) hsize (by omega) (Or.inl ⟨rfl, rfl⟩)
  | some k =>
    -- the rows end with byte `k`
    have hk := lastSet_lt hlast
    have hlength : (BitVec.ofInt 64 (k + 1)).toNat = k + 1 := by
      rw [BitVec.toNat_ofInt]
      omega
    have hleft : (size - BitVec.ofInt 64 (k + 1)).toNat = size.toNat - (k + 1) := by
      rw [BitVec.toNat_sub, hlength]
      omega
    have hrows : Shows linesObserver t mem [] (panwrapLogHexdump data (BitVec.ofInt 64 (k + 1))) ()
        (dumpRows mem data (k + 1)) := by
      rw [← hlength]
      exact panwrapLogHexdump_shows (by omega) (by omega)
    have hnonneg : ¬((Option.map Int.ofNat (some k)).getD (-1) < 0) := by simp
    rw [if_neg hnonneg]
    refine ⟨_, hrows.bind (Shows.log _ _), ?_⟩
    have hzero (i : ℕ) (hi : k + 1 ≤ i) (hi' : i < size.toNat) :
        mem (data + BitVec.ofNat 64 i) = 0 := by
      apply lastSet_zero hi'
      intro j hj
      obtain rfl := Option.some.inj (hlast.symm.trans hj)
      exact hi
    have hrepeat : printf "<0 repeating %zu times>\n" [.u64 (size - BitVec.ofInt 64 (k + 1))] =
        repeatLine (size.toNat - (k + 1)) := by
      rw [printf_repeat, hleft]
    show Lossless (dumpRows mem data (k + 1) ++ [printf _ _]) _
    rw [Option.map_some, Option.getD_some, Int.ofNat_eq_natCast, hrepeat]
    exact lossless_rows hk (by omega) hzero (Or.inr rfl)

theorem trimmed_shows {w w' : World} (hsize : size.toNat ≤ intMax)
    (hflat : data.toNat + size.toNat ≤ 2^64)
    (hr : panwrapLogHexdumpTrimmed data size w = .ok () w') :
    ∃ es, w'.trace = w.trace ++ es ∧
      Lossless (es.foldl linesObserver.step []) (bufferBytes w.mem data size.toNat) := by
  rw [panwrapLogHexdumpTrimmed_eq] at hr
  have hflag : enableHexdumpTrimming w = .ok w.enableHexdumpTrimming w := rfl
  rw [bind_ok hflag] at hr
  cases htrim : w.enableHexdumpTrimming with
  | false =>
    rw [htrim] at hr
    obtain ⟨-, -, es, htrace, hlines⟩ :=
      panwrapLogHexdump_shows hsize hflat w () w' (Sees.self w) hr
    refine ⟨es, htrace, ?_⟩
    rw [hlines, ← List.append_nil (dumpRows _ _ _)]
    exact lossless_rows (Nat.le_refl _) hsize (by omega) (Or.inl ⟨rfl, rfl⟩)
  | true =>
    rw [htrim] at hr
    unfold intMax at hsize
    have hroom : size.toNat ≤ ((size - 1).toInt + 2^63).toNat := by
      rw [toInt_pred (by omega)]
      omega
    have hscan : Shows linesObserver w.tracker w.mem []
        (trimScan data ((size - 1).toInt + 2^63).toNat (size.toNat - 1))
        (((lastSet w.mem data size.toNat).map Int.ofNat).getD (-1)) [] := trimScan_shows hroom
    rw [← toInt_pred (by omega)] at hscan
    obtain ⟨lines, hdump, hlossless⟩ := dumpTo_shows hsize hflat
    obtain ⟨-, -, es, htrace, rfl⟩ := (hscan.bind hdump) w () w' (Sees.self w) hr
    exact ⟨es, htrace, hlossless⟩

theorem dumpable_of_size {trim : Bool} (hsize : size.toNat ≤ intMax) :
    Dumpable trim mem data size := by
  constructor
  · intro _
    unfold intMax at hsize
    omega
  · unfold dumpedLength
    split_ifs
    · cases hlast : lastSet mem data size.toNat with
      | none => exact hsize
      | some k => exact Nat.le_trans (lastSet_lt hlast) hsize
    · exact hsize

/-- With or without trimming, a hexdump has the bytes of the buffer. -/
theorem hexdump_lossless (w : World) (data size : U64) (hsize : size.toNat ≤ intMax)
    (hflat : data.toNat + size.toNat ≤ 2^64) :
    Lossless (w.printedLines (panwrapLogHexdumpTrimmed data size))
      (bufferBytes w.mem data size.toNat) := by
  have hreturns : Ensures (SeesTrim w.tracker w.mem w.enableHexdumpTrimming)
      (panwrapLogHexdumpTrimmed data size) _ _ := panwrapLogHexdumpTrimmed_decides
  have hend := hreturns w (SeesTrim.self w)
  cases hr : panwrapLogHexdumpTrimmed data size w with
  | error e w' =>
    rw [hr] at hend
    exact absurd (dumpable_of_size hsize) hend
  | ok a w' =>
    obtain ⟨es, htrace, hlossless⟩ := trimmed_shows hsize hflat hr
    have hevents : w.eventsOf (panwrapLogHexdumpTrimmed data size) = es := by
      apply World.eventsOf_eq
      rw [World.after, hr]
      exact htrace
    rw [World.printedLines, hevents]
    exact hlossless

/-- One byte that is not 0, and the trimming on. -/
def oneByte : World :=
  { World.plain with mem := fun a => if a = 0x10000 then 0x41 else 0 }

theorem hexdump_lossless_oneByte :
    Lossless (oneByte.printedLines (panwrapLogHexdumpTrimmed 0x10000 0x1000))
      (bufferBytes oneByte.mem 0x10000 0x1000) :=
  hexdump_lossless oneByte 0x10000 0x1000 (by decide) (by decide)

end Trimmed
end Panloader
