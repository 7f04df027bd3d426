import Mathlib.Algebra.Group.Nat.Defs
import Mathlib.Data.Nat.Notation

/-! Numbers in hexadecimal, padded to a width, and how they are read. -/
namespace HexText

/-- The value of a hexadecimal digit of either case. -/
def digitValue (c : Char) : ℕ :=
  if c.isDigit then c.toNat - 48 else if c.isLower then c.toNat - 87 else c.toNat - 55

def readHex (cs : List Char) : ℕ := cs.foldl (fun n c => 16*n + digitValue c) 0

theorem digitValue_digitChar : ∀ d < 16, digitValue (Nat.digitChar d) = d := by decide

theorem digitValue_toUpper : ∀ d < 16, digitValue (Nat.digitChar d).toUpper = d := by decide

theorem readHex_snoc (cs : List Char) (c : Char) :
    readHex (cs ++ [c]) = 16 * readHex cs + digitValue c := by
  simp only [readHex, List.foldl_append, List.foldl_cons, List.foldl_nil]

/-- The digits of a number, as they are or in another case. -/
theorem readHex_toDigits {f : Char → Char} (hf : ∀ d < 16, digitValue (f (Nat.digitChar d)) = d)
    (n : ℕ) : readHex ((Nat.toDigits 16 n).map f) = n := by
  induction n using Nat.strongRecOn with
  | ind n ih =>
    by_cases hn : n < 16
    · rw [Nat.toDigits_of_lt_base hn]
      have hdigit := readHex_snoc [] (f n.digitChar)
      rw [hf n hn] at hdigit
      simpa [readHex] using hdigit
    · have hlast := hf (n % 16) (by omega)
      rw [Nat.toDigits_of_base_le (by decide) (by omega), List.map_append, List.map_cons,
        List.map_nil, readHex_snoc, ih (n / 16) (by omega), hlast]
      omega

theorem mem_toDigits {c : Char} {n : ℕ} (h : c ∈ Nat.toDigits 16 n) :
    ∃ d < 16, c = Nat.digitChar d := by
  induction n using Nat.strongRecOn with
  | ind n ih =>
    by_cases hn : n < 16
    · rw [Nat.toDigits_of_lt_base hn, List.mem_singleton] at h
      exact ⟨n, hn, h⟩
    · rw [Nat.toDigits_of_base_le (by decide) (by omega), List.mem_append,
        List.mem_singleton] at h
      rcases h with hfront | hlast
      · exact ih (n / 16) (by omega) hfront
      · exact ⟨n % 16, Nat.mod_lt _ (by decide), hlast⟩

/-- Zeros in front do not count. -/
theorem readHex_leftpad (w : ℕ) (cs : List Char) : readHex (cs.leftpad w '0') = readHex cs := by
  unfold List.leftpad
  induction w - cs.length with
  | zero => rfl
  | succ k ih => rwa [List.replicate_succ, List.cons_append, readHex, List.foldl_cons]

theorem length_leftpad_toDigits {w n : ℕ} (hw : 0 < w) (hn : n < 16^w) :
    ((Nat.toDigits 16 n).leftpad w '0').length = w := by
  have hlength := (Nat.length_toDigits_le_iff (by decide) hw).mpr hn
  rw [List.length_leftpad]
  omega

theorem leftpad_byte {n : ℕ} (hn : n < 256) : (Nat.toDigits 16 n).leftpad 2 '0' =
    [Nat.digitChar (n / 16), Nat.digitChar (n % 16)] := by
  by_cases hsmall : n < 16
  · have hhigh : n / 16 = 0 := by omega
    have hlow : n % 16 = n := by omega
    rw [Nat.toDigits_of_lt_base hsmall, hhigh, hlow]
    rfl
  · rw [Nat.toDigits_of_base_le (by decide) (by omega), Nat.toDigits_of_lt_base (by omega)]
    rfl

end HexText
