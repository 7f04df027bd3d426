import Panloader.Observers

/-! The text of log lines. `printf` has the conversions that dumps of memory use; the stamp and
the indent at the start of a line are left out. -/
namespace Panloader
open Effects

/-- A conversion, as far as it has been read. -/
structure Conversion where
  zero : Bool
  width : ℕ

def Arg.number : Arg → ℕ
  | .int n => n.toNat
  | .u32 v => v.toNat
  | .u64 v => v.toNat
  | _ => 0

/-- What `%s` prints: bytes end at the first 0. -/
def Arg.string : Arg → List Char
  | .str s => s.toList
  | .bytes b => (b.takeWhile (· ≠ 0)).map fun c => Char.ofNat c.toNat
  | _ => []

/-- `%x`, `%X`, `%u` and `%s` -/
def Conversion.render (k : Conversion) (letter : Char) (arg : Arg) : List Char :=
  List.leftpad k.width (if k.zero then '0' else ' ')
    (if letter = 'x' then Nat.toDigits 16 arg.number
    else if letter = 'X' then (Nat.toDigits 16 arg.number).map Char.toUpper
    else if letter = 'u' then Nat.toDigits 10 arg.number
    else arg.string)

/-- The rest of a format, inside a conversion or not. -/
def printfFrom : Option Conversion → List Char → List Arg → List Char
  | _, [], _ => []
  | none, c :: cs, args =>
    if c = '%' then printfFrom (some ⟨false, 0⟩) cs args else c :: printfFrom none cs args
  | some k, c :: cs, args =>
    if c = '0' ∧ k.width = 0 then printfFrom (some { k with zero := true }) cs args
    else if c.isDigit then
      printfFrom (some { k with width := 10 * k.width + (c.toNat - 48) }) cs args
    -- the length of the argument is known
    else if c = 'l' ∨ c = 'z' then printfFrom (some k) cs args
    else match args with
      | [] => printfFrom none cs []
      | arg :: args => k.render c arg ++ printfFrom none cs args

def printf (format : String) (args : List Arg) : List Char := printfFrom none format.toList args

def appendLast (lines : List (List Char)) (text : List Char) : List (List Char) :=
  lines.dropLast ++ [lines.getLastD [] ++ text]

@[simp] theorem appendLast_snoc (lines : List (List Char)) (line text : List Char) :
    appendLast (lines ++ [line]) text = lines ++ [line ++ text] := by
  simp [appendLast]

def linesObserver : Observer (List (List Char)) where
  line lines format args := lines ++ [printf format args]
  cont lines format args := appendLast lines (printf format args)
  load lines _ _ := lines

/-- The lines that a call prints. -/
def World.printedLines {α : Type} (w : World) (m : Wrap α) : List (List Char) :=
  (w.eventsOf m).foldl linesObserver.step []

end Panloader
