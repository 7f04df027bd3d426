import Mathlib.Data.List.Basic
import Mathlib.Data.List.TakeWhile
import Mathlib.Tactic.SplitIfs

/-! Indented lines and the trees they stand for. Lines in which none is more than one level deeper
than the line before it are the same as forests. -/
namespace Outlines

variable {α : Type}

/-- A line, the forest below it, and the forest after it. -/
inductive Forest (α : Type)
  | nil
  | cons (a : α) (below after : Forest α)

def Forest.append : Forest α → Forest α → Forest α
  | .nil, g => g
  | .cons a below after, g => .cons a below (after.append g)

/-- The lines that are below no other. -/
def Forest.roots : Forest α → List α
  | .nil => []
  | .cons a _ after => a :: after.roots

/-- The lines of a forest from level `d` on, each below the one it belongs to. -/
def Forest.lines (d : ℕ) : Forest α → List (ℕ × α)
  | .nil => []
  | .cons a below after => (d, a) :: (below.lines (d+1) ++ after.lines d)

/-- The first line is no deeper than `top`, and none is more than one level deeper than the line
before it. -/
def Outline : ℕ → List (ℕ × α) → Prop
  | _, [] => True
  | top, (d, _) :: ls => d ≤ top ∧ Outline (d+1) ls

/-- How deep a line may be that comes after these. -/
def nextTop : ℕ → List (ℕ × α) → ℕ
  | top, [] => top
  | _, (d, _) :: ls => nextTop (d+1) ls

/-- The forest at level `l`: of the lines up to the first one that is less deep. Deeper ones at the
start belong to a line before these. -/
def parse : List (ℕ × α) → ℕ → Forest α
  | [], _ => .nil
  | (d, a) :: ls, l =>
    if l < d then parse ls l
    else if l = d then .cons a (parse ls (d+1)) (parse ls d)
    else .nil

section Levels

variable {top top' : ℕ} {ls ls' : List (ℕ × α)}

theorem Outline.mono (h : Outline top ls) (htop : top ≤ top') : Outline top' ls := by
  cases ls with
  | nil => trivial
  | cons line ls => exact ⟨Nat.le_trans h.1 htop, h.2⟩

theorem outline_append :
    Outline top (ls ++ ls') ↔ Outline top ls ∧ Outline (nextTop top ls) ls' := by
  induction ls generalizing top with
  | nil => simp [Outline, nextTop]
  | cons line ls ih => simp only [List.cons_append, Outline, nextTop, ih, and_assoc]

theorem nextTop_append : nextTop top (ls ++ ls') = nextTop (nextTop top ls) ls' := by
  induction ls generalizing top with
  | nil => rfl
  | cons line ls ih => exact ih

end Levels

section Forests

variable {f g : Forest α} {d l : ℕ}

@[simp] theorem Forest.append_nil (f : Forest α) : f.append .nil = f := by
  induction f with
  | nil => rfl
  | cons a below after _ ih => rw [Forest.append, ih]

theorem Forest.lines_append : (f.append g).lines d = f.lines d ++ g.lines d := by
  induction f with
  | nil => rfl
  | cons a below after _ ih =>
    simp only [Forest.append, Forest.lines, ih, List.cons_append, List.append_assoc]

theorem Forest.roots_append : (f.append g).roots = f.roots ++ g.roots := by
  induction f with
  | nil => rfl
  | cons a below after _ ih => simp only [Forest.append, Forest.roots, ih, List.cons_append]

theorem parse_lines_append_of_lt {ls : List (ℕ × α)} (h : l < d) :
    parse (f.lines d ++ ls) l = parse ls l := by
  induction f generalizing d ls with
  | nil => rfl
  | cons a below after ihbelow ihafter =>
    rw [Forest.lines, List.cons_append, List.append_assoc, parse, if_pos h,
      ihbelow (Nat.lt_succ_of_lt h), ihafter h]

theorem parse_lines_append {ls : List (ℕ × α)} (h : ∀ l > d, parse ls l = .nil) :
    parse (f.lines d ++ ls) d = f.append (parse ls d) := by
  induction f generalizing d ls with
  | nil => rfl
  | cons a below after ihbelow ihafter =>
    have hafter : ∀ l > d, parse (after.lines d ++ ls) l = .nil := by
      intro l hl
      cases after with
      | nil => exact h l hl
      | cons b _ _ =>
        rw [Forest.lines, List.cons_append, parse, if_neg (Nat.lt_asymm hl),
          if_neg (Nat.ne_of_gt hl)]
    have hdeeper : ∀ l > d+1, parse (after.lines d ++ ls) l = .nil :=
      fun l hl => hafter l (Nat.lt_of_succ_lt hl)
    rw [Forest.lines, List.cons_append, List.append_assoc, parse, if_neg (Nat.lt_irrefl d),
      if_pos rfl, ihbelow hdeeper, hafter (d+1) (Nat.lt_succ_self d), Forest.append_nil,
      parse_lines_append_of_lt (Nat.lt_succ_self d), ihafter h, Forest.append]

/-- A forest is read back from its lines. -/
theorem parse_lines (f : Forest α) (d : ℕ) : parse (f.lines d) d = f := by
  have h : parse (f.lines d ++ []) d = f.append (parse [] d) := parse_lines_append fun _ _ => rfl
  rwa [List.append_nil, parse, Forest.append_nil] at h

theorem takeWhile_append_takeWhile {p q : α → Bool} (hpq : ∀ a, p a → q a) (ls : List α) :
    ls.takeWhile p ++ (ls.dropWhile p).takeWhile q = ls.takeWhile q := by
  induction ls with
  | nil => rfl
  | cons a ls ih =>
    by_cases hp : p a = true
    · simp [hp, hpq a hp, ih]
    · simp [hp]

theorem lines_parse_level {top : ℕ} {ls : List (ℕ × α)} (h : Outline top ls) (l : ℕ) :
    (parse ls l).lines l = (ls.dropWhile (l < ·.1)).takeWhile (l ≤ ·.1) := by
  induction ls generalizing top l with
  | nil => rfl
  | cons line ls ih =>
    obtain ⟨d, a⟩ := line
    rw [parse]
    split_ifs with hlt heq
    · rw [ih h.2, List.dropWhile_cons_of_pos (by simpa using hlt)]
    · subst heq
      -- no line is deeper than those right below this one
      have hhead : ls.dropWhile (l+1 < ·.1) = ls := by
        cases ls with
        | nil => rfl
        | cons next ls => exact List.dropWhile_cons_of_neg (by simpa using h.2.1)
      have hdrop : ((l, a) :: ls).dropWhile (l < ·.1) = (l, a) :: ls :=
        List.dropWhile_cons_of_neg (by simp)
      rw [hdrop, List.takeWhile_cons_of_pos (by simp), Forest.lines, ih h.2 (l+1), ih h.2 l,
        hhead]
      congr 1
      exact takeWhile_append_takeWhile (fun line hline => by simp at hline ⊢; omega) ls
    · rw [List.dropWhile_cons_of_neg (by simpa using hlt),
        List.takeWhile_cons_of_neg (by simp; omega)]
      rfl

/-- The lines of an outline are read as a forest and written again. -/
theorem lines_parse {ls : List (ℕ × α)} (h : Outline d ls) (hd : ∀ line ∈ ls, d ≤ line.1) :
    (parse ls d).lines d = ls := by
  have hhead : ls.dropWhile (d < ·.1) = ls := by
    cases ls with
    | nil => rfl
    | cons line ls => exact List.dropWhile_cons_of_neg (by simpa using h.1)
  rw [lines_parse_level h, hhead, List.takeWhile_eq_self_iff]
  intro line hline
  simpa using hd line hline

theorem exists_lines {ls : List (ℕ × α)} (h : Outline d ls) (hd : ∀ line ∈ ls, d ≤ line.1) :
    ∃ f : Forest α, f.lines d = ls :=
  ⟨parse ls d, lines_parse h hd⟩

theorem Forest.lines_injective (d : ℕ) : Function.Injective (Forest.lines (α := α) d) := by
  intro f g h
  rw [← parse_lines f d, h, parse_lines]

end Forests

end Outlines
