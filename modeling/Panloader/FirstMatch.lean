import Mathlib.Data.List.Basic

/-! Searching a list for its first match, and removing that match. -/
namespace FirstMatch

variable {α β : Type} {p o : α → Bool} {l : List α} {x : α}

/-- The first match splits the list behind a part without matches. -/
theorem split_of_find? (h : l.find? p = some x) :
    ∃ before after, l = before ++ x :: after ∧ (∀ y ∈ before, ¬p y) ∧
      l.eraseP p = before ++ after ∧ p x := by
  obtain ⟨hp, before, after, rfl, hbefore⟩ := List.find?_eq_some_iff_append.mp h
  have hnone : ∀ y ∈ before, ¬p y := by
    intro y hy hpy
    have hn := hbefore y hy
    rw [hpy] at hn
    exact absurd hn (by decide)
  refine ⟨before, after, rfl, hnone, ?_, hp⟩
  rw [List.eraseP_append_right _ hnone, List.eraseP_cons_of_pos hp]

theorem eraseP_eq_self_of_find?_eq_none (h : l.find? p = none) : l.eraseP p = l :=
  List.eraseP_of_forall_not (List.find?_eq_none.mp h)

/-- Removing the first match takes away that one element. -/
theorem perm_cons_eraseP (h : l.find? p = some x) : l.Perm (x :: l.eraseP p) := by
  obtain ⟨before, after, rfl, -, herase, -⟩ := split_of_find? h
  rw [herase]
  exact List.perm_middle

/-- The first match moves over to a second list, and none is lost. -/
theorem perm_move (f : α → β) (h : l.find? p = some x) (r : List β) :
    ((l.eraseP p).map f ++ f x :: r).Perm (l.map f ++ r) := by
  have hcons : (f x :: (l.eraseP p).map f).Perm (l.map f) := (perm_cons_eraseP h).symm.map f
  exact List.perm_middle.trans (hcons.append_right r)

/-- Removing the first match takes the first one off the list of matches. -/
theorem filter_eraseP (p : α → Bool) (l : List α) : (l.eraseP p).filter p = (l.filter p).tail := by
  cases h : l.find? p with
  | none =>
    have hnone : l.filter p = [] := List.filter_eq_nil_iff.mpr (List.find?_eq_none.mp h)
    rw [eraseP_eq_self_of_find?_eq_none h, hnone]
    rfl
  | some x =>
    obtain ⟨before, after, rfl, hbefore, herase, hx⟩ := split_of_find? h
    have hnone : before.filter p = [] := List.filter_eq_nil_iff.mpr hbefore
    rw [herase, List.filter_append, List.filter_append, hnone, List.filter_cons_of_pos hx]
    rfl

/-- What does not match stays. -/
theorem filter_eraseP_of_disjoint {q : α → Bool} (hq : ∀ x, q x → ¬p x) :
    (l.eraseP p).filter q = l.filter q := by
  cases h : l.find? p with
  | none => rw [eraseP_eq_self_of_find?_eq_none h]
  | some x =>
    obtain ⟨before, after, rfl, -, herase, hx⟩ := split_of_find? h
    have hnot : ¬q x := fun hqx => hq x hqx hx
    rw [herase, List.filter_append, List.filter_append, List.filter_cons_of_neg hnot]

/-- In a list ordered by falling stamps the first match is the newest one. -/
theorem newest_of_find? {stamp : α → ℕ} (hsorted : l.Pairwise fun x y => stamp y < stamp x)
    (h : l.find? p = some x) {y : α} (hy : y ∈ l) (hp : p y) : stamp y ≤ stamp x := by
  obtain ⟨before, after, rfl, hbefore, -, -⟩ := split_of_find? h
  rcases List.mem_append.mp hy with hmem | hmem
  · exact absurd hp (hbefore y hmem)
  · rcases List.mem_cons.mp hmem with rfl | hmem
    · exact Nat.le_refl _
    · have htail := (List.pairwise_append.mp hsorted).2.1
      exact Nat.le_of_lt ((List.pairwise_cons.mp htail).1 y hmem)

/-- A search by `p` finds what `o` holds of, where `p` is weaker than `o` and at most one
element satisfies `o`, exactly if that element precedes all others that satisfy `p`. -/
theorem find?_eq_some_iff_owner (hweak : ∀ x ∈ l, o x → p x)
    (hunique : ∀ x ∈ l, ∀ y ∈ l, o x → o y → x = y) :
    (∀ x, l.find? p = some x ↔ x ∈ l ∧ o x) ↔
      ∀ before x after, l = before ++ x :: after → p x → ¬o x → ∃ y ∈ before, o y := by
  constructor
  · intro h before x after hl hp hno
    -- the first match lies at `x` or before it
    have hx : ((before ++ [x]).find? p).isSome := by
      apply List.find?_isSome.mpr
      exact ⟨x, List.mem_append_right before (List.mem_singleton.mpr rfl), hp⟩
    obtain ⟨y, hy⟩ := Option.isSome_iff_exists.mp hx
    have hfind : l.find? p = some y := by
      rw [hl, List.append_cons, List.find?_append, hy, Option.some_or]
    have hyo : o y := ((h y).mp hfind).2
    rcases List.mem_append.mp (List.mem_of_find?_eq_some hy) with hmem | hmem
    · exact ⟨y, hmem, hyo⟩
    · rw [List.mem_singleton.mp hmem] at hyo
      exact absurd hyo hno
  · intro h
    have hfound (x : α) (hx : l.find? p = some x) : x ∈ l ∧ o x := by
      obtain ⟨before, after, hl, hbefore, -, hp⟩ := split_of_find? hx
      refine ⟨List.mem_of_find?_eq_some hx, ?_⟩
      by_contra hno
      obtain ⟨y, hy, hyo⟩ := h before x after hl hp hno
      have hyl : y ∈ l := by
        rw [hl]
        exact List.mem_append_left _ hy
      exact hbefore y hy (hweak y hyl hyo)
    intro x
    refine ⟨hfound x, ?_⟩
    rintro ⟨hx, hxo⟩
    have hsome : (l.find? p).isSome := List.find?_isSome.mpr ⟨x, hx, hweak x hx hxo⟩
    obtain ⟨y, hy⟩ := Option.isSome_iff_exists.mp hsome
    obtain ⟨hyl, hyo⟩ := hfound y hy
    rw [hy, hunique y hyl x hx hyo hxo]

end FirstMatch
