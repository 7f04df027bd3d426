import Mathlib.Data.List.Nodup
import Mathlib.Logic.Function.Iterate

/-! Circular doubly linked lists whose links are fields of the listed objects: insertion behind
the head, removal of any node, and the loop over all nodes. -/
namespace IntrusiveList

/-- The fields `next` and `prev` of every node. -/
structure Links (α : Type) where
  next : α → α
  prev : α → α

section Operations

variable {α β : Type} [DecidableEq α]

def Links.setNext (l : Links α) (a b : α) : Links α := { l with next := Function.update l.next a b }

def Links.setPrev (l : Links α) (a b : α) : Links α := { l with prev := Function.update l.prev a b }

def listInit (l : Links α) (list : α) : Links α := (l.setPrev list list).setNext list list

/-- `__list_add` -/
def listAddBetween (l : Links α) (entry prev next : α) : Links α :=
  (((l.setPrev next entry).setNext entry next).setPrev entry prev).setNext prev entry

def listAdd (l : Links α) (entry head : α) : Links α := listAddBetween l entry head (l.next head)

/-- `__list_del` -/
def listDelBetween (l : Links α) (prev next : α) : Links α := (l.setPrev next prev).setNext prev next

def listDel (l : Links α) (entry : α) : Links α :=
  listInit (listDelBetween l (l.prev entry) (l.next entry)) entry

/-- `list_for_each_entry` from `pos` on, for `n` turns at most. The body goes on, leaves the loop
with a value, or is undefined. -/
def forEachEntry (l : Links α) (head : α) (body : α → Option (Option β)) :
    ℕ → α → Option (Option β)
  | 0, _ => none
  | n+1, pos =>
    if pos = head then some none
    else match body pos with
      | none => none
      | some (some b) => some (some b)
      | some none => forEachEntry l head body n (l.next pos)

/-- The nodes that a loop without a break visits, from `pos` on. -/
def walk (l : Links α) (head : α) : ℕ → α → Option (List α)
  | 0, _ => none
  | n+1, pos => if pos = head then some [] else (walk l head n (l.next pos)).map (pos :: ·)

end Operations

section Segments

variable {α : Type}

/-- `next` leads from `a` through `xs` to `b`, and `prev` leads back. -/
def Segment (l : Links α) : α → List α → α → Prop
  | a, [], b => l.next a = b ∧ l.prev b = a
  | a, x :: xs, b => l.next a = x ∧ l.prev x = a ∧ Segment l x xs b

/-- The list at `head` is a circle through the nodes `xs`, in this order. -/
structure Ring (l : Links α) (head : α) (xs : List α) : Prop where
  segment : Segment l head xs head
  nodup : (head :: xs).Nodup

/-- The links of `a` are the same in `l` and `l'`. -/
def SameAt (l l' : Links α) (a : α) : Prop := l'.next a = l.next a ∧ l'.prev a = l.prev a

variable {l l' : Links α} {a b x : α} {xs ys : List α}

theorem segment_append :
    Segment l a (xs ++ x :: ys) b ↔ Segment l a xs x ∧ Segment l x ys b := by
  induction xs generalizing a with
  | nil => simp only [List.nil_append, Segment, and_assoc]
  | cons y xs ih => simp only [List.cons_append, Segment, ih, and_assoc]

/-- A segment needs the `next` of all its nodes but the last and the `prev` of all but the
first. -/
theorem Segment.congr (h : Segment l a xs b) (hnext : ∀ y ∈ a :: xs, l'.next y = l.next y)
    (hprev : ∀ y ∈ b :: xs, l'.prev y = l.prev y) : Segment l' a xs b := by
  induction xs generalizing a with
  | nil =>
    have hn := hnext a List.mem_cons_self
    have hp := hprev b List.mem_cons_self
    exact ⟨hn.trans h.1, hp.trans h.2⟩
  | cons x xs ih =>
    have hn := hnext a List.mem_cons_self
    have hp := hprev x (List.mem_cons_of_mem b List.mem_cons_self)
    refine ⟨hn.trans h.1, hp.trans h.2.1, ih h.2.2 ?_ ?_⟩
    · exact fun y hy => hnext y (List.mem_cons_of_mem a hy)
    · intro y hy
      apply hprev y
      rcases List.mem_cons.mp hy with rfl | hy
      · exact List.mem_cons_self
      · exact List.mem_cons_of_mem b (List.mem_cons_of_mem x hy)

theorem Segment.next_mem (h : Segment l a xs b) : l.next a ∈ b :: xs := by
  cases xs with
  | nil => exact h.1 ▸ List.mem_cons_self
  | cons x xs => exact h.1 ▸ List.mem_cons_of_mem b List.mem_cons_self

theorem Segment.prev_mem (h : Segment l a xs b) : l.prev b ∈ a :: xs := by
  induction xs generalizing a with
  | nil => exact h.2 ▸ List.mem_cons_self
  | cons x xs ih => exact List.mem_cons_of_mem a (ih h.2.2)

/-- A segment that ends at `b` is sent on to `c` instead. -/
theorem Segment.retarget {c : α} (h : Segment l a xs b) (hnodup : (a :: xs).Nodup)
    (hc : c ∉ xs) (hnext : l'.next (l.prev b) = c) (hprev : l'.prev c = l.prev b)
    (hn : ∀ y ∈ a :: xs, y ≠ l.prev b → l'.next y = l.next y)
    (hp : ∀ y ∈ xs, l'.prev y = l.prev y) : Segment l' a xs c := by
  induction xs generalizing a with
  | nil =>
    have hb : l.prev b = a := h.2
    rw [hb] at hnext hprev
    exact ⟨hnext, hprev⟩
  | cons x xs ih =>
    have hmem := h.2.2.prev_mem
    -- the last node of the segment is not the first
    have hne : a ≠ l.prev b := fun heq => (List.nodup_cons.mp hnodup).1 (heq ▸ hmem)
    have hna := hn a List.mem_cons_self hne
    have hpx := hp x List.mem_cons_self
    refine ⟨hna.trans h.1, hpx.trans h.2.1, ih h.2.2 (List.nodup_cons.mp hnodup).2 ?_ ?_ ?_⟩
    · exact fun hmem' => hc (List.mem_cons_of_mem x hmem')
    · exact fun y hy => hn y (List.mem_cons_of_mem a hy)
    · exact fun y hy => hp y (List.mem_cons_of_mem x hy)

theorem Ring.congr {head : α} (h : Ring l head xs) (hsame : ∀ y ∈ head :: xs, SameAt l l' y) :
    Ring l' head xs :=
  ⟨h.segment.congr (fun y hy => (hsame y hy).1) fun y hy => (hsame y hy).2, h.nodup⟩

theorem Ring.head_notMem {head : α} (h : Ring l head xs) : head ∉ xs :=
  (List.nodup_cons.mp h.nodup).1

theorem Segment.prev_next (h : Segment l a xs b) : ∀ y ∈ a :: xs, l.prev (l.next y) = y := by
  induction xs generalizing a with
  | nil =>
    intro y hy
    rw [List.mem_singleton.mp hy, h.1, h.2]
  | cons x xs ih =>
    intro y hy
    rcases List.mem_cons.mp hy with rfl | hy
    · rw [h.1, h.2.1]
    · exact ih h.2.2 y hy

theorem Segment.next_prev (h : Segment l a xs b) : ∀ y ∈ b :: xs, l.next (l.prev y) = y := by
  induction xs generalizing a with
  | nil =>
    intro y hy
    rw [List.mem_singleton.mp hy, h.2, h.1]
  | cons x xs ih =>
    intro y hy
    rcases List.mem_cons.mp hy with rfl | hy
    · exact ih h.2.2 y List.mem_cons_self
    · rcases List.mem_cons.mp hy with rfl | hy
      · rw [h.2.1, h.1]
      · exact ih h.2.2 y (List.mem_cons_of_mem b hy)

theorem Segment.iterate (h : Segment l a xs b) : l.next^[xs.length+1] a = b := by
  induction xs generalizing a with
  | nil => exact h.1
  | cons x xs ih =>
    rw [List.length_cons, Function.iterate_succ_apply, h.1]
    exact ih h.2.2

/-- `next` and `prev` undo each other on the head and the nodes. -/
theorem Ring.inverse {head : α} (h : Ring l head xs) :
    ∀ y ∈ head :: xs, l.prev (l.next y) = y ∧ l.next (l.prev y) = y :=
  fun y hy => ⟨h.segment.prev_next y hy, h.segment.next_prev y hy⟩

/-- Every node is reached from the head along `next`, and the head from every node. -/
theorem Ring.reaches {head : α} (h : Ring l head xs) (hx : x ∈ xs) :
    (∃ k, l.next^[k] head = x) ∧ ∃ k, l.next^[k] x = head := by
  obtain ⟨us, vs, rfl⟩ := List.append_of_mem hx
  obtain ⟨hto, hback⟩ := segment_append.mp h.segment
  exact ⟨⟨_, hto.iterate⟩, _, hback.iterate⟩

/-- Nothing but the nodes is reached from the head. -/
theorem Ring.closed {head : α} (h : Ring l head xs) (k : ℕ) : l.next^[k] head ∈ head :: xs := by
  induction k with
  | zero => exact List.mem_cons_self
  | succ k ih =>
    rw [Function.iterate_succ_apply']
    rcases List.mem_cons.mp ih with heq | hm
    · rw [heq]
      exact h.segment.next_mem
    · obtain ⟨us, vs, rfl⟩ := List.append_of_mem hm
      have hnext := (segment_append.mp h.segment).2.next_mem
      rcases List.mem_cons.mp hnext with heq | hm'
      · rw [heq]
        exact List.mem_cons_self
      · exact List.mem_cons_of_mem head (List.mem_append_right us (List.mem_cons_of_mem _ hm'))

/-- The successor and the predecessor of a node are nodes. -/
theorem Ring.neighbours {head : α} (h : Ring l head (xs ++ x :: ys)) :
    l.next x ∈ head :: (xs ++ x :: ys) ∧ l.prev x ∈ head :: (xs ++ x :: ys) := by
  obtain ⟨hleft, hright⟩ := segment_append.mp h.segment
  have hnext := hright.next_mem
  have hprev := hleft.prev_mem
  simp only [List.mem_cons, List.mem_append] at hnext hprev ⊢
  exact ⟨hnext.imp_right fun hm => .inr (.inr hm), hprev.imp_right .inl⟩

end Segments

section Updates

variable {α : Type} [DecidableEq α] {l : Links α} {head entry x : α} {xs ys : List α}

/-- A new head is an empty list. -/
theorem listInit_ring (l : Links α) (x : α) : Ring (listInit l x) x [] :=
  ⟨⟨Function.update_self _ _ _, Function.update_self _ _ _⟩, List.nodup_singleton x⟩

theorem listInit_sameAt {y : α} (hy : y ≠ x) : SameAt l (listInit l x) y :=
  ⟨Function.update_of_ne hy _ _, Function.update_of_ne hy _ _⟩

/-- An insertion changes the links of the new node, the head and the first node only. -/
theorem listAdd_sameAt (h : Ring l head xs) {y : α} (hentry : y ≠ entry) (hy : y ∉ head :: xs) :
    SameAt l (listAdd l entry head) y := by
  have hhead : y ≠ head := fun heq => hy (heq ▸ List.mem_cons_self)
  have hfirst : y ≠ l.next head := fun heq => hy (heq ▸ h.segment.next_mem)
  refine ⟨?_, ?_⟩
  · calc (listAdd l entry head).next y
        = (l.setNext entry (l.next head)).next y := Function.update_of_ne hhead _ _
      _ = l.next y := Function.update_of_ne hentry _ _
  · calc (listAdd l entry head).prev y
        = (l.setPrev (l.next head) entry).prev y := Function.update_of_ne hentry _ _
      _ = l.prev y := Function.update_of_ne hfirst _ _

/-- A removal changes the links of the node and of its two neighbours only. -/
theorem listDel_sameAt {y : α} (hentry : y ≠ entry) (hnext : y ≠ l.next entry)
    (hprev : y ≠ l.prev entry) : SameAt l (listDel l entry) y := by
  refine ⟨?_, ?_⟩
  · calc (listDel l entry).next y
        = (l.setNext (l.prev entry) (l.next entry)).next y := Function.update_of_ne hentry _ _
      _ = l.next y := Function.update_of_ne hprev _ _
  · calc (listDel l entry).prev y
        = (l.setPrev (l.next entry) (l.prev entry)).prev y := Function.update_of_ne hentry _ _
      _ = l.prev y := Function.update_of_ne hnext _ _

/-- A new node becomes the first one. -/
theorem listAdd_ring (h : Ring l head xs) (hentry : entry ∉ head :: xs) :
    Ring (listAdd l entry head) head (entry :: xs) := by
  have hne : entry ≠ head := fun heq => hentry (heq ▸ List.mem_cons_self)
  have hfirst : l.next head ≠ entry := fun heq => hentry (heq ▸ h.segment.next_mem)
  have hheadNext : (listAdd l entry head).next head = entry := Function.update_self _ _ _
  have hentryPrev : (listAdd l entry head).prev entry = head := Function.update_self _ _ _
  have hentryNext : (listAdd l entry head).next entry = l.next head := by
    calc (listAdd l entry head).next entry
        = (l.setNext entry (l.next head)).next entry := Function.update_of_ne hne _ _
      _ = l.next head := Function.update_self _ _ _
  have hfirstPrev : (listAdd l entry head).prev (l.next head) = entry := by
    calc (listAdd l entry head).prev (l.next head)
        = (l.setPrev (l.next head) entry).prev (l.next head) := Function.update_of_ne hfirst _ _
      _ = entry := Function.update_self _ _ _
  have hnodup : (head :: entry :: xs).Nodup := by
    have hxs := List.nodup_cons.mp h.nodup
    simp only [List.nodup_cons, List.mem_cons, not_or]
    exact ⟨⟨hne.symm, hxs.1⟩, fun hm => hentry (List.mem_cons_of_mem head hm), hxs.2⟩
  refine ⟨⟨hheadNext, hentryPrev, ?_⟩, hnodup⟩
  cases xs with
  | nil =>
    have hlast : l.next head = head := h.segment.1
    rw [hlast] at hentryNext hfirstPrev
    exact ⟨hentryNext, hfirstPrev⟩
  | cons x xs =>
    obtain ⟨hx, -, hrest⟩ := h.segment
    rw [hx] at hentryNext hfirstPrev
    refine ⟨hentryNext, hfirstPrev, hrest.congr (fun y hy => ?_) fun y hy => ?_⟩
    -- the rest of the circle keeps its links, but for the `prev` of its first node
    · have hyne : y ≠ entry := fun heq => hentry (heq ▸ List.mem_cons_of_mem head hy)
      have hyhead : y ≠ head := fun heq => h.head_notMem (heq ▸ hy)
      calc (listAdd l entry head).next y
          = (l.setNext entry (l.next head)).next y := Function.update_of_ne hyhead _ _
        _ = l.next y := Function.update_of_ne hyne _ _
    · have hyx : y ≠ l.next head := by
        rw [hx]
        rcases List.mem_cons.mp hy with rfl | hm
        · exact fun heq => h.head_notMem (heq ▸ List.mem_cons_self)
        · intro heq
          exact (List.nodup_cons.mp (List.nodup_cons.mp h.nodup).2).1 (heq ▸ hm)
      have hyne : y ≠ entry := by
        rintro rfl
        exact hentry (List.mem_cons.mpr ((List.mem_cons.mp hy).imp_right (List.mem_cons_of_mem x)))
      calc (listAdd l entry head).prev y
          = (l.setPrev (l.next head) entry).prev y := Function.update_of_ne hyne _ _
        _ = l.prev y := Function.update_of_ne hyx _ _

/-- Any node can be taken out: the first, the last, one in between or the only one. -/
theorem listDel_ring (h : Ring l head (xs ++ x :: ys)) :
    Ring (listDel l x) head (xs ++ ys) := by
  obtain ⟨hleft, hright⟩ := segment_append.mp h.segment
  obtain ⟨hhead, hmiddle⟩ := List.nodup_cons.mp h.nodup
  obtain ⟨hx, hrest⟩ := List.nodup_cons.mp (List.nodup_middle.mp hmiddle)
  obtain ⟨hxs, hys, hdisjoint⟩ := List.nodup_append.mp hrest
  simp only [List.mem_append, List.mem_cons, not_or] at hhead hx
  have hprevMem := hleft.prev_mem
  have hnextMem := hright.next_mem
  simp only [List.mem_cons] at hprevMem hnextMem
  have hprevNe : l.prev x ≠ x := by
    rcases hprevMem with heq | hm
    · exact heq ▸ hhead.2.1
    · exact fun heq => hx.1 (heq ▸ hm)
  have hnextNe : l.next x ≠ x := by
    rcases hnextMem with heq | hm
    · exact heq ▸ hhead.2.1
    · exact fun heq => hx.2 (heq ▸ hm)
  -- the neighbours are on different sides of the node, so neither loses its other link
  have hnextNotMem : l.next x ∉ xs := by
    rcases hnextMem with heq | hm
    · exact heq ▸ hhead.1
    · exact fun hm' => hdisjoint _ hm' _ hm rfl
  have hnext : (listDel l x).next (l.prev x) = l.next x := by
    calc (listDel l x).next (l.prev x)
        = (l.setNext (l.prev x) (l.next x)).next (l.prev x) := Function.update_of_ne hprevNe _ _
      _ = l.next x := Function.update_self _ _ _
  have hprev : (listDel l x).prev (l.next x) = l.prev x := by
    calc (listDel l x).prev (l.next x)
        = (l.setPrev (l.next x) (l.prev x)).prev (l.next x) := Function.update_of_ne hnextNe _ _
      _ = l.prev x := Function.update_self _ _ _
  have hnextSame {y : α} (hyx : y ≠ x) (hy : y ≠ l.prev x) :
      (listDel l x).next y = l.next y := by
    calc (listDel l x).next y
        = (l.setNext (l.prev x) (l.next x)).next y := Function.update_of_ne hyx _ _
      _ = l.next y := Function.update_of_ne hy _ _
  have hprevSame {y : α} (hyx : y ≠ x) (hy : y ≠ l.next x) :
      (listDel l x).prev y = l.prev y := by
    calc (listDel l x).prev y
        = (l.setPrev (l.next x) (l.prev x)).prev y := Function.update_of_ne hyx _ _
      _ = l.prev y := Function.update_of_ne hy _ _
  have hnodup : (head :: xs).Nodup := List.nodup_cons.mpr ⟨hhead.1, hxs⟩
  have hjoined : Segment (listDel l x) head xs (l.next x) := by
    refine hleft.retarget hnodup hnextNotMem hnext hprev (fun y hy => ?_) fun y hy => ?_
    · refine hnextSame ?_
      rcases List.mem_cons.mp hy with rfl | hm
      · exact hhead.2.1
      · exact fun heq => hx.1 (heq ▸ hm)
    · exact hprevSame (fun heq => hx.1 (heq ▸ hy)) fun heq => hnextNotMem (heq ▸ hy)
  refine ⟨?_, List.nodup_cons.mpr ⟨?_, hrest⟩⟩
  · cases ys with
    | nil =>
      have hlast : l.next x = head := hright.1
      rw [hlast] at hjoined
      rwa [List.append_nil]
    | cons z zs =>
      obtain ⟨hz, -, htail⟩ := hright
      rw [hz] at hjoined hprevSame
      refine segment_append.mpr ⟨hjoined, htail.congr (fun y hy => ?_) fun y hy => ?_⟩
      · refine hnextSame (fun heq => hx.2 (heq ▸ hy)) ?_
        rcases hprevMem with heq | hm
        · exact fun heq' => hhead.2.2 ((heq'.trans heq) ▸ hy)
        · exact fun heq' => hdisjoint _ hm _ hy heq'.symm
      · rcases List.mem_cons.mp hy with rfl | hm
        · exact hprevSame hhead.2.1 fun heq => hhead.2.2 (heq ▸ List.mem_cons_self)
        · refine hprevSame (fun heq => hx.2 (heq ▸ List.mem_cons_of_mem z hm)) ?_
          exact fun heq => (List.nodup_cons.mp hys).1 (heq ▸ hm)
  · simp only [List.mem_append, not_or]
    exact ⟨hhead.1, hhead.2.2⟩

theorem Ring.init (h : Ring l head xs) (hentry : entry ∉ head :: xs) :
    Ring (listInit l entry) head xs :=
  h.congr fun _ hy => listInit_sameAt fun heq => hentry (heq ▸ hy)

theorem Ring.insert (h : Ring l head xs) (hentry : entry ∉ head :: xs) :
    Ring (listAdd (listInit l entry) entry head) head (entry :: xs) :=
  listAdd_ring (h.init hentry) hentry

/-- An insertion into another list. -/
theorem Ring.insert_other {other : α} (h : Ring l head xs) (h' : Ring l other ys)
    (hentry : entry ∉ head :: xs) (hentry' : entry ∉ other :: ys)
    (hdisjoint : ∀ y ∈ head :: xs, y ∉ other :: ys) :
    Ring (listAdd (listInit l entry) entry other) head xs := by
  apply (h.init hentry).congr
  intro y hy
  apply listAdd_sameAt (h'.init hentry')
  · exact fun heq => hentry (heq ▸ hy)
  · exact hdisjoint y hy

/-- A removal leaves the nodes outside its list alone. -/
theorem Ring.listDel_sameAt (h : Ring l head (xs ++ x :: ys)) {y : α}
    (hy : y ∉ head :: (xs ++ x :: ys)) : SameAt l (listDel l x) y := by
  obtain ⟨hnext, hprev⟩ := h.neighbours
  have hx : x ∈ head :: (xs ++ x :: ys) :=
    List.mem_cons_of_mem head (List.mem_append_right xs List.mem_cons_self)
  exact IntrusiveList.listDel_sameAt (fun heq => hy (heq ▸ hx)) (fun heq => hy (heq ▸ hnext))
    fun heq => hy (heq ▸ hprev)

/-- A removal from another list. -/
theorem Ring.remove_other {other : α} {zs : List α} (h : Ring l head zs)
    (h' : Ring l other (xs ++ x :: ys))
    (hdisjoint : ∀ y ∈ head :: zs, y ∉ other :: (xs ++ x :: ys)) : Ring (listDel l x) head zs :=
  h.congr fun y hy => h'.listDel_sameAt (hdisjoint y hy)

end Updates

section Loops

variable {α β : Type} [DecidableEq α] {l : Links α} {head a : α} {xs : List α}

/-- The loop over a circle ends, after one turn for each node, in the order of `next`. -/
theorem Segment.walk (h : Segment l a xs head) (hhead : head ∉ xs) {n : ℕ} (hn : xs.length < n) :
    walk l head n (l.next a) = some xs := by
  induction xs generalizing a n with
  | nil =>
    obtain ⟨k, rfl⟩ : ∃ k, n = k+1 := ⟨n-1, by omega⟩
    rw [h.1, IntrusiveList.walk, if_pos rfl]
  | cons x xs ih =>
    obtain ⟨k, rfl⟩ : ∃ k, n = k+1 := ⟨n-1, by omega⟩
    have hne : x ≠ head := fun heq => hhead (heq ▸ List.mem_cons_self)
    have hrest := ih h.2.2 (fun hm => hhead (List.mem_cons_of_mem x hm))
      (n := k) (by simpa using hn)
    rw [h.1, IntrusiveList.walk, if_neg hne, hrest]
    rfl

theorem Ring.walk (h : Ring l head xs) {n : ℕ} (hn : xs.length < n) :
    IntrusiveList.walk l head n (l.next head) = some xs :=
  h.segment.walk h.head_notMem hn

/-- A loop with breaks ends at the first node that the body breaks at. The nodes belong to the
objects `es`. -/
theorem forEachEntry_of_walk {γ : Type} {body : α → Option (Option β)} {node : γ → α}
    {f : γ → Option β} {es : List γ} {n : ℕ} {pos : α}
    (hwalk : walk l head n pos = some (es.map node))
    (hbody : ∀ e ∈ es, body (node e) = some (f e)) :
    forEachEntry l head body n pos = some (es.findSome? f) := by
  induction n generalizing pos es with
  | zero => exact nomatch hwalk
  | succ n ih =>
    rw [walk] at hwalk
    rw [forEachEntry]
    by_cases hpos : pos = head
    · rw [if_pos hpos] at hwalk ⊢
      have hnil : es = [] := List.map_eq_nil_iff.mp (Option.some.inj hwalk).symm
      rw [hnil, List.findSome?_nil]
    · rw [if_neg hpos] at hwalk ⊢
      obtain ⟨rest, hrest, heq⟩ := Option.map_eq_some_iff.mp hwalk
      obtain ⟨e, es', rfl, rfl, rfl⟩ := List.map_eq_cons_iff.mp heq.symm
      rw [hbody e List.mem_cons_self, List.findSome?_cons]
      cases hf : f e with
      | some b => rfl
      | none => exact ih hrest fun x hx => hbody x (List.mem_cons_of_mem e hx)

end Loops
end IntrusiveList
