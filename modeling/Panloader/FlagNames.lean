import Mathlib.Tactic.SplitIfs
import Panloader.MaliIoctl
import Panloader.MaskDecomposition

/-! The text of a decoded flag word: its names and the remainder account for every bit once. -/
namespace Panloader
open Effects

/-- The entries of a table whose names are printed for `flags`. -/
def shownFlags (table : List PanwrapFlagInfo) (flags : U64) : List PanwrapFlagInfo :=
  Masks.taken (·.flag) table flags

def leftFlags (table : List PanwrapFlagInfo) (flags : U64) : U64 :=
  Masks.left (·.flag) table flags

/-- The events in which names are printed, after the first name or not. -/
def nameEvents : Bool → List String → List Event
  | _, [] => []
  | found, name :: names =>
    .cont (if found then " | " else " (") [] :: .cont "%s" [.str name] :: nameEvents true names

/-- The end of a text in which these names were printed. -/
def flagsEnd (names : List String) (rest : U64) : List Event :=
  if names = [] then []
  else if rest ≠ 0 then [.cont " | 0x%lx" [.u64 rest], .cont ")" []]
  else [.cont ")" []]

def flagEvents (flags : U64) (names : List String) (rest : U64) : List Event :=
  .cont "0x%lx" [.u64 flags] :: (nameEvents false names ++ flagsEnd names rest)

theorem logFlagNames_run (table : List PanwrapFlagInfo) (flags : U64) (found : Bool) (w : World) :
    logFlagNames table flags found w =
      .ok (leftFlags table flags, found || !(shownFlags table flags).isEmpty)
        (w.emitAll (nameEvents found ((shownFlags table flags).map (·.name)))) := by
  induction table generalizing flags found w with
  | nil =>
    show EStateM.Result.ok (flags, found) w = .ok (flags, found || false) (w.emitAll [])
    rw [Bool.or_false, World.emitAll_nil]
  | cons info rest ih =>
    unfold logFlagNames shownFlags leftFlags Masks.taken Masks.left
    by_cases h : flags &&& info.flag = info.flag
    · rw [if_neg (not_not_intro h), if_pos h, if_pos h]
      have hnames := ih (flags &&& ~~~info.flag) true
        ((w.emit (.cont (if found then " | " else " (") [])).emit (.cont "%s" [.str info.name]))
      rw [← World.emitAll_cons, ← World.emitAll_cons, Bool.true_or] at hnames
      rw [List.isEmpty_cons, Bool.not_false, Bool.or_true]
      exact hnames
    · rw [if_pos h, if_neg h, if_neg h]
      exact ih flags found w

theorem panwrapLogDecodedFlags_run (table : List PanwrapFlagInfo) (flags : U64) (w : World) :
    panwrapLogDecodedFlags table flags w = .ok () (w.emitAll
      (flagEvents flags ((shownFlags table flags).map (·.name)) (leftFlags table flags))) := by
  have hnames := logFlagNames_run table flags false (w.emit (.cont "0x%lx" [.u64 flags]))
  have hfirst : panwrapLogCont "0x%lx" [.u64 flags] w =
    .ok () (w.emit (.cont "0x%lx" [.u64 flags])) := rfl
  unfold panwrapLogDecodedFlags
  rw [bind_ok hfirst, bind_ok hnames, flagEvents, World.emitAll_cons, World.emitAll_append]
  generalize (w.emit (.cont "0x%lx" [.u64 flags])).emitAll _ = w'
  cases shownFlags table flags with
  | nil => exact congrArg (EStateM.Result.ok ()) w'.emitAll_nil.symm
  | cons info shown =>
    -- the text is closed, with the remainder before if there is one
    by_cases h : leftFlags table flags = 0
    · simp only [List.isEmpty_cons, Bool.not_false, Bool.or_true, if_true, h, ne_eq, not_true,
        if_false, flagsEnd, List.map_cons, List.cons_ne_nil]
      rfl
    · simp only [List.isEmpty_cons, Bool.not_false, Bool.or_true, if_true, h, ne_eq,
        not_false_eq_true, flagsEnd, List.map_cons, List.cons_ne_nil, if_false]
      rw [World.emitAll_cons]
      rfl

/-- All of the text continues a line. -/
theorem flagEvents_conts (flags : U64) (names : List String) (rest : U64) :
    ∀ e ∈ flagEvents flags names rest, ∃ f args, e = .cont f args ∧ f ≠ "\n" := by
  have hnames (found : Bool) (names : List String) :
      ∀ e ∈ nameEvents found names, ∃ f args, e = .cont f args ∧ f ≠ "\n" := by
    induction names generalizing found with
    | nil => exact fun e he => absurd he List.not_mem_nil
    | cons name names ih =>
      intro e he
      obtain rfl | he := List.mem_cons.mp he
      · exact ⟨_, _, rfl, by cases found <;> decide⟩
      · obtain rfl | he := List.mem_cons.mp he
        · exact ⟨_, _, rfl, by decide⟩
        · exact ih true e he
  intro e he
  obtain rfl | he := List.mem_cons.mp he
  · exact ⟨_, _, rfl, by decide⟩
  obtain he | he := List.mem_append.mp he
  · exact hnames false names e he
  · unfold flagsEnd at he
    split_ifs at he
    · exact absurd he List.not_mem_nil
    · simp only [List.mem_cons, List.not_mem_nil, or_false] at he
      obtain rfl | rfl := he
      · exact ⟨_, _, rfl, by decide⟩
      · exact ⟨_, _, rfl, by decide⟩
    · rw [List.mem_singleton.mp he]
      exact ⟨_, _, rfl, by decide⟩

section Texts

variable {flags rest : U64} {names : List String}

def Event.flagName : Event → Option String
  | .cont format [.str name] => if format = "%s" then some name else none
  | _ => none

def Event.flagRemainder : Event → Option U64
  | .cont format [.u64 rest] => if format = " | 0x%lx" then some rest else none
  | _ => none

def printedNames (es : List Event) : List String := es.filterMap Event.flagName

/-- What a text of `flags` gives besides names. Without a name this is the whole word. -/
def printedRemainder (flags : U64) (es : List Event) : U64 :=
  if printedNames es = [] then flags else (es.findSome? Event.flagRemainder).getD 0

theorem printedNames_nameEvents (found : Bool) (names : List String) :
    printedNames (nameEvents found names) = names := by
  induction names generalizing found with
  | nil => rfl
  | cons name names ih => exact congrArg (name :: ·) (ih true)

theorem flagRemainder_nameEvents (found : Bool) (names : List String) :
    (nameEvents found names).findSome? Event.flagRemainder = none := by
  induction names generalizing found with
  | nil => rfl
  | cons name names ih => exact ih true

theorem printedNames_flagEvents (flags : U64) (names : List String) (rest : U64) :
    printedNames (flagEvents flags names rest) = names := by
  have hend : printedNames (flagsEnd names rest) = [] := by
    unfold flagsEnd
    split_ifs <;> rfl
  show printedNames (nameEvents false names ++ flagsEnd names rest) = names
  unfold printedNames at hend ⊢
  rw [List.filterMap_append, hend, List.append_nil]
  exact printedNames_nameEvents false names

theorem printedRemainder_flagEvents (hrest : names = [] → rest = flags) :
    printedRemainder flags (flagEvents flags names rest) = rest := by
  unfold printedRemainder
  rw [printedNames_flagEvents]
  by_cases hnames : names = []
  · rw [if_pos hnames, hrest hnames]
  · rw [if_neg hnames]
    show ((nameEvents false names ++ flagsEnd names rest).findSome?
      Event.flagRemainder).getD 0 = rest
    rw [List.findSome?_append, flagRemainder_nameEvents, flagsEnd, if_neg hnames]
    by_cases h : rest = 0
    · rw [h]
      rfl
    · rw [if_pos h]
      rfl

/-- The parenthesis is opened before the first name. -/
theorem opened_iff : .cont " (" [] ∈ flagEvents flags names rest ↔ names ≠ [] := by
  cases names with
  | nil => simp [flagEvents, nameEvents, flagsEnd]
  | cons name names => simp [flagEvents, nameEvents]

theorem closed_iff : .cont ")" [] ∈ flagEvents flags names rest ↔ names ≠ [] := by
  have hnames (found : Bool) (names : List String) : .cont ")" [] ∉ nameEvents found names := by
    induction names generalizing found with
    | nil => exact List.not_mem_nil
    | cons name names ih => cases found <;> simp [nameEvents, ih]
  cases names with
  | nil => simp [flagEvents, nameEvents, flagsEnd]
  | cons name names =>
    have hend : .cont ")" [] ∈ flagsEnd (name :: names) rest := by
      rw [flagsEnd, if_neg (List.cons_ne_nil _ _)]
      by_cases h : rest ≠ 0
      · rw [if_pos h]
        exact List.mem_cons_of_mem _ List.mem_cons_self
      · rw [if_neg h]
        exact List.mem_cons_self
    have hmem : .cont ")" [] ∈ flagEvents flags (name :: names) rest :=
      List.mem_cons_of_mem _ (List.mem_append_right _ hend)
    exact ⟨fun _ => List.cons_ne_nil _ _, fun _ => hmem⟩

end Texts

/-- The text `es` of `flags` names the entries `shown` of the table. -/
structure FlagsAccounted (table : List PanwrapFlagInfo) (flags : U64) (es : List Event)
    (shown : List PanwrapFlagInfo) : Prop where
  names : printedNames es = shown.map (·.name)
  inOrder : shown.Sublist table
  whole : Masks.union (shown.map (·.flag)) ||| printedRemainder flags es = flags
  disjoint : (shown.map (·.flag) ++ [printedRemainder flags es]).Pairwise fun a b => a &&& b = 0
  maximal : ∀ info ∈ table,
    info.flag ≠ 0 → printedRemainder flags es &&& info.flag ≠ info.flag
  closed : .cont ")" [] ∈ es ↔ .cont " (" [] ∈ es

/-- Without a name nothing is taken out of the word. -/
theorem leftFlags_of_shown_nil {table : List PanwrapFlagInfo} {flags : U64}
    (h : shownFlags table flags = []) : leftFlags table flags = flags := by
  have hwhole := Masks.union_taken_or_left (·.flag) table flags
  unfold shownFlags at h
  rw [h] at hwhole
  exact BitVec.zero_or.symm.trans hwhole

theorem flagEvents_accounted (table : List PanwrapFlagInfo) (flags : U64) :
    FlagsAccounted table flags
      (flagEvents flags ((shownFlags table flags).map (·.name)) (leftFlags table flags))
      (shownFlags table flags) := by
  have hrest : printedRemainder flags
      (flagEvents flags ((shownFlags table flags).map (·.name)) (leftFlags table flags)) =
        leftFlags table flags := by
    apply printedRemainder_flagEvents
    intro h
    exact leftFlags_of_shown_nil (List.map_eq_nil_iff.mp h)
  constructor
  · exact printedNames_flagEvents _ _ _
  · exact Masks.taken_sublist _ table flags
  · rw [hrest]
    exact Masks.union_taken_or_left (·.flag) table flags
  · rw [hrest]
    exact Masks.pairwise_disjoint (·.flag) table flags
  · rw [hrest]
    intro info hinfo hflag hleft
    exact hflag (Masks.mask_eq_zero_of_left (·.flag) table flags info hinfo hleft)
  · rw [opened_iff, closed_iff]

/-- Whatever the table, a word is printed with names and a remainder that have every bit of it
once. -/
theorem decoded_flags_accounted (table : List PanwrapFlagInfo) (flags : U64) (w : World) :
    ∃ w' es shown, panwrapLogDecodedFlags table flags w = .ok () w' ∧
      w'.trace = w.trace ++ es ∧ FlagsAccounted table flags es shown :=
  ⟨_, _, shownFlags table flags, panwrapLogDecodedFlags_run table flags w, rfl,
    flagEvents_accounted table flags⟩

end Panloader
