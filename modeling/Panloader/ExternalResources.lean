import Panloader.AbruptEnds
import Panloader.FlagNames
import Panloader.Submission

/-! The accesses that are named for the external resources of a submission. `SHARED` is 0 in the
header, so its name is printed for every resource. -/
namespace Panloader
open Effects

set_option synthInstance.maxSize 4000

/-- The finished texts of resources, and the one being printed. -/
structure ResourceLog where
  texts : List (List Event)
  current : Option (List Event)

/-- The line of a resource starts with an empty format. -/
def resourceObserver : Observer ResourceLog where
  line s format _ := if format = "" then { s with current := some [] } else s
  cont s format args :=
    match s.current with
    | none => s
    | some es =>
      if format = "\n" then ⟨s.texts ++ [es], none⟩
      else { s with current := some (es ++ [.cont format args]) }
  load s _ _ := s

def resourceTexts (es : List Event) : List (List Event) :=
  (es.foldl resourceObserver.step ⟨[], none⟩).texts

/-- `a->ext_res_list` and `a->nr_ext_res` of the atom at `a`. -/
def extResList (mem : Memory) (a : U64) : U64 := mem.read (a + 24) 8
def nrExtRes (mem : Memory) (a : U64) : ℕ := (mem.read (a + 32) 2).toNat

/-- `a->ext_res_list[j].ext_resource[0]` -/
def resourceWord (mem : Memory) (a : U64) (j : ℕ) : U64 :=
  mem.read (extResList mem a + 16 * BitVec.ofNat 64 j + 8) 8

/-- What `panwrap_log_decoded_flags` prints for a resource. -/
def resourceText (v : U64) : List Event :=
  flagEvents v ((shownFlags externalResourcesAccessFlagInfo v).map (·.name))
    (leftFlags externalResourcesAccessFlagInfo v)

def atomTexts (mem : Memory) (a : U64) : List (List Event) :=
  if extResList mem a ≠ 0 then
    (List.range (nrExtRes mem a)).map fun j => resourceText (resourceWord mem a j)
  else []

section Lines

variable {t : Tracker} {mem : Memory} {T : List (List Event)}

theorem between_shows {m : Wrap Unit} {F : List String} [Prints m F] (hF : "" ∉ F) :
    Shows resourceObserver t mem ⟨T, none⟩ m () ⟨T, none⟩ := by
  apply Shows.prints
  · intro f hf args
    exact if_neg fun hempty : f = "" => hF (hempty ▸ hf)
  · intro f args
    rfl
  · intro a n
    rfl
  · rfl

theorem between_stops {m : Wrap Unit} {F : List String} [Prints m F] (hF : "" ∉ F) :
    Stops resourceObserver t mem ⟨T, none⟩ m (· = ⟨T, none⟩) := by
  apply Stops.prints
  · intro f hf args
    exact if_neg fun hempty : f = "" => hF (hempty ▸ hf)
  · intro f args
    rfl
  · intro a n
    rfl
  · rfl

theorem between_load (n : ℕ) (a : U64) :
    Shows resourceObserver t mem ⟨T, none⟩ (load n a) (mem.read a n) ⟨T, none⟩ :=
  Shows.load n a

/-- A text goes on until its end of line. -/
theorem foldl_conts {es : List Event} (hes : ∀ e ∈ es, ∃ f args, e = .cont f args ∧ f ≠ "\n")
    (text : List Event) :
    es.foldl resourceObserver.step ⟨T, some text⟩ = ⟨T, some (text ++ es)⟩ := by
  induction es generalizing text with
  | nil => rw [List.append_nil]; rfl
  | cons e es ih =>
    obtain ⟨f, args, rfl, hf⟩ := hes e List.mem_cons_self
    have hstep : resourceObserver.step ⟨T, some text⟩ (.cont f args) =
        ⟨T, some (text ++ [.cont f args])⟩ := if_neg hf
    rw [List.foldl_cons, hstep, ih fun e he => hes e (List.mem_cons_of_mem _ he),
      List.append_assoc, List.singleton_append]

theorem resourceLine_shows (v : U64) :
    Shows resourceObserver t mem ⟨T, none⟩ (logFlagsLine "" externalResourcesAccessFlagInfo v) ()
      ⟨T ++ [resourceText v], none⟩ := by
  unfold logFlagsLine
  -- the line with the empty format opens a text
  apply (Shows.log "" []).bind
  show Shows resourceObserver t mem ⟨T, some []⟩ _ _ _
  have htext : Shows resourceObserver t mem ⟨T, some []⟩
      (panwrapLogDecodedFlags externalResourcesAccessFlagInfo v) () ⟨T, some (resourceText v)⟩ := by
    have hemits := @Shows.emits _ _ resourceObserver t mem ⟨T, some []⟩ _ _ _
      fun w => panwrapLogDecodedFlags_run externalResourcesAccessFlagInfo v w
    rw [foldl_conts (flagEvents_conts _ _ _)] at hemits
    exact hemits
  apply htext.bind
  exact Shows.cont "\n" []

theorem logExternalResources_shows (list : U64) (nr : U16) :
    Shows resourceObserver t mem ⟨T, none⟩ (logExternalResources list nr) ()
      ⟨T ++ if list ≠ 0 then (List.range nr.toNat).map fun j =>
        resourceText (mem.read (list + 16 * BitVec.ofNat 64 j + 8) 8) else [], none⟩ := by
  let states (j : ℕ) : ResourceLog :=
    ⟨T ++ (List.range j).map fun j =>
      resourceText (mem.read (list + 16 * BitVec.ofNat 64 j + 8) 8), none⟩
  have hturn (j : ℕ) : Shows resourceObserver t mem (states j) (do
      logFlagsLine "" externalResourcesAccessFlagInfo
        (← load64 (list + 16 * BitVec.ofNat 64 j + 8))) () (states (j+1)) := by
    have hnext : states (j+1) =
        ⟨(states j).texts ++ [resourceText (mem.read (list + 16 * BitVec.ofNat 64 j + 8) 8)],
          none⟩ := by
      simp [states, List.range_succ]
    rw [hnext]
    exact (between_load 8 _).bind (resourceLine_shows _)
  have hstart : (⟨T, none⟩ : ResourceLog) = states 0 := by simp [states]
  unfold logExternalResources
  by_cases hlist : list ≠ 0
  · rw [if_pos hlist, if_pos hlist]
    apply (between_load 8 _).bind
    apply (between_shows (by decide)).bind
    apply (between_shows (by decide)).bind
    apply (between_shows (by decide)).bind
    -- one text for each resource
    rw [hstart]
    apply (Shows.forInt hturn _).bind
    exact between_shows (by decide)
  · rw [if_neg hlist, if_neg hlist, List.append_nil]
    exact between_shows (by decide)

theorem resourcesOfAtom_shows (a : U64) (i : ℕ) :
    Shows resourceObserver t mem ⟨T, none⟩ (decodeAtom a i) () ⟨T ++ atomTexts mem a, none⟩ := by
  unfold decodeAtom
  apply (between_load 8 a).bind
  apply (between_shows (by decide)).bind
  apply (between_shows (by decide)).bind
  apply (between_shows (by decide)).bind
  apply (between_shows (by decide)).bind
  apply (between_shows (by decide)).bind
  apply (between_shows (by decide)).bind
  apply (between_load 8 _).bind
  apply (between_load 8 _).bind
  apply (between_shows (by decide)).bind
  apply (between_load 2 _).bind
  apply (between_shows (by decide)).bind
  apply (between_load 8 _).bind
  apply (logExternalResources_shows _ _).bind
  exact between_shows (by decide)

/-- An atom stops the decoder in its job chain, if at all. -/
theorem resourcesOfAtom_stops (a : U64) (i : ℕ) :
    Stops resourceObserver t mem ⟨T, none⟩ (decodeAtom a i) (· = ⟨T, none⟩) := by
  unfold decodeAtom
  apply Stops.load
  apply Stops.seq (between_shows (by decide))
  apply Stops.seq (between_shows (by decide))
  apply Stops.seq (between_shows (by decide))
  apply Stops.seq (between_shows (by decide))
  -- the job chain, behind which nothing stops the decoder
  apply (between_stops (by decide)).bind (between_shows (by decide))
  apply @Stops.of_total _ _ _ _ _ _ _ _ ?_
  repeat refine @total_bind _ _ _ _ _ _ _ inferInstance fun _ => ?_
  infer_instance

/-- The texts of the first `k` atoms of the submission at `ptr`. -/
def textsAfter (mem : Memory) (ptr : U64) (k : ℕ) : ResourceLog :=
  ⟨(List.range k).flatMap fun i => atomTexts mem (atomAt mem ptr i), none⟩

theorem resourceTurn_shows (ptr : U64) (i : ℕ) :
    Shows resourceObserver t mem (textsAfter mem ptr i) (decodeAtom (atomAt mem ptr i) i) ()
      (textsAfter mem ptr (i+1)) := by
  have hnext : textsAfter mem ptr (i+1) =
      ⟨(textsAfter mem ptr i).texts ++ atomTexts mem (atomAt mem ptr i), none⟩ := by
    simp [textsAfter, List.range_succ]
  rw [hnext]
  exact resourcesOfAtom_shows (atomAt mem ptr i) i

def AtomFits (t : Tracker) (mem : Memory) (ptr : U64) (i : ℕ) : Prop :=
  ChainFits t mem (mem.read (atomAt mem ptr i) 8)

theorem resourcesOfSubmission_shows {ptr : U64} (hstride : mem.read (ptr + 20) 4 = sizeofJdAtomV2) :
    Shows resourceObserver t mem ⟨[], none⟩ (ioctlDecodePreJobSubmit ptr) ()
      (textsAfter mem ptr (nrAtoms mem ptr)) := by
  show Shows resourceObserver t mem (textsAfter mem ptr 0) _ _ _
  unfold ioctlDecodePreJobSubmit
  apply (between_load 8 _).bind
  apply (between_load 4 _).bind
  apply (between_load 4 _).bind
  apply (between_shows (by decide)).bind
  apply (between_shows (by decide)).bind
  apply (between_shows (by decide)).bind
  rw [hstride, if_neg (not_not.mpr rfl)]
  apply (between_shows (by decide)).bind
  apply (between_shows (by decide)).bind
  apply (Shows.forInt (resourceTurn_shows ptr) _).bind
  exact between_shows (by decide)

theorem resourcesOfSubmission_stops {ptr : U64} (hstride : mem.read (ptr + 20) 4 = sizeofJdAtomV2) :
    Stops resourceObserver t mem ⟨[], none⟩ (ioctlDecodePreJobSubmit ptr)
      (fun s => ∃ k, TurnsCompleted (nrAtoms mem ptr) (AtomFits t mem ptr) k ∧
        s = textsAfter mem ptr k) := by
  have hloop := Stops.forInt (fun i => @decodeAtom_decides t mem (atomAt mem ptr i) i)
    (resourceTurn_shows ptr) (fun i => resourcesOfAtom_stops (atomAt mem ptr i) i)
    (nrAtoms mem ptr)
  show Stops resourceObserver t mem (textsAfter mem ptr 0) _ _
  unfold ioctlDecodePreJobSubmit
  apply Stops.load
  apply Stops.load
  apply Stops.load
  apply Stops.seq (between_shows (by decide))
  apply Stops.seq (between_shows (by decide))
  apply Stops.seq (between_shows (by decide))
  rw [hstride, if_neg (not_not.mpr rfl)]
  apply Stops.seq (between_shows (by decide))
  apply Stops.seq (between_shows (by decide))
  exact hloop.bind (Shows.forInt (resourceTurn_shows ptr) _) Stops.of_total

/-- Without atoms of the expected size none is decoded. -/
theorem resourcesOfMismatch_shows {ptr : U64} (hstride : mem.read (ptr + 20) 4 ≠ sizeofJdAtomV2) :
    Shows resourceObserver t mem ⟨[], none⟩ (ioctlDecodePreJobSubmit ptr) () ⟨[], none⟩ := by
  unfold ioctlDecodePreJobSubmit
  apply (between_load 8 _).bind
  apply (between_load 4 _).bind
  apply (between_load 4 _).bind
  apply (between_shows (by decide)).bind
  apply (between_shows (by decide)).bind
  apply (between_shows (by decide)).bind
  rw [if_pos hstride]
  exact between_shows (by decide)

theorem mismatch_decides {ptr : U64} (hstride : mem.read (ptr + 20) 4 ≠ sizeofJdAtomV2) :
    Decides (Sees t mem) (ioctlDecodePreJobSubmit ptr) True := by
  unfold ioctlDecodePreJobSubmit
  refine Decides.load64 (Decides.load32 (Decides.load32 ?_))
  repeat refine Decides.seq fun _ => ?_
  rw [if_pos hstride]
  exact Decides.of_total

end Lines

section Claims

variable {w : World} {ptr : U64}

/-- The texts of a submission are those of the atoms up to the one that stops the decoder. -/
theorem resourceTexts_eq (hstride : w.mem.read (ptr + 20) 4 = sizeofJdAtomV2) :
    ∃ k, TurnsCompleted (nrAtoms w.mem ptr) (AtomFits w.tracker w.mem ptr) k ∧
      resourceTexts (w.eventsOf (ioctlDecodePreJobSubmit ptr)) =
        (List.range k).flatMap fun i => atomTexts w.mem (atomAt w.mem ptr i) := by
  obtain ⟨hfits, hend⟩ | ⟨-, k, hk, hend⟩ := foldl_eventsOf
    (ioctlDecodePreJobSubmit_decides hstride) (resourcesOfSubmission_shows hstride)
    (resourcesOfSubmission_stops hstride)
  · exact ⟨_, .of_all hfits.1 hfits.2, congrArg ResourceLog.texts hend⟩
  · exact ⟨k, hk, congrArg ResourceLog.texts hend⟩

theorem resourceTexts_of_mismatch (hstride : w.mem.read (ptr + 20) 4 ≠ sizeofJdAtomV2) :
    resourceTexts (w.eventsOf (ioctlDecodePreJobSubmit ptr)) = [] := by
  have htotal : Total (Sees w.tracker w.mem) (ioctlDecodePreJobSubmit ptr) :=
    total_of_decides (mismatch_decides hstride) trivial
  obtain ⟨-, hend⟩ | ⟨hfalse, -⟩ := foldl_eventsOf (E := fun _ => False)
    (mismatch_decides hstride) (resourcesOfMismatch_shows hstride) Stops.of_total
  · exact congrArg ResourceLog.texts hend
  · exact absurd trivial hfalse

/-- The text names the access that bit 0 of its word says, and not the other one. -/
def AccessNamed (text : List Event) : Prop :=
  ∃ v, text.head? = some (.cont "0x%lx" [.u64 v]) ∧
    ("MALI_EXT_RES_ACCESS_EXCLUSIVE" ∈ printedNames text ↔ v.getLsbD 0 = true) ∧
    ("MALI_EXT_RES_ACCESS_SHARED" ∈ printedNames text ↔ v.getLsbD 0 = false)

/-- A mask of 0 is found in every word. -/
theorem shownFlags_access (v : U64) :
    (shownFlags externalResourcesAccessFlagInfo v).map (·.name) =
      if v.getLsbD 0 then ["MALI_EXT_RES_ACCESS_SHARED", "MALI_EXT_RES_ACCESS_EXCLUSIVE"]
      else ["MALI_EXT_RES_ACCESS_SHARED"] := by
  have hshared : v &&& 0 = 0 := BitVec.and_zero
  have hrest : v &&& ~~~0 = v := BitVec.and_allOnes
  have hexclusive : v &&& 1 = 1 ↔ v.getLsbD 0 = true := by
    constructor
    · intro h
      have hbit := congrArg (fun u : U64 => u.getLsbD 0) h
      simpa using hbit
    · intro h
      ext i hi
      by_cases hzero : i = 0
      · subst hzero
        simpa using h
      · simp [hzero]
  simp only [shownFlags, externalResourcesAccessFlagInfo, Masks.taken, hshared, hrest, if_true]
  by_cases h : v.getLsbD 0 = true
  · rw [if_pos (hexclusive.mpr h), if_pos h]
    rfl
  · rw [if_neg (mt hexclusive.mp h), if_neg h]
    rfl

theorem resourceText_accessNamed_iff (v : U64) :
    AccessNamed (resourceText v) ↔ v.getLsbD 0 = false := by
  have hnames : printedNames (resourceText v) =
      if v.getLsbD 0 then ["MALI_EXT_RES_ACCESS_SHARED", "MALI_EXT_RES_ACCESS_EXCLUSIVE"]
      else ["MALI_EXT_RES_ACCESS_SHARED"] :=
    (printedNames_flagEvents _ _ _).trans (shownFlags_access v)
  constructor
  · rintro ⟨u, hu, -, hshared⟩
    have hword : (resourceText v).head? = some (.cont "0x%lx" [.u64 v]) := rfl
    obtain rfl : v = u := by simpa using hword.symm.trans hu
    apply hshared.mp
    -- SHARED is named for every word
    rw [hnames]
    split_ifs <;> decide
  · intro h
    refine ⟨v, rfl, ?_⟩
    rw [hnames, h]
    decide

/-- Every resource of the submission at `ptr` that is printed has its access named as it is. -/
def ResourcesNamed (w : World) (ptr : U64) : Prop :=
  ∀ text ∈ resourceTexts (w.eventsOf (ioctlDecodePreJobSubmit ptr)), AccessNamed text

/-- Bit 0 is clear in all resource words of the atom at `a`. -/
def ResourcesShared (mem : Memory) (a : U64) : Prop :=
  extResList mem a ≠ 0 → ∀ j < nrExtRes mem a, (resourceWord mem a j).getLsbD 0 = false

theorem atomTexts_accessNamed_iff {mem : Memory} {a : U64} :
    (∀ text ∈ atomTexts mem a, AccessNamed text) ↔ ResourcesShared mem a := by
  unfold atomTexts ResourcesShared
  by_cases hlist : extResList mem a ≠ 0
  · rw [if_pos hlist]
    simp only [List.forall_mem_map, List.mem_range, resourceText_accessNamed_iff, hlist,
      not_false_eq_true, ne_eq, forall_const]
  · rw [if_neg hlist]
    exact iff_of_true (fun _ h => absurd h List.not_mem_nil) fun h => absurd h hlist

theorem resourcesNamed_iff_of_stride (hstride : w.mem.read (ptr + 20) 4 = sizeofJdAtomV2) :
    ResourcesNamed w ptr ↔
      ∀ i < nrAtoms w.mem ptr, i ≤ intMax → (∀ j ≤ i, AtomFits w.tracker w.mem ptr j) →
        ResourcesShared w.mem (atomAt w.mem ptr i) := by
  obtain ⟨k, hk, htexts⟩ := resourceTexts_eq hstride
  unfold ResourcesNamed
  rw [htexts, hk.forall_iff]
  simp only [List.mem_flatMap, List.mem_range, ← atomTexts_accessNamed_iff]
  constructor
  · intro h i hi text htext
    exact h text ⟨i, hi, htext⟩
  · rintro h text ⟨i, hi, htext⟩
    exact h i hi text htext

/-- Of the two accesses exactly the right one is named for every resource if and only if no
resource is exclusive, among those of the atoms up to the one that stops the decoder. -/
theorem resources_named_iff (w : World) (ptr : U64) :
    ResourcesNamed w ptr ↔
      (w.mem.read (ptr + 20) 4 = sizeofJdAtomV2 →
        ∀ i < nrAtoms w.mem ptr, i ≤ intMax → (∀ j ≤ i, AtomFits w.tracker w.mem ptr j) →
          ResourcesShared w.mem (atomAt w.mem ptr i)) := by
  by_cases hstride : w.mem.read (ptr + 20) 4 = sizeofJdAtomV2
  · rw [resourcesNamed_iff_of_stride hstride, forall_prop_of_true hstride]
  · unfold ResourcesNamed
    rw [resourceTexts_of_mismatch hstride]
    exact iff_of_true (fun _ h => absurd h List.not_mem_nil) fun h => absurd h hstride

/-- `vertexSubmission`, with one resource of the atom, whose word is 1. -/
def exclusiveSubmission : Memory := fun a =>
  if a = 0x2019 then 0x30 else if a = 0x2020 then 1 else if a = 0x3008 then 1
  else vertexSubmission a

/-- A resource with exclusive access is named as a shared one, too. -/
theorem exclusive_resource_named_shared :
    ¬ResourcesNamed { World.plain.withMmaps [vertexPage] with mem := exclusiveSubmission }
      0x1000 := by
  intro h
  have hshared := (@resourcesNamed_iff_of_stride { World.plain.withMmaps [vertexPage] with
    mem := exclusiveSubmission } 0x1000 (by decide)).mp h 0 (by decide) (Nat.zero_le _) ?_
    (by decide) 0 (by decide)
  · exact absurd hshared (by decide)
  · intro j hj
    obtain rfl := Nat.le_zero.mp hj
    refine ⟨0x10000, by decide, ?_⟩
    rw [PayloadFits, if_pos (by decide)]
    exact ⟨0x10020, by decide⟩

end Claims
end Panloader
