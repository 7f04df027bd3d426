import Panloader.Histories
import Panloader.PrintedLines
import Panloader.Submission

/-! The pre-dependencies that are listed for the atoms of a submission. Atom `i` has its element
`pre_dep[i]` listed, twice. -/
namespace Panloader
open Effects Histories

set_option synthInstance.maxSize 4000

/-- The list of pre-dependencies goes from the change of the indent after its title to the next
change. -/
inductive Phase
  | outside
  | announced
  | listing
deriving DecidableEq

/-- The line that begins the block of an atom, and the two parts of a listed dependency, with
their arguments. -/
inductive AtomToken
  | atom (args : List Arg)
  | atomId (args : List Arg)
  | type (args : List Arg)
deriving DecidableEq

/-- The tokens printed, and the reads made where dependencies were listed: how many atoms had
begun, the address and the size. -/
structure AtomLog where
  tokens : List AtomToken
  reads : List (ℕ × U64 × ℕ)
  atoms : ℕ
  phase : Phase

def AtomLog.report (s : AtomLog) (token : AtomToken) : AtomLog :=
  if s.phase = .listing then { s with tokens := s.tokens ++ [token] } else s

def AtomLog.indent (s : AtomLog) : AtomLog :=
  match s.phase with
  | .outside => s
  | .announced => { s with phase := .listing }
  | .listing => { s with phase := .outside }

def atomFormat : String := "jc = 0x%lx\n"
def dependenciesFormat : String := "Pre-dependencies:\n"
def atomIdFormat : String := "atom_id = %d flags == "

def atomObserver : Observer AtomLog where
  line s format args :=
    if format = atomFormat then { s with tokens := s.tokens ++ [.atom args], atoms := s.atoms+1 }
    else if format = dependenciesFormat then { s with phase := .announced }
    else if format = atomIdFormat then s.report (.atomId args)
    else s
  cont s format args := if format = "0x%lx" then s.report (.type args) else s
  load s a n :=
    if s.phase = .listing then { s with reads := s.reads ++ [(s.atoms, a, n)] } else s
  indent := AtomLog.indent

/-- `pre_dep[j]` of the atom at `a`. -/
def preDep (a : U64) (j : ℕ) : U64 := a + 36 + 2 * BitVec.ofNat 64 j

/-- What is listed for the dependency at `dep`: its `atom_id` and its `dependency_type`. -/
def dependencyTokens (mem : Memory) (dep : U64) : List AtomToken :=
  [.atomId [.int (mem.read dep 1).toNat], .type [.u64 ((mem.read (dep + 1) 1).setWidth 64)]]

def dependencyReads (atoms : ℕ) (dep : U64) : List (ℕ × U64 × ℕ) :=
  [(atoms, dep, 1), (atoms, dep + 1, 1)]

section Lines

variable {t : Tracker} {mem : Memory} {s : AtomLog}

/-- Between the lists only the first lines of the blocks and the titles of the lists count. -/
theorem outside_shows {m : Wrap Unit} {F : List String} [Prints m F] (hs : s.phase = .outside)
    (hF : ∀ f ∈ F, f ≠ atomFormat ∧ f ≠ dependenciesFormat) :
    Shows atomObserver t mem s m () s := by
  have hreport (token : AtomToken) : s.report token = s := by simp [AtomLog.report, hs]
  apply Shows.prints
  · intro f hf args
    show (if f = atomFormat then _ else if f = dependenciesFormat then _ else
      if f = atomIdFormat then s.report (.atomId args) else s) = s
    rw [if_neg (hF f hf).1, if_neg (hF f hf).2, hreport, ite_self]
  · intro f args
    show (if f = "0x%lx" then s.report (.type args) else s) = s
    rw [hreport, ite_self]
  · intro a n
    show (if s.phase = .listing then _ else s) = s
    rw [hs]
    rfl
  · show s.indent = s
    simp [AtomLog.indent, hs]

theorem outside_load (hs : s.phase = .outside) (n : ℕ) (a : U64) :
    Shows atomObserver t mem s (load n a) (mem.read a n) s := by
  have hload := @Shows.load _ atomObserver t mem s n a
  have hsame : atomObserver.load s a n = s := by
    show (if s.phase = .listing then _ else s) = s
    rw [hs]
    rfl
  rwa [hsame] at hload

theorem otherCont_shows {format : String} (h : format ≠ "0x%lx") (args : List Arg) :
    Shows atomObserver t mem s (panwrapLogCont format args) () s := by
  have hcont := @Shows.cont _ atomObserver t mem s format args
  have hsame : atomObserver.cont s format args = s := if_neg h
  rwa [hsame] at hcont

/-- The names of flags are continued lines of other formats. -/
theorem logFlagNames_shows (info : List PanwrapFlagInfo) (flags : U64) (found : Bool) :
    ∃ v, Shows atomObserver t mem s (logFlagNames info flags found) v s := by
  induction info generalizing flags found with
  | nil => exact ⟨_, Shows.pure _⟩
  | cons i rest ih =>
    unfold logFlagNames
    by_cases hflag : flags &&& i.flag ≠ i.flag
    · rw [if_pos hflag]
      exact ih flags found
    · rw [if_neg hflag]
      obtain ⟨v, hv⟩ := ih (flags &&& ~~~i.flag) true
      refine ⟨v, (otherCont_shows ?_ []).bind ((otherCont_shows (by decide) _).bind hv)⟩
      cases found <;> decide

theorem panwrapLogDecodedFlags_shows (info : List PanwrapFlagInfo) (flags : U64) :
    Shows atomObserver t mem s (panwrapLogDecodedFlags info flags) ()
      (s.report (.type [.u64 flags])) := by
  unfold panwrapLogDecodedFlags
  apply (Shows.cont "0x%lx" [.u64 flags]).bind
  obtain ⟨v, hv⟩ := @logFlagNames_shows t mem (s.report (.type [.u64 flags])) info flags false
  apply hv.bind
  split_ifs
  · exact (otherCont_shows (by decide) _).bind (otherCont_shows (by decide) _)
  · exact (Shows.pure ()).bind (otherCont_shows (by decide) _)
  · exact Shows.pure ()

theorem listing_load (hs : s.phase = .listing) (n : ℕ) (a : U64) :
    Shows atomObserver t mem s (load n a) (mem.read a n)
      { s with reads := s.reads ++ [(s.atoms, a, n)] } := by
  have hload := @Shows.load _ atomObserver t mem s n a
  have hread : atomObserver.load s a n = { s with reads := s.reads ++ [(s.atoms, a, n)] } :=
    if_pos hs
  rwa [hread] at hload

theorem listing_atomId (hs : s.phase = .listing) (args : List Arg) :
    Shows atomObserver t mem s (panwrapLog atomIdFormat args) ()
      { s with tokens := s.tokens ++ [.atomId args] } := by
  have hline := @Shows.log _ atomObserver t mem s atomIdFormat args
  have hreport : atomObserver.line s atomIdFormat args = s.report (.atomId args) := rfl
  rw [hreport, AtomLog.report, if_pos hs] at hline
  exact hline

/-- Both turns list the same element. -/
theorem logPreDependencies_shows (hs : s.phase = .outside) (a : U64) (i : ℕ) :
    Shows atomObserver t mem s (logPreDependencies a i) ()
      { s with
        tokens := s.tokens ++ (dependencyTokens mem (preDep a i) ++
          dependencyTokens mem (preDep a i))
        reads := s.reads ++ (dependencyReads s.atoms (preDep a i) ++
          dependencyReads s.atoms (preDep a i)) } := by
  let states (j : ℕ) : AtomLog :=
    { s with
      tokens := s.tokens ++ (List.range j).flatMap fun _ => dependencyTokens mem (preDep a i)
      reads := s.reads ++ (List.range j).flatMap fun _ => dependencyReads s.atoms (preDep a i)
      phase := .listing }
  have hturn (j : ℕ) : Shows atomObserver t mem (states j) (do
      let dep := a + 36 + 2 * BitVec.ofNat 64 i
      panwrapLog atomIdFormat [.int (← load8 dep).toNat]
      panwrapLogDecodedFlags maliJdDepTypeFlagInfo ((← load8 (dep + 1)).setWidth 64)
      panwrapLogCont "\n" []) () (states (j+1)) := by
    have hnext : states (j+1) =
        { states j with
          tokens := (states j).tokens ++ [.atomId [.int (mem.read (preDep a i) 1).toNat]] ++
            [.type [.u64 ((mem.read (preDep a i + 1) 1).setWidth 64)]]
          reads := (states j).reads ++ [(s.atoms, preDep a i, 1)] ++
            [(s.atoms, preDep a i + 1, 1)] } := by
      simp [states, List.range_succ, dependencyTokens, dependencyReads]
    rw [hnext]
    apply (listing_load rfl 1 _).bind
    apply (listing_atomId rfl _).bind
    apply (listing_load rfl 1 _).bind
    apply (panwrapLogDecodedFlags_shows _ _).bind
    exact otherCont_shows (by decide) []
  -- the title, and the change of the indent after it
  have hstart : (atomObserver.line s dependenciesFormat []).indent = states 0 := by
    have htitle : atomObserver.line s dependenciesFormat [] = { s with phase := .announced } := rfl
    rw [htitle]
    simp [AtomLog.indent, states]
  have hend : (states 2).indent = { s with
      tokens := s.tokens ++ (dependencyTokens mem (preDep a i) ++
        dependencyTokens mem (preDep a i))
      reads := s.reads ++ (dependencyReads s.atoms (preDep a i) ++
        dependencyReads s.atoms (preDep a i)) } := by
    simp [AtomLog.indent, states, hs, List.range_succ]
  unfold logPreDependencies
  apply (Shows.log dependenciesFormat []).bind
  apply Shows.indentIncr.bind
  show Shows atomObserver t mem (atomObserver.line s dependenciesFormat []).indent _ _ _
  rw [hstart, ← hend]
  exact (Shows.forInt hturn 2).bind Shows.indentDecr

/-- The block of atom `i`, at `a`. -/
theorem decodeAtom_shows (hs : s.phase = .outside) (a : U64) (i : ℕ) :
    Shows atomObserver t mem s (decodeAtom a i) ()
      { s with
        tokens := s.tokens ++ [.atom [.u64 (mem.read a 8)]] ++
          (dependencyTokens mem (preDep a i) ++ dependencyTokens mem (preDep a i))
        reads := s.reads ++ (dependencyReads (s.atoms+1) (preDep a i) ++
          dependencyReads (s.atoms+1) (preDep a i))
        atoms := s.atoms+1 } := by
  let begun : AtomLog :=
    { s with tokens := s.tokens ++ [.atom [.u64 (mem.read a 8)]], atoms := s.atoms+1 }
  have hbegun : begun.phase = .outside := hs
  unfold decodeAtom
  apply (outside_load hs 8 a).bind
  apply (Shows.log atomFormat _).bind
  show Shows atomObserver t mem begun _ _ _
  apply (outside_shows hbegun (by decide)).bind
  apply (outside_shows hbegun (by decide)).bind
  apply (outside_shows hbegun (by decide)).bind
  apply (outside_shows hbegun (by decide)).bind
  apply (outside_shows hbegun (by decide)).bind
  apply (outside_load hbegun 8 _).bind
  apply (outside_load hbegun 8 _).bind
  apply (outside_shows hbegun (by decide)).bind
  apply (outside_load hbegun 2 _).bind
  apply (outside_shows hbegun (by decide)).bind
  apply (outside_load hbegun 8 _).bind
  apply (outside_shows hbegun (by decide)).bind
  apply (outside_load hbegun 2 _).bind
  apply (outside_shows hbegun (by decide)).bind
  apply (logPreDependencies_shows hbegun a i).bind
  apply outside_shows
  · exact hs
  · decide

/-- What has been listed after `n` atoms. -/
def listedAfter (mem : Memory) (ptr : U64) (n : ℕ) : AtomLog where
  tokens := (List.range n).flatMap fun i =>
    .atom [.u64 (mem.read (atomAt mem ptr i) 8)] ::
      (dependencyTokens mem (preDep (atomAt mem ptr i) i) ++
        dependencyTokens mem (preDep (atomAt mem ptr i) i))
  reads := (List.range n).flatMap fun i =>
    dependencyReads (i+1) (preDep (atomAt mem ptr i) i) ++
      dependencyReads (i+1) (preDep (atomAt mem ptr i) i)
  atoms := n
  phase := .outside

theorem ioctlDecodePreJobSubmit_shows {ptr : U64}
    (hstride : mem.read (ptr + 20) 4 = sizeofJdAtomV2) :
    Shows atomObserver t mem ⟨[], [], 0, .outside⟩ (ioctlDecodePreJobSubmit ptr) ()
      (listedAfter mem ptr (nrAtoms mem ptr)) := by
  have hturn (i : ℕ) : Shows atomObserver t mem (listedAfter mem ptr i)
      (decodeAtom (mem.read (ptr + 8) 8 + 48 * BitVec.ofNat 64 i) i) ()
      (listedAfter mem ptr (i+1)) := by
    have hatom := @decodeAtom_shows t mem (listedAfter mem ptr i) rfl (atomAt mem ptr i) i
    have hnext : listedAfter mem ptr (i+1) =
        { listedAfter mem ptr i with
          tokens := (listedAfter mem ptr i).tokens ++
            [.atom [.u64 (mem.read (atomAt mem ptr i) 8)]] ++
            (dependencyTokens mem (preDep (atomAt mem ptr i) i) ++
              dependencyTokens mem (preDep (atomAt mem ptr i) i))
          reads := (listedAfter mem ptr i).reads ++
            (dependencyReads (i+1) (preDep (atomAt mem ptr i) i) ++
              dependencyReads (i+1) (preDep (atomAt mem ptr i) i))
          atoms := i+1 } := by
      simp [listedAfter, List.range_succ]
    rw [hnext]
    exact hatom
  have houtside (n : ℕ) : (listedAfter mem ptr n).phase = .outside := rfl
  show Shows atomObserver t mem (listedAfter mem ptr 0) _ _ _
  unfold ioctlDecodePreJobSubmit
  apply (outside_load (houtside 0) 8 _).bind
  apply (outside_load (houtside 0) 4 _).bind
  apply (outside_load (houtside 0) 4 _).bind
  apply (outside_shows (houtside 0) (by decide)).bind
  apply (outside_shows (houtside 0) (by decide)).bind
  apply (outside_shows (houtside 0) (by decide)).bind
  rw [hstride, if_neg (not_not.mpr rfl)]
  apply (outside_shows (houtside 0) (by decide)).bind
  apply (outside_shows (houtside 0) (by decide)).bind
  apply (Shows.forInt hturn _).bind
  exact outside_shows (houtside _) (by decide)

end Lines

section Claims

variable {mem : Memory}

/-- The block of the atom at `a`, with its own two dependencies. -/
def atomTokens (mem : Memory) (a : U64) : List AtomToken :=
  .atom [.u64 (mem.read a 8)] ::
    (dependencyTokens mem (preDep a 0) ++ dependencyTokens mem (preDep a 1))

/-- The submission at `ptr` is decoded with a block for every atom, in the order of the array,
and nothing but an atom's own two dependencies is read where they are listed. -/
def DependenciesListed (w : World) (ptr : U64) : Prop :=
  ∃ w' es, ioctlDecodePreJobSubmit ptr w = .ok () w' ∧ w'.trace = w.trace ++ es ∧
    (es.foldl atomObserver.step ⟨[], [], 0, .outside⟩).tokens =
      (List.range (nrAtoms w.mem ptr)).flatMap (fun i => atomTokens w.mem (atomAt w.mem ptr i)) ∧
    ∀ r ∈ (es.foldl atomObserver.step ⟨[], [], 0, .outside⟩).reads,
      ∃ i, r.1 = i+1 ∧ (r.2.1 - preDep (atomAt w.mem ptr i) 0).toNat + r.2.2 ≤ 4

/-- The two dependencies of the atom at `a` are the same. -/
def DependenciesAlike (mem : Memory) (a : U64) : Prop :=
  mem.read (preDep a 0) 1 = mem.read (preDep a 1) 1 ∧
    mem.read (preDep a 0 + 1) 1 = mem.read (preDep a 1 + 1) 1

theorem dependencyTokens_eq_iff {d e : U64} :
    dependencyTokens mem d = dependencyTokens mem e ↔
      mem.read d 1 = mem.read e 1 ∧ mem.read (d + 1) 1 = mem.read (e + 1) 1 := by
  have hid (x y : U8) : (x.toNat : ℤ) = y.toNat ↔ x = y := by
    rw [Int.natCast_inj, BitVec.toNat_inj]
  have htype (x y : U8) : x.setWidth 64 = y.setWidth 64 ↔ x = y := by
    rw [← BitVec.toNat_inj, ← BitVec.toNat_inj, BitVec.toNat_setWidth, BitVec.toNat_setWidth,
      Nat.mod_eq_of_lt (by omega), Nat.mod_eq_of_lt (by omega)]
  simp [dependencyTokens, hid, htype]

/-- Listing an element twice lists the two dependencies of the first two atoms if these are
alike. -/
theorem listedTokens_eq_iff {a : U64} {i : ℕ} (hi : i < 2) :
    AtomToken.atom [.u64 (mem.read a 8)] ::
        (dependencyTokens mem (preDep a i) ++ dependencyTokens mem (preDep a i)) =
      atomTokens mem a ↔ DependenciesAlike mem a := by
  have halike : DependenciesAlike mem a ↔
      dependencyTokens mem (preDep a 0) = dependencyTokens mem (preDep a 1) :=
    dependencyTokens_eq_iff.symm
  rw [halike, atomTokens, List.cons_inj_right]
  -- the other of the two is listed for the one that comes second, or first
  obtain rfl | rfl : i = 0 ∨ i = 1 := by omega
  · rw [List.append_cancel_left_eq]
  · rw [List.append_cancel_right_eq, eq_comm]

theorem listedAfter_tokens_iff {ptr : U64} {n : ℕ} (hn : n ≤ 2) :
    (listedAfter mem ptr n).tokens =
        (List.range n).flatMap (fun i => atomTokens mem (atomAt mem ptr i)) ↔
      ∀ i < n, DependenciesAlike mem (atomAt mem ptr i) := by
  have hblocks := flatMap_range_eq_iff (n := n)
    (f := fun i => .atom [.u64 (mem.read (atomAt mem ptr i) 8)] ::
      (dependencyTokens mem (preDep (atomAt mem ptr i) i) ++
        dependencyTokens mem (preDep (atomAt mem ptr i) i)))
    (g := fun i => atomTokens mem (atomAt mem ptr i))
    (fun _ => by simp [atomTokens, dependencyTokens])
  refine hblocks.trans (forall₂_congr fun i hi => ?_)
  exact listedTokens_eq_iff (hi.trans_le hn)

/-- The two dependencies of the first two atoms lie in the four bytes of the array. -/
theorem dependencyReads_inside {a : U64} {i : ℕ} (hi : i < 2) {r : ℕ × U64 × ℕ}
    (hr : r ∈ dependencyReads (i+1) (preDep a i)) :
    r.1 = i+1 ∧ (r.2.1 - preDep a 0).toNat + r.2.2 ≤ 4 := by
  have hsecond : preDep a i + 1 - preDep a 0 = 2 * BitVec.ofNat 64 i + 1 := by
    simp only [preDep]
    grind
  have hfirst : preDep a i - preDep a 0 = 2 * BitVec.ofNat 64 i := by
    simp only [preDep]
    grind
  obtain rfl | rfl := List.mem_pair.mp hr
  · refine ⟨rfl, ?_⟩
    show (preDep a i - preDep a 0).toNat + 1 ≤ 4
    rw [hfirst]
    obtain rfl | rfl : i = 0 ∨ i = 1 := by omega
    · decide
    · decide
  · refine ⟨rfl, ?_⟩
    show (preDep a i + 1 - preDep a 0).toNat + 1 ≤ 4
    rw [hsecond]
    obtain rfl | rfl : i = 0 ∨ i = 1 := by omega
    · decide
    · decide

/-- What is read for the third atom lies after its two dependencies. -/
theorem thirdRead_outside (a : U64) : ¬(preDep a 2 - preDep a 0).toNat + 1 ≤ 4 := by
  have hoffset : preDep a 2 - preDep a 0 = 4 := by
    simp only [preDep]
    grind
  rw [hoffset]
  decide

/-- There are at most two atoms, and the two dependencies of each atom are the same. -/
def FewAtomsAlike (mem : Memory) (ptr : U64) : Prop :=
  nrAtoms mem ptr ≤ 2 ∧ ∀ i < nrAtoms mem ptr, DependenciesAlike mem (atomAt mem ptr i)

theorem DependenciesListed.fewAtomsAlike {w : World} {ptr : U64}
    (hstride : w.mem.read (ptr + 20) 4 = sizeofJdAtomV2) (h : DependenciesListed w ptr) :
    FewAtomsAlike w.mem ptr := by
  obtain ⟨w', es, hr, htrace, htokens, hreads⟩ := h
  rw [Shows.folds (ioctlDecodePreJobSubmit_shows hstride) hr htrace] at htokens hreads
  have hfew : nrAtoms w.mem ptr ≤ 2 := by
    by_contra hthree
    -- the third atom has its element 2 read
    obtain ⟨i, hi, hinside⟩ := hreads (3, preDep (atomAt w.mem ptr 2) 2, 1)
      (List.mem_flatMap.mpr ⟨2, List.mem_range.mpr (by omega), by simp [dependencyReads]⟩)
    obtain rfl : 2 = i := Nat.succ.inj hi
    exact thirdRead_outside _ hinside
  exact ⟨hfew, (listedAfter_tokens_iff hfew).mp htokens⟩

theorem FewAtomsAlike.dependenciesListed {w : World} {ptr : U64}
    (hstride : w.mem.read (ptr + 20) 4 = sizeofJdAtomV2)
    (hchains : ∀ i < nrAtoms w.mem ptr,
      ChainFits w.tracker w.mem (w.mem.read (atomAt w.mem ptr i) 8))
    (h : FewAtomsAlike w.mem ptr) : DependenciesListed w ptr := by
  obtain ⟨hfew, halike⟩ := h
  -- so few atoms can be counted
  have hfits : AtomsFit w.tracker w.mem ptr := ⟨hfew.trans (by decide), hchains⟩
  obtain ⟨w', hr⟩ := ((ioctlDecodePreJobSubmit_decides hstride).returns_iff (Sees.self w)).mpr hfits
  obtain ⟨-, -, es, htrace, hseen⟩ :=
    ioctlDecodePreJobSubmit_shows hstride w () w' (Sees.self w) hr
  refine ⟨w', es, hr, htrace, ?_, ?_⟩
  · rw [hseen]
    exact (listedAfter_tokens_iff hfew).mpr halike
  · rw [hseen]
    intro r hr
    obtain ⟨i, hi, hr⟩ := List.mem_flatMap.mp hr
    have hi : i < 2 := (List.mem_range.mp hi).trans_le hfew
    have hr : r ∈ dependencyReads (i+1) (preDep (atomAt w.mem ptr i) i) :=
      (List.mem_append.mp hr).elim id id
    exact ⟨i, dependencyReads_inside hi hr⟩

/-- Every atom has its own two dependencies listed exactly if there are at most two atoms and
the two dependencies of each are the same. -/
theorem atom_dependencies_iff {w : World} {ptr : U64}
    (hstride : w.mem.read (ptr + 20) 4 = sizeofJdAtomV2)
    (hchains : ∀ i < nrAtoms w.mem ptr,
      ChainFits w.tracker w.mem (w.mem.read (atomAt w.mem ptr i) 8)) :
    DependenciesListed w ptr ↔ FewAtomsAlike w.mem ptr :=
  ⟨fun h => h.fewAtomsAlike hstride, fun h => h.dependenciesListed hstride hchains⟩

/-- `vertexSubmission`, with the `atom_id` of the second dependency of its atom. -/
def dependentSubmission (id : U8) : Memory := fun a =>
  if a = 0x2026 then id else vertexSubmission a

def dependentWorld (id : U8) : World :=
  { World.plain.withMmaps [vertexPage] with mem := dependentSubmission id }

/-- A job that sets a value fits if its header and its payload are found. -/
theorem setValueChain_fits {mem : Memory} {jc h p : U64}
    (hheader : derefGpuMem [vertexPage] (panwrapFindMappedGpuMemContaining [vertexPage] jc) jc
      sizeofJobDescriptorHeader = some h)
    (htype : mem.read (h + 16) 1 >>> 1 = jobTypeSetValue)
    (hpayload : derefGpuMem [vertexPage] (panwrapFindMappedGpuMemContaining [vertexPage] jc)
      (jc + sizeofJobDescriptorHeader) sizeofPayloadSetValue = some p) :
    ChainFits ⟨[], [vertexPage]⟩ mem jc := by
  refine ⟨h, hheader, ?_⟩
  rw [PayloadFits, if_pos htype]
  exact ⟨p, hpayload⟩

theorem dependentChain_fits (id : U8) (hn : nrAtoms (dependentSubmission id) 0x1000 = 1)
    (hjc : (dependentSubmission id).read (atomAt (dependentSubmission id) 0x1000 0) 8 = 0x10000)
    (htype : (dependentSubmission id).read (0x10000 + 16) 1 >>> 1 = jobTypeSetValue) :
    ∀ i < nrAtoms (dependentSubmission id) 0x1000, ChainFits ⟨[], [vertexPage]⟩
      (dependentSubmission id)
      ((dependentSubmission id).read (atomAt (dependentSubmission id) 0x1000 i) 8) := by
  intro i hi
  rw [hn] at hi
  obtain rfl := Nat.lt_one_iff.mp hi
  rw [hjc]
  exact setValueChain_fits (p := 0x10020) (by decide) htype (by decide)

/-- With `atom_id` 1 in the second dependency, 0 is listed for both. -/
theorem atom_dependencies_not_listed :
    (dependentSubmission 1).read (0x1000 + 20) 4 = sizeofJdAtomV2 ∧
      (∀ i < nrAtoms (dependentSubmission 1) 0x1000, ChainFits ⟨[], [vertexPage]⟩
        (dependentSubmission 1)
        ((dependentSubmission 1).read (atomAt (dependentSubmission 1) 0x1000 i) 8)) ∧
      ¬DependenciesListed (dependentWorld 1) 0x1000 := by
  have hstride : (dependentSubmission 1).read (0x1000 + 20) 4 = sizeofJdAtomV2 := by decide
  refine ⟨hstride, dependentChain_fits 1 (by decide) (by decide) (by decide), fun h => ?_⟩
  have hfew : FewAtomsAlike (dependentSubmission 1) 0x1000 :=
    @DependenciesListed.fewAtomsAlike (dependentWorld 1) 0x1000 hstride h
  exact absurd (hfew.2 0 (by decide)).1 (by decide)

/-- Two atoms, one after the other, each with one pair of `atom_id` and type for both its
dependencies, 5 and 1 for the first, 6 and 2 for the second. Their jobs, at 0x10000 and 0x10100, set
a value. -/
def pairedSubmission : Memory := fun a =>
  if a = 0x1010 then 2 else if a = 0x2024 ∨ a = 0x2026 then 5 else if a = 0x2025 ∨ a = 0x2027 then 1
  else if a = 0x2031 ∨ a = 0x2032 then 1 else if a = 0x205c ∨ a = 0x2055 ∨ a = 0x2057 then 2
  else if a = 0x2054 ∨ a = 0x2056 then 6 else if a = 0x10110 then 4 else vertexSubmission a

def pairedWorld : World := { World.plain.withMmaps [vertexPage] with mem := pairedSubmission }

theorem pairedAtoms {i : ℕ} (hi : i < nrAtoms pairedSubmission 0x1000) : i = 0 ∨ i = 1 := by
  have hnr : nrAtoms pairedSubmission 0x1000 = 2 := by decide +kernel
  omega

theorem pairedChains_fit :
    ∀ i < nrAtoms pairedSubmission 0x1000, ChainFits ⟨[], [vertexPage]⟩ pairedSubmission
      (pairedSubmission.read (atomAt pairedSubmission 0x1000 i) 8) := by
  intro i hi
  obtain rfl | rfl := pairedAtoms hi
  · have hjc : pairedSubmission.read (atomAt pairedSubmission 0x1000 0) 8 = 0x10000 := by
      decide +kernel
    have htype : pairedSubmission.read (0x10000 + 16) 1 >>> 1 = jobTypeSetValue := by
      decide +kernel
    rw [hjc]
    exact setValueChain_fits (p := 0x10020) (by decide) htype (by decide)
  · have hjc : pairedSubmission.read (atomAt pairedSubmission 0x1000 1) 8 = 0x10100 := by
      decide +kernel
    have htype : pairedSubmission.read (0x10100 + 16) 1 >>> 1 = jobTypeSetValue := by
      decide +kernel
    rw [hjc]
    exact setValueChain_fits (p := 0x10120) (by decide) htype (by decide)

theorem atom_dependencies_listed_paired : DependenciesListed pairedWorld 0x1000 := by
  have hfew : FewAtomsAlike pairedSubmission 0x1000 := by
    refine ⟨by decide +kernel, fun i hi => ?_⟩
    obtain rfl | rfl := pairedAtoms hi
    · exact ⟨by decide +kernel, by decide +kernel⟩
    · exact ⟨by decide +kernel, by decide +kernel⟩
  have hstride : pairedSubmission.read (0x1000 + 20) 4 = sizeofJdAtomV2 := by decide +kernel
  exact (@atom_dependencies_iff pairedWorld 0x1000 hstride pairedChains_fit).mpr hfew

end Claims
end Panloader
