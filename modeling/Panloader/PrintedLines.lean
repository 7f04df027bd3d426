import Panloader.JobChains
import Panloader.Observers

/-! Which lines a decoder may print. The formats are collected from the parts of a decoder, so
that one that prints none of the lines an observer looks for is seen to be so. -/
namespace Panloader
open Effects

set_option synthInstance.maxSize 4000

/-- `w'` comes after `w`, with the same tracker and memory and only lines of these formats
printed. -/
def Printed (formats : List String) (w w' : World) : Prop :=
  w'.tracker = w.tracker ∧ w'.mem = w.mem ∧ ∃ es, w'.trace = w.trace ++ es ∧
    ∀ stamp indent format args, .log stamp indent format args ∈ es → format ∈ formats

theorem Printed.refl (w : World) : Printed [] w w :=
  ⟨rfl, rfl, [], (List.append_nil _).symm, by simp⟩

theorem Printed.mono {F G : List String} {w w' : World} (h : Printed F w w')
    (hFG : ∀ f ∈ F, f ∈ G) : Printed G w w' := by
  obtain ⟨htracker, hmem, es, htrace, hes⟩ := h
  exact ⟨htracker, hmem, es, htrace, fun stamp indent f args he =>
    hFG f (hes stamp indent f args he)⟩

theorem Printed.trans {F G : List String} {u v w : World} (huv : Printed F u v)
    (hvw : Printed G v w) : Printed (F ++ G) u w := by
  obtain ⟨htracker, hmem, es, htrace, hes⟩ := huv
  obtain ⟨htracker', hmem', es', htrace', hes'⟩ := hvw
  refine ⟨htracker'.trans htracker, hmem'.trans hmem, es ++ es', ?_, ?_⟩
  · rw [htrace', htrace, List.append_assoc]
  · intro stamp indent f args he
    obtain he | he := List.mem_append.mp he
    · exact List.mem_append_left G (hes stamp indent f args he)
    · exact List.mem_append_right F (hes' stamp indent f args he)

/-- Whatever its end, `m` has not changed the tracker or the program's memory, and the lines it
has printed are of these formats. -/
class Prints {α : Type} (m : Wrap α) (formats : outParam (List String)) : Prop where
  printed : Relates (Printed formats) m

section Rules

variable {α β : Type} {m m' : Wrap α} {F G : List String}

theorem Prints.mono [hm : Prints m F] (hFG : ∀ f ∈ F, f ∈ G) : Prints m G where
  printed := hm.printed.mono fun _ _ h => h.mono hFG

/-- An observer that ignores these lines and all else stays where it is. -/
theorem Observer.foldl_quiet {S : Type} {o : Observer S} {s : S} {es : List Event}
    (hline : ∀ f ∈ F, ∀ args, o.line s f args = s) (hcont : ∀ f args, o.cont s f args = s)
    (hload : ∀ a n, o.load s a n = s) (hindent : o.indent s = s)
    (hes : ∀ stamp indent f args, .log stamp indent f args ∈ es → f ∈ F) :
    es.foldl o.step s = s := by
  induction es with
  | nil => rfl
  | cons e es ih =>
    have hstep : o.step s e = s := by
      cases e with
      | log stamp indent f args => exact hline f (hes stamp indent f args List.mem_cons_self) args
      | cont f args => exact hcont f args
      | load a n => exact hload a n
      | indent level => exact hindent
      | clock | hexdump | real => rfl
    rw [List.foldl_cons, hstep]
    exact ih fun stamp indent f args he => hes stamp indent f args (List.mem_cons_of_mem e he)

theorem Shows.prints {S : Type} {o : Observer S} {t : Tracker} {mem : Memory} {s : S}
    {m : Wrap Unit} [hm : Prints m F] (hline : ∀ f ∈ F, ∀ args, o.line s f args = s)
    (hcont : ∀ f args, o.cont s f args = s) (hload : ∀ a n, o.load s a n = s)
    (hindent : o.indent s = s) : Shows o t mem s m () s := by
  intro w a w' hw h
  obtain ⟨htracker, hmem, es, htrace, hes⟩ := (hm.printed w).ok rfl h
  exact ⟨rfl, ⟨htracker.trans hw.tracker, hmem.trans hw.mem⟩, es, htrace,
    Observer.foldl_quiet hline hcont hload hindent hes⟩

/-- A statement that leaves one event, which is no line. -/
theorem Prints.of_event {e : World → Event}
    (h : ∀ w, ∃ a w', m w = .ok a w' ∧ w'.tracker = w.tracker ∧ w'.mem = w.mem ∧
      w'.trace = w.trace ++ [e w])
    (he : ∀ w stamp indent f args, e w ≠ .log stamp indent f args) : Prints m [] where
  printed := by
    apply Relates.of_ok
    intro w
    obtain ⟨a, w', hr, htracker, hmem, htrace⟩ := h w
    refine ⟨a, w', hr, htracker, hmem, _, htrace, fun stamp indent f args hmem' => ?_⟩
    exact absurd (List.mem_singleton.mp hmem').symm (he w stamp indent f args)

instance prints_pure (a : α) : Prints (pure a : Wrap α) [] where
  printed := Relates.of_ok fun w => ⟨a, w, rfl, Printed.refl w⟩

instance prints_tracker : Prints tracker [] where
  printed := Relates.of_ok fun w => ⟨w.tracker, w, rfl, Printed.refl w⟩

instance prints_halt (h : Halt) : Prints (halt h : Wrap α) [] where
  printed := by
    rintro w _ rfl
    exact Printed.refl _

instance prints_bind {f : α → Wrap β} [hm : Prints m F] [hf : ∀ a, Prints (f a) G] :
    Prints (m >>= f) (F ++ G) where
  printed := hm.printed.bind (fun a => (hf a).printed)
    (fun _ _ h => h.mono fun _ => List.mem_append_left G) fun _ _ _ h h' => h.trans h'

instance prints_ite {p : Prop} [Decidable p] [hm : Prints m F] [hm' : Prints m' G] :
    Prints (if p then m else m') (F ++ G) := by
  split
  · exact Prints.mono fun f hf => List.mem_append_left G hf
  · exact Prints.mono fun f hf => List.mem_append_right F hf

instance prints_load (n : ℕ) (a : U64) : Prints (load n a) [] :=
  .of_event (e := fun _ => .load a n) (fun _ => ⟨_, _, rfl, rfl, rfl, rfl⟩)
    fun _ _ _ _ _ h => nomatch h

instance prints_load8 (a : U64) : Prints (load8 a) [] := prints_load 1 a
instance prints_load16 (a : U64) : Prints (load16 a) [] := prints_load 2 a
instance prints_load32 (a : U64) : Prints (load32 a) [] := prints_load 4 a
instance prints_load64 (a : U64) : Prints (load64 a) [] := prints_load 8 a

instance prints_cont (format : String) (args : List Arg) :
    Prints (panwrapLogCont format args) [] :=
  .of_event (e := fun _ => .cont format args) (fun _ => ⟨_, _, rfl, rfl, rfl, rfl⟩)
    fun _ _ _ _ _ h => nomatch h

instance prints_hexdump (data size : U64) : Prints (emit (.hexdump data size)) [] :=
  .of_event (e := fun _ => .hexdump data size) (fun _ => ⟨_, _, rfl, rfl, rfl, rfl⟩)
    fun _ _ _ _ _ h => nomatch h

instance prints_indentIncr : Prints panwrapIndentIncr [] :=
  .of_event (e := fun w => .indent (w.panwrapIndent+1))
    (fun _ => ⟨_, _, rfl, rfl, rfl, rfl⟩) fun _ _ _ _ _ h => nomatch h

instance prints_indentDecr : Prints panwrapIndentDecr [] :=
  .of_event (e := fun w => .indent (w.panwrapIndent-1))
    (fun _ => ⟨_, _, rfl, rfl, rfl, rfl⟩) fun _ _ _ _ _ h => nomatch h

instance prints_indentReset : Prints panwrapIndentReset [] :=
  .of_event (e := fun _ => .indent 0) (fun _ => ⟨_, _, rfl, rfl, rfl, rfl⟩)
    fun _ _ _ _ _ h => nomatch h

instance prints_findContaining (addr : U64) : Prints (findContaining addr) ([] ++ []) :=
  prints_bind

instance prints_log (format : String) (args : List Arg) :
    Prints (panwrapLog format args) [format] where
  printed := by
    apply Relates.of_ok
    intro w
    obtain ⟨w', stamp, clocks, hr, htracker, hmem, htrace, hclocks⟩ := panwrapLog_run format args w
    refine ⟨(), w', hr, htracker, hmem, _, htrace, fun stamp' indent f args' he => ?_⟩
    obtain he | he := List.mem_append.mp he
    · obtain ⟨now, hnow⟩ := hclocks _ he
      exact nomatch hnow
    · obtain ⟨-, -, rfl, -⟩ := Event.log.inj (List.mem_singleton.mp he)
      exact List.mem_singleton.mpr rfl

instance prints_countFrom (body : ℕ → Wrap Unit) [hb : ∀ i, Prints (body i) F] (i n : ℕ) :
    Prints (countFrom body i n) F := by
  induction n generalizing i with
  | zero =>
    have hnone : Prints (countFrom body i 0) [] := prints_pure ()
    exact Prints.mono fun f hf => absurd hf List.not_mem_nil
  | succ n ih =>
    have hboth : Prints (countFrom body i (n+1)) (F ++ F) := by
      have hrest := ih (i+1)
      exact prints_bind
    exact Prints.mono fun f hf => (List.mem_append.mp hf).elim id id

instance prints_forInt (n : ℕ) (body : ℕ → Wrap Unit) [∀ i, Prints (body i) F] :
    Prints (forInt n body) (F ++ ([] ++ [])) :=
  prints_countFrom _ 0 n

instance prints_udiv (a b : U64) : Prints (udiv a b) ([] ++ []) := prints_ite

end Rules

section Decoders

/-- The lines about a pointer that is refused. -/
def accessFormats : List String :=
  ["\n", "INVALID GPU MEMORY ACCESS @0x%lx - 0x%lx:\n", "Occurred at line %d of %s\n",
    "Mapping information:\n", "CPU VA: %p - %p\n", "GPU VA: 0x%lx - 0x%lx\n",
    "Length: %zu bytes\n", "Access length was %zu (%zu out of bounds)\n",
    "GPU memory is not contained within known GPU VA mappings\n"]

instance prints_panwrapDerefMemErr {α : Type} (mem : Option PanwrapMappedMemory) (gpuVa size : U64)
    (line : ℕ) (filename : String) :
    Prints (panwrapDerefMemErr mem gpuVa size line filename : Wrap α) accessFormats := by
  unfold panwrapDerefMemErr logInvalidAccess
  cases mem <;> unfold logMappingInformation <;> exact Prints.mono (by decide)

instance prints_deref (mem : Option PanwrapMappedMemory) (gpuVa size : U64) (line : ℕ)
    (filename : String) :
    Prints (panwrapDerefGpuMem mem gpuVa size line filename) accessFormats := by
  have hchecked (t : Tracker) : Prints (match derefGpuMem t.mmaps mem gpuVa size with
      | none => panwrapDerefMemErr (usedMapping t.mmaps mem gpuVa) gpuVa size line filename
      | some p => pure p) accessFormats := by
    cases derefGpuMem t.mmaps mem gpuVa size
    · exact prints_panwrapDerefMemErr _ _ _ _ _
    · exact Prints.mono (F := []) (by decide)
  exact prints_bind (F := [])

instance prints_logFlagNames (info : List PanwrapFlagInfo) (flags : U64) (found : Bool) :
    Prints (logFlagNames info flags found) [] := by
  induction info generalizing flags found with
  | nil => exact prints_pure _
  | cons i rest ih =>
    unfold logFlagNames
    exact Prints.mono (by decide)

instance prints_panwrapLogDecodedFlags (info : List PanwrapFlagInfo) (flags : U64) :
    Prints (panwrapLogDecodedFlags info flags) [] := by
  unfold panwrapLogDecodedFlags
  exact Prints.mono (by decide)

instance prints_hexdumpCell (data : U64) (alpha : Gutter) (i : ℕ) :
    Prints (hexdumpCell data alpha i) ["%08X"] := by
  unfold hexdumpCell hexdumpWrapped hexdumpByte
  exact Prints.mono (by decide)

instance prints_hexdumpCells (data : U64) (i n : ℕ) (alpha : Gutter) :
    Prints (hexdumpCells data i n alpha) ["%08X"] := by
  induction n generalizing i alpha with
  | zero =>
    have hnone : Prints (hexdumpCells data i 0 alpha) [] := prints_pure _
    exact Prints.mono (by decide)
  | succ n ih =>
    unfold hexdumpCells
    exact Prints.mono (by decide)

instance prints_hexdumpPad (i n : ℕ) (alpha : Gutter) : Prints (hexdumpPad i n alpha) [] := by
  induction n generalizing i alpha with
  | zero => exact prints_pure _
  | succ n ih =>
    unfold hexdumpPad
    exact Prints.mono (by decide)

instance prints_panwrapLogHexdump (data size : U64) :
    Prints (panwrapLogHexdump data size) ["%08X"] := by
  unfold panwrapLogHexdump
  exact Prints.mono (by decide)

instance prints_panwrapJobTypeName (type : U8) :
    Prints (panwrapJobTypeName type) ["Warning! Unknown job type %x\n"] := by
  unfold panwrapJobTypeName
  exact Prints.mono (by decide)

instance prints_panwrapDecodeAttributes (mem : Option PanwrapMappedMemory) (addr : U64) :
    Prints (panwrapDecodeAttributes mem addr) (["0x%lx (%x):\n", "<"] ++ accessFormats) := by
  unfold panwrapDecodeAttributes logAttributeRow
  dsimp only
  exact Prints.mono (by decide)

def attributeListFormats : List String :=
  ["%x:\n", "flags = 0x%014lx\n", "0x%lx (%x):\n", "<"] ++ accessFormats

instance prints_decodeAttributeList (v : U64) (attrMem : Option PanwrapMappedMemory) (n : ℕ)
    (p : U64) : Prints (decodeAttributeList v attrMem n p) attributeListFormats := by
  induction n generalizing p with
  | zero =>
    have hnone : Prints (decodeAttributeList v attrMem 0 p) [] := prints_halt _
    exact Prints.mono (by decide)
  | succ n ih =>
    unfold decodeAttributeList decodeAttributeEntry
    dsimp only
    exact Prints.mono (by decide)

/-- The lines about the payload of a job. -/
def payloadFormats : List String :=
  ["Job sabotaged\n", "%s shader @ 0x%lx (flags 0x%x)\n", "Block #1:\n", "%08X",
    "Shader blob:\n", "<no shader>\n", "Attribute list:\n", "<no attributes>\n",
    "Block #2:\n", "set value -> %lX (%lX)\n", "Dumping payload 0x%lx:\n"] ++
  attributeListFormats

instance prints_decodeShaderSection (metaPtr : U64) :
    Prints (decodeShaderSection metaPtr) payloadFormats := by
  unfold decodeShaderSection
  exact Prints.mono (by decide)

instance prints_decodeAttributeSection (v : U64) (attrMem : Option PanwrapMappedMemory)
    (attributeMeta : U64) :
    Prints (decodeAttributeSection v attrMem attributeMeta) payloadFormats := by
  unfold decodeAttributeSection
  exact Prints.mono (by decide)

instance prints_decodePayload (jobType : U8) (mem : Option PanwrapMappedMemory) (payload : U64) :
    Prints (decodePayload jobType mem payload) payloadFormats := by
  unfold decodePayload decodeSetValue dumpPayload panwrapDecodeVertexOrTilerJob
  dsimp only
  exact Prints.mono (by decide)

/-- The lines about a job. -/
def jobFormats : List String :=
  ["Warning! Unknown job type %x\n", "%s job, %d-bit, status %X, incomplete %X\n",
    "fault %lX, barrier %d, index %hX\n", "dependencies (%hX, %hX)\n"] ++ payloadFormats

instance prints_panwrapTraceHwChain (jcGpuVa : U64) :
    Prints (panwrapTraceHwChain jcGpuVa) jobFormats := by
  unfold panwrapTraceHwChain
  dsimp only
  exact Prints.mono (by decide)

instance prints_logFlagsLine (text : String) (info : List PanwrapFlagInfo) (flags : U64) :
    Prints (logFlagsLine text info flags) [text] := by
  unfold logFlagsLine
  exact Prints.mono fun f hf => hf

instance prints_ioctlLogDecodedJdCoreReq (req : U32) :
    Prints (ioctlLogDecodedJdCoreReq req) [] := by
  have hsoft (o : Option (U32 × String)) : Prints (logSoftFlag o) [] := by
    cases o <;> unfold logSoftFlag <;> exact prints_cont _ _
  unfold ioctlLogDecodedJdCoreReq
  exact Prints.mono (by decide)

instance prints_logExternalResources (extResList : U64) (nrExtRes : U16) :
    Prints (logExternalResources extResList nrExtRes)
      ["text_res_list.count = %ld\n", "External resources:\n", "",
        "<no external resources>\n"] := by
  unfold logExternalResources
  exact Prints.mono (by decide)

instance prints_logPreDependencies (a : U64) (i : ℕ) :
    Prints (logPreDependencies a i)
      ["Pre-dependencies:\n", "atom_id = %d flags == "] := by
  unfold logPreDependencies
  dsimp only
  exact Prints.mono (by decide)

end Decoders
end Panloader
