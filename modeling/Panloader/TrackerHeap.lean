import Panloader.IntrusiveList
import Panloader.PanwrapMmap

/-! The lists of `panwrap-mmap.c` as they lie in memory: two static heads, and records that
`malloc` returned, linked through their `node` fields. The log lines of the same functions are in
the model of the wrapper. -/
namespace Panloader
open IntrusiveList

inductive ListName
  | allocations
  | mmaps
deriving DecidableEq

/-- A `struct list`: a static head, or the field `node` of the record at `p`. -/
inductive Node
  | head (list : ListName)
  | record (p : U64)
deriving DecidableEq

inductive RecordData
  | allocated (mem : PanwrapAllocatedMemory)
  | mapped (mem : PanwrapMappedMemory)
deriving DecidableEq

/-- A record that was not freed, with the number of records allocated before it. -/
structure HeapRecord where
  born : ℕ
  data : RecordData

structure Heap where
  links : Links Node
  record : U64 → Option HeapRecord
  mallocs : ℕ

/-- `LIST_HEAD(allocations)` and `LIST_HEAD(mmaps)`, with nothing allocated. -/
def Heap.initial (garbage : Links Node) : Heap where
  links := listInit (listInit garbage (.head .allocations)) (.head .mmaps)
  record := fun _ => none
  mallocs := 0

/-- `malloc` of a record at `p`, whose fields are set. -/
def Heap.malloc (h : Heap) (p : U64) (data : RecordData) : Heap :=
  { h with
    record := Function.update h.record p (some ⟨h.mallocs, data⟩)
    mallocs := h.mallocs+1 }

def Heap.free (h : Heap) (p : U64) : Heap := { h with record := Function.update h.record p none }

/-- A loop of more turns has come back to a record, and never ends. -/
def walkBound : ℕ := 2^64+1

/-- `list_for_each_entry(pos, list, node)`. It reads each record, which must not be freed. -/
def Heap.forEachEntry {β : Type} (h : Heap) (list : ListName)
    (body : U64 → RecordData → Option (Option β)) : Option (Option β) :=
  IntrusiveList.forEachEntry h.links (.head list) (fun
    | .record p => (h.record p).bind fun r => body p r.data
    | .head _ => none) walkBound (h.links.next (.head list))

/-- The first record of `list` that satisfies `test`, where `get` reads records of one kind. -/
def Heap.findRecord {δ : Type} (h : Heap) (list : ListName) (get : RecordData → Option δ)
    (test : δ → Bool) : Option (Option (U64 × δ)) :=
  h.forEachEntry list fun p data =>
    (get data).map fun pos => if test pos then some (p, pos) else none

def RecordData.allocated? : RecordData → Option PanwrapAllocatedMemory
  | .allocated mem => some mem
  | .mapped _ => none

def RecordData.mapped? : RecordData → Option PanwrapMappedMemory
  | .allocated _ => none
  | .mapped mem => some mem

/-- The loop of `panwrap_track_mmap`. -/
def Heap.findAllocation (h : Heap) (gpuVa : U64) :
    Option (Option (U64 × PanwrapAllocatedMemory)) :=
  h.findRecord .allocations RecordData.allocated? fun pos => pos.gpuVa == gpuVa

def Heap.panwrapFindMappedMem (h : Heap) (addr : U64) :
    Option (Option (U64 × PanwrapMappedMemory)) :=
  h.findRecord .mmaps RecordData.mapped? fun pos => pos.addr == addr

/-- A record allocated at `p` is initialised and put at the front of `list`. -/
def Heap.insertRecord (h : Heap) (list : ListName) (p : U64) (data : RecordData) : Heap :=
  let h := h.malloc p data
  { h with links := listAdd (listInit h.links (.record p)) (.record p) (.head list) }

/-- `list_del(&mem->node)` and `free(mem)` for the record at `q`. -/
def Heap.dropRecord (h : Heap) (q : U64) : Heap :=
  { h with links := listDel h.links (.record q) }.free q

def Heap.panwrapTrackAllocation (h : Heap) (addr : U64) (flags : U32) (p : U64) : Heap :=
  h.insertRecord .allocations p (.allocated ⟨addr, flags⟩)

/-- `flags` are for the log only. -/
def Heap.panwrapTrackMmap (h : Heap) (gpuVa addr length : U64) (prot _flags : U32) (p : U64) :
    Option Heap := do
  match ← h.findAllocation gpuVa with
  | none => pure h
  | some (q, mem) =>
    let mappedMem := mem.mapped gpuVa addr length prot
    -- the new record is in its list before the old one leaves the other
    pure ((h.insertRecord .mmaps p (.mapped mappedMem)).dropRecord q)

def Heap.panwrapTrackMunmap (h : Heap) (addr : U64) : Option Heap := do
  match ← h.panwrapFindMappedMem addr with
  | none => pure h
  | some (q, _) => pure (h.dropRecord q)

/-- `munmap`, which does the same without that function. -/
def Heap.munmap (h : Heap) (addr _length : U64) : Option Heap := do
  match ← h.panwrapFindMappedMem addr with
  | none => pure h
  | some (q, _) => pure (h.dropRecord q)

/-- A call of one of the functions that change the lists. `p` is what `malloc` returns. -/
inductive ListCall
  | trackAllocation (addr : U64) (flags : U32) (p : U64)
  | trackMmap (gpuVa addr length : U64) (prot flags : U32) (p : U64)
  | trackMunmap (addr : U64)
  | munmap (addr length : U64)

/-- The heap after a call: `none` where it reads a freed record or never returns. -/
def ListCall.exec (h : Heap) : ListCall → Option Heap
  | .trackAllocation addr flags p => some (h.panwrapTrackAllocation addr flags p)
  | .trackMmap gpuVa addr length prot flags p => h.panwrapTrackMmap gpuVa addr length prot flags p
  | .trackMunmap addr => h.panwrapTrackMunmap addr
  | .munmap addr length => h.munmap addr length

/-- `malloc` does not return a record that is in use. -/
def ListCall.Fresh (h : Heap) : ListCall → Prop
  | .trackAllocation _ _ p => h.record p = none
  | .trackMmap _ _ _ _ _ p => h.record p = none
  | _ => True

/-- The heaps that calls lead to. -/
inductive HeapRun (start : Heap) : List ListCall → Heap → Prop
  | nil : HeapRun start [] start
  | snoc {calls : List ListCall} {h h' : Heap} {call : ListCall} :
      HeapRun start calls h → call.Fresh h → call.exec h = some h' →
      HeapRun start (calls ++ [call]) h'

end Panloader
