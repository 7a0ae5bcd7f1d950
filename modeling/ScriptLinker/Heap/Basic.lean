import ScriptLinker.Action
import ScriptLinker.Config.Basic
import ScriptLinker.Heap.Cell
import ScriptLinker.Heap.Error
/-!
# The heap

A heap is a table of slots, each empty or holding a cell, with the roots that
keep cells alive and two weak tables: the interned texts and the shared images.
A slot knows the bytes charged to its cell, and the heap their sum.

`cell?` looks an address up: it names a cell if its slot is occupied and still
in the generation of the address. The typed look-ups built on it fail with a
stale reference or with the wrong kind of cell.
-/

namespace ScriptLinker

/-- The largest size a machine word holds. -/
def maxSize : Nat := UInt64.size - 1

/-- Addition of sizes that stops at the largest one. -/
def satAdd (a b : Nat) : Nat := min (a + b) maxSize

theorem satAdd_eq_add {a b : Nat} (h : a + b ≤ maxSize) : satAdd a b = a + b :=
  Nat.min_eq_left h

/-- Size limits in bytes: past `gcThreshold` an allocation collects first, past
`maxBytes` it fails. -/
structure HeapLimits where
  gcThreshold : Nat
  maxBytes : Nat
  deriving DecidableEq, Inhabited

namespace HeapLimits

def ofSettings (settings : HeapSettings) : HeapLimits where
  gcThreshold := settings.gcThreshold
  maxBytes := settings.maxBytes

def validate (limits : HeapLimits) : Except HeapError Unit :=
  if limits.gcThreshold > limits.maxBytes then
    .error (.invalidLimits limits.gcThreshold limits.maxBytes)
  else
    .ok ()

/-- Lowers the threshold to the hard limit. -/
def clamp (limits : HeapLimits) : HeapLimits :=
  { limits with gcThreshold := min limits.gcThreshold limits.maxBytes }

theorem validate_eq_ok_iff (limits : HeapLimits) :
    limits.validate = .ok () ↔ limits.gcThreshold ≤ limits.maxBytes := by
  unfold validate
  split <;> simp <;> omega

end HeapLimits

/-- A place for a cell. `bytes` is what the cell is charged. -/
structure Slot where
  cell : Option Cell := none
  generation : Nat := 0
  bytes : Nat := 0
  deriving DecidableEq, Inhabited

structure HeapStats where
  gcRuns : Nat := 0
  /-- Attempts, failed ones included. -/
  allocations : Nat := 0
  cellsSwept : Nat := 0
  writeBarriers : Nat := 0
  deriving DecidableEq, Inhabited

/-- A single-threaded heap whose cells never move. -/
structure Heap where
  limits : HeapLimits
  /-- The size past which the next allocation collects. -/
  nextThreshold : Nat
  /-- Collect before every allocation. -/
  zeal : Bool := false
  slots : Array Slot := #[]
  /-- For each slot, whether the last collection reached it; a slot added since has none. -/
  marks : Array Bool := #[]
  /-- The empty slots, the one to fill next first. -/
  freeSlots : List Nat := []
  usedBytes : Nat := 0
  /-- The stack roots, oldest first. -/
  rootStack : List CellRef := []
  /-- The persistent roots by handle; `none` marks a handle that was given back. -/
  persistentRoots : Array (Option CellRef) := #[]
  /-- The handles given back, the one to reuse next first. -/
  freeRoots : List Nat := []
  atoms : List (String × AtomId) := []
  sharedImages : List SharedImage := []
  /-- The number the next shared image gets. -/
  nextSerial : Nat := 0
  /-- The stores since the last collection: owner and target. -/
  storeBuffer : Array (CellId × CellRef) := #[]
  /-- Attempts to let pass before one is made to fail. -/
  failureCountdown : Option Nat := none
  stats : HeapStats := {}
  deriving DecidableEq, Inhabited

namespace Heap

/-- The empty heap; a threshold past the hard limit is lowered to it. -/
def ofLimits (limits : HeapLimits) : Heap where
  limits := limits.clamp
  nextThreshold := limits.clamp.gcThreshold

def ofSettings? (settings : HeapSettings) : Except HeapError Heap := do
  (HeapLimits.ofSettings settings).validate
  pure { ofLimits (.ofSettings settings) with zeal := settings.gcZeal }

/-- The slot of an address, if it is in the address's generation. -/
def slotAt? (slots : Array Slot) (id : CellId) : Option Slot :=
  slots[id.index]?.filter fun slot => slot.generation = id.generation

def cellAt? (slots : Array Slot) (id : CellId) : Option Cell :=
  (slotAt? slots id).bind Slot.cell

def cell? (heap : Heap) (id : CellId) : Option Cell :=
  cellAt? heap.slots id

/-- Whether an address still names a cell. -/
def isLive (heap : Heap) (id : CellId) : Bool :=
  (heap.cell? id).isSome

def cell (heap : Heap) (id : CellId) : Except HeapError Cell :=
  match heap.cell? id with
  | some cell => .ok cell
  | none => .error (.staleReference id)

def atom (heap : Heap) (atom : AtomId) : Except HeapError String := do
  match ← heap.cell atom.id with
  | .atom text => pure text
  | other => throw (.wrongCellKind atom.id .atom other.kind)

def scope (heap : Heap) (scope : ScopeId) : Except HeapError Scope := do
  match ← heap.cell scope.id with
  | .scope content => pure content
  | other => throw (.wrongCellKind scope.id .scope other.kind)

def script (heap : Heap) (script : ScriptId) : Except HeapError Script := do
  match ← heap.cell script.id with
  | .script content => pure content
  | other => throw (.wrongCellKind script.id .script other.kind)

def requireLive (heap : Heap) (id : CellId) : Except HeapError Unit :=
  if heap.isLive id then .ok () else .error (.staleReference id)

/-- Changes the slot at an index; an index past the table changes nothing. -/
def modifySlot (heap : Heap) (index : Nat) (change : Slot → Slot) : Heap :=
  { heap with slots := heap.slots.modify index change }

def liveCells (heap : Heap) : Nat :=
  heap.slots.countP fun slot => slot.cell.isSome

@[simp] theorem size_slots_modifySlot (heap : Heap) (index : Nat) (change : Slot → Slot) :
    (heap.modifySlot index change).slots.size = heap.slots.size := by
  simp [modifySlot]

theorem cellAt?_eq_some_iff (slots : Array Slot) (id : CellId) (cell : Cell) :
    cellAt? slots id = some cell ↔
      ∃ slot, slots[id.index]? = some slot ∧ slot.generation = id.generation ∧
        slot.cell = some cell := by
  simp [cellAt?, slotAt?, Option.bind_eq_some_iff, Option.filter_eq_some_iff, and_assoc]

/-- Changing one slot leaves the cells in other slots as they are. -/
theorem cell?_modifySlot_of_ne {id : CellId} {index : Nat} (h : id.index ≠ index)
    (heap : Heap) (change : Slot → Slot) :
    (heap.modifySlot index change).cell? id = heap.cell? id := by
  simp [cell?, cellAt?, slotAt?, modifySlot, Array.getElem?_modify, Ne.symm h]

theorem isLive_iff (heap : Heap) (id : CellId) :
    heap.isLive id = true ↔ ∃ cell, heap.cell? id = some cell := by
  simp [isLive, Option.isSome_iff_exists]

theorem cell_eq_ok_iff (heap : Heap) (id : CellId) (cell : Cell) :
    heap.cell id = .ok cell ↔ heap.cell? id = some cell := by
  unfold Heap.cell
  split <;> simp_all

/-- The counters and sizes an observer sees. -/
structure Summary where
  usedBytes : Nat
  liveCells : Nat
  gcRuns : Nat
  allocations : Nat
  cellsSwept : Nat
  writeBarriers : Nat
  atomCount : Nat
  sharedImageCount : Nat
  stackRootCount : Nat
  storeBufferLength : Nat
  deriving DecidableEq, Inhabited

def summary (heap : Heap) : Summary where
  usedBytes := heap.usedBytes
  liveCells := heap.liveCells
  gcRuns := heap.stats.gcRuns
  allocations := heap.stats.allocations
  cellsSwept := heap.stats.cellsSwept
  writeBarriers := heap.stats.writeBarriers
  atomCount := heap.atoms.length
  sharedImageCount := heap.sharedImages.length
  stackRootCount := heap.rootStack.length
  storeBufferLength := heap.storeBuffer.size

end Heap

end ScriptLinker
