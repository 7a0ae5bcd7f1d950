import ScriptLinker.Heap.Collect
/-!
# Allocation

Every request for bytes goes through `reserve`: the attempt is counted, an
armed failure may strike, the heap may collect, and the request is refused if
it still does not fit under the hard limit. `allocate` places a new cell,
`charge` adds to the bytes of one that is there, and `refund` takes them back.
-/

namespace ScriptLinker.Heap

def countAttempt (heap : Heap) : Heap :=
  { heap with stats.allocations := heap.stats.allocations + 1 }

/-- Lets one attempt pass the armed failure, or fails and disarms it. -/
def passInjection (bytes : Nat) : Action Heap HeapError Unit := do
  let heap ← Action.get
  match heap.failureCountdown with
  | none => pure ()
  | some (left + 1) => Action.set { heap with failureCountdown := some left }
  | some 0 =>
    Action.set { heap with failureCountdown := none }
    Action.note (.failureInjected bytes)
    Action.fail .outOfMemory

/-- Collects if every allocation has to, or if the request passes the threshold. -/
def collectFor (bytes : Nat) : Action Heap HeapError Unit := do
  let heap ← Action.get
  if heap.zeal then
    collect
  else if satAdd heap.usedBytes bytes > heap.nextThreshold then
    Action.note (.thresholdPassed (satAdd heap.usedBytes bytes) heap.nextThreshold)
    collect
  else
    pure ()

def requireRoom (bytes : Nat) : Action Heap HeapError Unit := do
  let heap ← Action.get
  if satAdd heap.usedBytes bytes > heap.limits.maxBytes then
    Action.note (.limitExceeded bytes heap.limits.maxBytes)
    Action.fail .outOfMemory
  else
    pure ()

def reserve (bytes : Nat) : Action Heap HeapError Unit := do
  Action.modify countAttempt
  passInjection bytes
  collectFor bytes
  requireRoom bytes

/-- The number of slots that addresses can tell apart. -/
def maxSlots : Nat := UInt32.size

/-- The address that the next cell placed in a slot gets. -/
def addressOf (heap : Heap) (index : Nat) : CellId where
  index := index
  generation := (heap.slots.getD index {}).generation

/-- The heap with one more slot, which is empty, and its mark. -/
def grown (heap : Heap) : Heap :=
  { heap with
    slots := heap.slots.push {}
    marks := heap.marks.push false }

@[simp] theorem slots_grown (heap : Heap) : heap.grown.slots = heap.slots.push {} := rfl

@[simp] theorem freeSlots_grown (heap : Heap) : heap.grown.freeSlots = heap.freeSlots := rfl

@[simp] theorem stats_grown (heap : Heap) : heap.grown.stats = heap.stats := rfl

/-- The heap with `cell` in the slot at `index`, charged `bytes`. -/
def fill (heap : Heap) (index : Nat) (cell : Cell) (bytes : Nat) : Heap :=
  { heap.modifySlot index fun slot => { slot with cell := some cell, bytes := bytes } with
    usedBytes := satAdd heap.usedBytes bytes }

/-- Places a cell in the slot that was emptied last, or in a new one. -/
def place (cell : Cell) (bytes : Nat) : Action Heap HeapError CellId := do
  let heap ← Action.get
  match heap.freeSlots with
  | index :: rest =>
    Action.set { heap.fill index cell bytes with freeSlots := rest }
    pure (heap.addressOf index)
  | [] =>
    if heap.slots.size < maxSlots then
      Action.set (heap.grown.fill heap.slots.size cell bytes)
      pure (heap.grown.addressOf heap.slots.size)
    else
      Action.fail .outOfMemory

def allocate (cell : Cell) (bytes : Nat) : Action Heap HeapError CellId := do
  reserve bytes
  place cell bytes

/-- Charges `bytes` more to a cell. Making room for them can collect the cell
itself if nothing holds it; then the reference is stale. -/
def charge (id : CellId) (bytes : Nat) : Action Heap HeapError Unit := do
  reserve bytes
  Action.read fun heap => heap.requireLive id
  Action.modify fun heap =>
    { heap.modifySlot id.index fun slot => { slot with bytes := slot.bytes + bytes } with
      usedBytes := satAdd heap.usedBytes bytes }

/-- Takes back `bytes` of what a slot was charged, as far as it was. -/
def refund (id : CellId) (bytes : Nat) (heap : Heap) : Heap :=
  match heap.slots[id.index]? with
  | none => heap
  | some slot =>
    { heap.modifySlot id.index fun slot => { slot with bytes := slot.bytes - bytes } with
      usedBytes := heap.usedBytes - min bytes slot.bytes }

def setZeal (on : Bool) (heap : Heap) : Heap :=
  { heap with zeal := on }

/-- Lets `count` attempts pass and makes the one after them fail. -/
def failAfter (count : Nat) (heap : Heap) : Heap :=
  { heap with failureCountdown := some count }

/-- Records that `owner` got a reference to `target`. -/
def recordStore (owner : CellId) (target : CellRef) (heap : Heap) : Heap :=
  { heap with
    stats.writeBarriers := heap.stats.writeBarriers + 1
    storeBuffer := heap.storeBuffer.push (owner, target) }

end ScriptLinker.Heap
