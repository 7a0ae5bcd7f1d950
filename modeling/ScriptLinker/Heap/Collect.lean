import ScriptLinker.Heap.Mark
/-!
# Collection

A collection marks what the roots reach and empties every other occupied slot.
Then it drops from the weak tables what has died: texts whose atom is gone and
images that no script shares any more. The marks stay until the next collection,
which takes them back. The store buffer starts over, and the next threshold is
twice the size in use, kept between the configured threshold and the hard limit.
-/

namespace ScriptLinker

namespace Slot

/-- Whether a slot holds a cell that was not reached. -/
def isGarbage (slot : Slot) (marked : Bool) : Bool :=
  slot.cell.isSome && !marked

/-- The slot without its cell, in the next generation. -/
def emptied (slot : Slot) : Slot where
  generation := (slot.generation + 1) % UInt32.size

@[simp] theorem cell_emptied (slot : Slot) : slot.emptied.cell = none := rfl

@[simp] theorem bytes_emptied (slot : Slot) : slot.emptied.bytes = 0 := rfl

end Slot

namespace Heap

/-- The indices of the slots a marking leaves to be emptied, in ascending order. -/
def garbage (heap : Heap) (marking : Marking) : List Nat :=
  (List.range heap.slots.size).filter fun index =>
    (heap.slots.getD index {}).isGarbage (marking.isMarked index)

theorem mem_garbage_iff (heap : Heap) (marking : Marking) (index : Nat) :
    index ∈ heap.garbage marking ↔
      ∃ slot, heap.slots[index]? = some slot ∧
        slot.isGarbage (marking.isMarked index) = true := by
  simp only [garbage, List.mem_filter, List.mem_range, Array.getD_eq_getD_getElem?]
  constructor
  · rintro ⟨h, hgarbage⟩
    exact ⟨heap.slots[index], by simp [h], by simpa [h] using hgarbage⟩
  · rintro ⟨slot, h, hgarbage⟩
    exact ⟨(Array.getElem?_eq_some_iff.1 h).1, by simpa [h] using hgarbage⟩

/-- Empties every slot that was not reached. -/
def sweep (marking : Marking) (heap : Heap) : Heap :=
  let garbage := heap.garbage marking
  { heap with
    slots := heap.slots.mapIdx fun index slot =>
      if slot.isGarbage (marking.isMarked index) then slot.emptied else slot
    freeSlots := garbage.reverse ++ heap.freeSlots
    usedBytes := garbage.foldl (fun used index => used - (heap.slots.getD index {}).bytes)
      heap.usedBytes
    stats.cellsSwept := heap.stats.cellsSwept + garbage.length }

/-- Whether a script holds a shared image. It stands for the count of the image's holders:
the table and the sealed scripts hold it and nobody else, as long as no client keeps a handle
of its own. -/
def isShared (heap : Heap) (object : SharedImage) : Bool :=
  heap.slots.any fun slot => slot.cell.bind Cell.shared? = some object

/-- Drops the entries of the weak tables that nothing alive stands behind. -/
def pruneTables (heap : Heap) : Heap :=
  { heap with
    atoms := heap.atoms.filter fun entry => heap.isLive entry.2.id
    sharedImages := heap.sharedImages.filter heap.isShared }

/-- The size past which the next allocation collects. -/
def adaptedThreshold (heap : Heap) : Nat :=
  max (min (min (2 * heap.usedBytes) maxSize) heap.limits.maxBytes) heap.limits.gcThreshold

/-- The heap after the collection that a marking was made for. -/
def collectedBy (marking : Marking) (heap : Heap) : Heap :=
  let pruned := (heap.sweep marking).pruneTables
  { pruned with
    marks := marking.marks
    storeBuffer := #[]
    nextThreshold := pruned.adaptedThreshold
    stats.gcRuns := heap.stats.gcRuns + 1 }

def collected (heap : Heap) : Heap :=
  heap.collectedBy heap.mark

def eventsOf (marking : Marking) (heap : Heap) : List Event :=
  marking.skipped.map Event.staleSkipped ++
    [.collected (heap.stats.gcRuns + 1) (heap.garbage marking).length
      (heap.sweep marking).usedBytes]

def collect {ε : Type} : Action Heap ε Unit := fun heap =>
  let marking := heap.mark
  ⟨.ok (), heap.collectedBy marking, heap.eventsOf marking⟩

@[simp] theorem result_collect {ε : Type} (heap : Heap) :
    ((collect : Action Heap ε Unit).run heap).result = .ok () := rfl

@[simp] theorem state_collect {ε : Type} (heap : Heap) :
    ((collect : Action Heap ε Unit).run heap).state = heap.collected := rfl

@[simp] theorem rootStack_collected (heap : Heap) :
    heap.collected.rootStack = heap.rootStack := rfl

@[simp] theorem persistentRoots_collected (heap : Heap) :
    heap.collected.persistentRoots = heap.persistentRoots := rfl

@[simp] theorem storeBuffer_collected (heap : Heap) :
    heap.collected.storeBuffer = #[] := rfl

@[simp] theorem size_slots_collected (heap : Heap) :
    heap.collected.slots.size = heap.slots.size := by
  simp [collected, collectedBy, pruneTables, sweep]

end Heap

end ScriptLinker
