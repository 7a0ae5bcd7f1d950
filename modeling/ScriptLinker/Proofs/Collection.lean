import ScriptLinker.Proofs.Population
/-!
# What a collection does

`collect_exact` is the specification of a collection of a reachable heap: it
ends, it frees exactly the cells that the roots do not reach, it moves their
slots to the next generation and takes their bytes off the bytes in use, and it
leaves everything else that the roots can lead to as it was. A second collection
finds nothing to do.
-/

namespace ScriptLinker.Heap

/-- The rounds that a collection allows its marking are enough: with more of
them, or without a bound, it ends in the same place. -/
theorem drain_eq_mark {heap : Heap} {rounds : Nat} (h : heap.slots.size ≤ rounds) :
    Marking.drain heap.slots rounds
      (Marking.visitAll heap.slots (.start heap.slots) heap.roots) = heap.mark := by
  obtain ⟨more, rfl⟩ := Nat.exists_eq_add_of_le h
  rw [Marking.drain_add]
  exact Marking.drain_of_pending_nil (pending_mark heap) more

/-- The slot of a cell that the roots do not reach is emptied. -/
theorem slot_collected_of_swept {heap : Heap} {id : CellId} (h : id ∈ heap.swept) :
    heap.collected.slots[id.index]? =
      some { cell := none, generation := (id.generation + 1) % UInt32.size, bytes := 0 } := by
  obtain ⟨hlive, hnot⟩ := (mem_swept heap id).1 h
  obtain ⟨slot, hslot, hgeneration, hcell⟩ := (isLive_iff_slot heap id).1 hlive
  rw [getElem?_slots_collected, addressOf_index hlive, hslot, Option.map_some,
    if_pos ⟨hcell, hnot⟩, Slot.emptied, hgeneration]

theorem slot_collected_of_empty {heap : Heap} {index : Nat} {slot : Slot}
    (hslot : heap.slots[index]? = some slot) (hcell : slot.cell = none) :
    heap.collected.slots[index]? = some slot := by
  rw [getElem?_slots_collected, hslot, Option.map_some, if_neg (by simp [hcell])]

/-- A collection of a reachable heap whose hard limit is not the largest size.

The marking comes to an end. Exactly the reached cells stay, each in its slot, and the
others leave empty slots of the next generation; the ledger and the counter follow. A second
collection only counts its run. -/
theorem collect_exact {heap : Heap} (hreachable : heap.Reachable)
    (hlimit : heap.limits.maxBytes < maxSize) :
    heap.mark.pending = [] ∧
    (∀ rounds, heap.slots.size ≤ rounds → Marking.drain heap.slots rounds
      (Marking.visitAll heap.slots (.start heap.slots) heap.roots) = heap.mark) ∧
    ∃ after : Heap, (collect : Action Heap HeapError Unit).ending heap = (.ok (), after) ∧
      (∀ id, after.isLive id = true ↔ heap.isLive id = true ∧ heap.Reaches id) ∧
      (∀ id, after.isLive id = true → after.cell? id = heap.cell? id ∧
        after.slots[id.index]? = heap.slots[id.index]?) ∧
      (∀ id, heap.isLive id = true → ¬ heap.Reaches id → after.slots[id.index]? =
        some { cell := none, generation := (id.generation + 1) % UInt32.size, bytes := 0 }) ∧
      (∀ (index : Nat) (slot : Slot), heap.slots[index]? = some slot → slot.cell = none →
        after.slots[index]? = some slot) ∧
      after.slots.size = heap.slots.size ∧
      (∃ gone : Finset CellId,
        (∀ id, id ∈ gone ↔ heap.isLive id = true ∧ ¬ heap.Reaches id) ∧
        after.usedBytes + ∑ id ∈ gone, heap.bytesAt id.index = heap.usedBytes ∧
        after.stats.cellsSwept = heap.stats.cellsSwept + gone.card) ∧
      after.rootStack = heap.rootStack ∧ after.persistentRoots = heap.persistentRoots ∧
      after.freeRoots = heap.freeRoots ∧ after.storeBuffer = #[] ∧
      (collect : Action Heap HeapError Unit).ending after =
        (.ok (), { after with stats.gcRuns := after.stats.gcRuns + 1 }) := by
  have hsound := hreachable.sound
  refine ⟨pending_mark heap, fun rounds => drain_eq_mark, heap.collected, ending_collect heap,
    ?_, ?_, ?_, ?_, size_slots_collected heap, ?_, rfl, rfl, rfl, rfl, ?_⟩
  · intro id
    rw [isLive_collected_iff]
    exact ⟨fun h => ⟨h.isLive, h⟩, And.right⟩
  · intro id hid
    have hreached := (isLive_collected_iff heap id).1 hid
    exact ⟨cell?_collected_of_reaches hreached, slot_collected_of_reaches hreached⟩
  · intro id hlive hnot
    exact slot_collected_of_swept ((mem_swept heap id).2 ⟨hlive, hnot⟩)
  · intro index slot
    exact slot_collected_of_empty
  · refine ⟨heap.swept, mem_swept heap, ?_, ?_⟩
    · change heap.collected.usedBytes + heap.bytesOf heap.swept = heap.usedBytes
      rw [hsound.usedBytes_collected hlimit, bytesOf_reached_add_swept,
        ← hsound.usedBytes_eq hlimit]
    · rw [cellsSwept_collected, card_swept]
  · rw [ending_collect, (tidy_collected heap).collected_eq]

/-- A script that holds only itself is freed, next to a scope that a persistent
root holds and a stack root of another heap. -/
theorem collect_exact_selfReferring :
    ∃ heap : Heap, heap.Reachable ∧ heap.limits.maxBytes < maxSize ∧
      heap.isLive ⟨1, 0⟩ = true ∧ heap.Edge ⟨1, 0⟩ (.script ⟨⟨1, 0⟩⟩) ∧
      ∃ after : Heap, (collect : Action Heap HeapError Unit).ending heap = (.ok (), after) ∧
        after.isLive ⟨0, 0⟩ = true ∧ after.slots[1]? = some { generation := 1 } := by
  have hempty : (ofLimits ⟨1000, 1000⟩).Reachable := .initial (.ofLimits _)
  have hreachable := hempty.nextAll
    [.perform (.allocScope .global none), .perform (.addRoot (.scope ⟨⟨0, 0⟩⟩)),
      .perform (.allocScript {}), .perform (.createThings ⟨⟨1, 0⟩⟩ 1),
      .perform (.initThing ⟨⟨1, 0⟩⟩ 0 (.script ⟨⟨1, 0⟩⟩)), .pushRoot (.atom ⟨⟨7, 3⟩⟩)]
  obtain ⟨_, _, after, hafter, hlive, _, hswept, _⟩ :=
    collect_exact hreachable (by decide +kernel)
  refine ⟨_, hreachable, by decide +kernel, by decide +kernel, ?_, after, hafter, ?_, ?_⟩
  · exact (edge_iff _ _ _).2 ⟨_, rfl, by decide +kernel⟩
  · exact (hlive _).2 (by decide +kernel)
  · exact hswept ⟨1, 0⟩ (by decide +kernel) (by decide +kernel)

end ScriptLinker.Heap
