import ScriptLinker.Proofs.Marking
/-!
# The heap after a collection

Collected heaps are read slot by slot and address by address: what the roots
reach stays where it is, everything else leaves an empty slot of the next
generation, and the roots reach the same cells as before. A heap in which
nothing is left to collect is `Tidy`; collecting it counts one more run and
changes nothing else.
-/

namespace ScriptLinker.Heap

@[simp] theorem limits_collected (heap : Heap) : heap.collected.limits = heap.limits := rfl

theorem atoms_collected (heap : Heap) :
    heap.collected.atoms = heap.atoms.filter fun entry => heap.collected.isLive entry.2.id := rfl

theorem sharedImages_collected (heap : Heap) :
    heap.collected.sharedImages = heap.sharedImages.filter heap.collected.isShared := rfl

theorem nextThreshold_collected (heap : Heap) :
    heap.collected.nextThreshold = heap.collected.adaptedThreshold := rfl

theorem freeSlots_collected (heap : Heap) :
    heap.collected.freeSlots = (heap.garbage heap.mark).reverse ++ heap.freeSlots := rfl

theorem cellsSwept_collected (heap : Heap) :
    heap.collected.stats.cellsSwept =
      heap.stats.cellsSwept + (heap.garbage heap.mark).length := rfl

theorem gcRuns_collected (heap : Heap) :
    heap.collected.stats.gcRuns = heap.stats.gcRuns + 1 := rfl

theorem marks_collected (heap : Heap) : heap.collected.marks = heap.mark.marks := rfl

@[simp] theorem roots_collected (heap : Heap) : heap.collected.roots = heap.roots := rfl

/-- A collection empties the occupied slots whose cell the roots do not reach. -/
theorem getElem?_slots_collected (heap : Heap) (index : Nat) :
    heap.collected.slots[index]? = heap.slots[index]?.map fun slot =>
      if slot.cell.isSome = true ∧ ¬ heap.Reaches (heap.addressOf index) then
        slot.emptied
      else
        slot := by
  have hmark := isMarked_mark_iff heap index
  simp only [collected, collectedBy, pruneTables, sweep, Array.getElem?_mapIdx,
    Slot.isGarbage, Bool.and_eq_true, Bool.not_eq_true', ← Bool.not_eq_true, hmark]

theorem mem_garbage_mark_iff (heap : Heap) (index : Nat) :
    index ∈ heap.garbage heap.mark ↔
      ∃ slot, heap.slots[index]? = some slot ∧ slot.cell.isSome = true ∧
        ¬ heap.Reaches (heap.addressOf index) := by
  simp only [mem_garbage_iff, Slot.isGarbage, Bool.and_eq_true, Bool.not_eq_true',
    ← Bool.not_eq_true, isMarked_mark_iff]

theorem nodup_garbage (heap : Heap) (marking : Marking) : (heap.garbage marking).Nodup :=
  List.nodup_range.filter _

/-- The slot of a reached cell is left as it is. -/
theorem slot_collected_of_reaches {heap : Heap} {id : CellId} (h : heap.Reaches id) :
    heap.collected.slots[id.index]? = heap.slots[id.index]? := by
  rw [getElem?_slots_collected, addressOf_index h.isLive]
  simp [h]

/-- After a collection an address names the cell it named before, if the roots
reach it, and nothing otherwise. -/
theorem cell?_collected (heap : Heap) (id : CellId) :
    heap.collected.cell? id = if heap.Reaches id then heap.cell? id else none := by
  split
  · rename_i h
    exact cell?_congr (slot_collected_of_reaches h)
  · rename_i h
    rw [Option.eq_none_iff_forall_ne_some]
    intro cell hcell
    obtain ⟨slot, hslot, hgeneration, hsome⟩ := (cellAt?_eq_some_iff _ _ _).1 hcell
    rw [getElem?_slots_collected] at hslot
    obtain ⟨old, hold, rfl⟩ := Option.map_eq_some_iff.1 hslot
    split at hsome
    · simp at hsome
    · rename_i hkept
      rw [if_neg hkept] at hgeneration
      have haddress : heap.addressOf id.index = id := by
        refine addressOf_index ((isLive_iff_slot heap id).2 ⟨old, hold, hgeneration, ?_⟩)
        simp [hsome]
      simp [hsome, haddress, h] at hkept

theorem isLive_collected_iff (heap : Heap) (id : CellId) :
    heap.collected.isLive id = true ↔ heap.Reaches id := by
  rw [isLive, cell?_collected]
  split
  · rename_i h
    simpa [h, isLive] using h.isLive
  · rename_i h
    simp [h]

theorem cell?_collected_of_reaches {heap : Heap} {id : CellId} (h : heap.Reaches id) :
    heap.collected.cell? id = heap.cell? id := by
  rw [cell?_collected, if_pos h]

/-- A collection never makes an address name another cell. -/
theorem cell?_of_cell?_collected {heap : Heap} {id : CellId} {cell : Cell}
    (h : heap.collected.cell? id = some cell) : heap.cell? id = some cell := by
  rw [cell?_collected] at h
  split at h
  · exact h
  · simp at h

/-- The roots reach the same cells after a collection as before it. -/
theorem reaches_collected_iff (heap : Heap) (id : CellId) :
    heap.collected.Reaches id ↔ heap.Reaches id := by
  constructor
  · exact fun h => (isLive_collected_iff heap id).1 h.isLive
  · refine fun h => h.of_embedding (fun ref href => by simpa using href) ?_
    intro id cell hreached hcell
    exact ⟨cell, (cell?_collected_of_reaches hreached).trans hcell, fun ref href => href⟩

/-- Heaps of as many slots whose roots reach the same are marked alike. -/
theorem marks_mark_congr {heap other : Heap} (hsize : other.slots.size = heap.slots.size)
    (hreaches : ∀ id, other.Reaches id ↔ heap.Reaches id) :
    other.mark.marks = heap.mark.marks := by
  have hmarked : ∀ index,
      other.mark.isMarked index = true ↔ heap.mark.isMarked index = true := by
    intro index
    rw [isMarked_mark_iff, isMarked_mark_iff, hreaches]
    constructor
    · intro h
      rwa [← addressOf_index h.isLive] at h
    · intro h
      rwa [← addressOf_index ((hreaches _).2 h).isLive] at h
  have hmarks : other.mark.marks.size = heap.mark.marks.size := by simp [hsize]
  refine Array.ext hmarks fun index hleft hright => ?_
  have hindex := Bool.eq_iff_iff.2 (hmarked index)
  simp only [Marking.isMarked, Array.getD_eq_getD_getElem?, Array.getElem?_eq_getElem hleft,
    Array.getElem?_eq_getElem hright, Option.getD_some] at hindex
  exact hindex

/-- The parts of a heap that a collection changes. -/
theorem eta_collected (heap : Heap) :
    heap.collected =
      { heap with
        slots := heap.collected.slots
        marks := heap.collected.marks
        freeSlots := heap.collected.freeSlots
        usedBytes := heap.collected.usedBytes
        atoms := heap.collected.atoms
        sharedImages := heap.collected.sharedImages
        storeBuffer := #[]
        nextThreshold := heap.collected.nextThreshold
        stats := heap.collected.stats } := rfl

/-- A heap in which a collection finds nothing to do. -/
structure Tidy (heap : Heap) : Prop where
  reached : ∀ id, heap.isLive id = true → heap.Reaches id
  atoms_live : ∀ entry ∈ heap.atoms, heap.isLive entry.2.id = true
  images_shared : ∀ object ∈ heap.sharedImages, heap.isShared object = true
  marks_eq : heap.marks = heap.mark.marks
  storeBuffer_eq : heap.storeBuffer = #[]
  nextThreshold_eq : heap.nextThreshold = heap.adaptedThreshold

theorem tidy_collected (heap : Heap) : heap.collected.Tidy where
  reached := fun id h =>
    (reaches_collected_iff heap id).2 ((isLive_collected_iff heap id).1 h)
  atoms_live := by
    intro entry h
    rw [atoms_collected] at h
    exact (List.mem_filter.1 h).2
  images_shared := by
    intro object h
    rw [sharedImages_collected] at h
    exact (List.mem_filter.1 h).2
  marks_eq := (marks_mark_congr (size_slots_collected heap) (reaches_collected_iff heap)).symm
  storeBuffer_eq := rfl
  nextThreshold_eq := rfl

theorem Tidy.garbage_eq {heap : Heap} (h : heap.Tidy) : heap.garbage heap.mark = [] := by
  rw [List.eq_nil_iff_forall_not_mem]
  intro index hindex
  obtain ⟨slot, hslot, hcell, hnot⟩ := (mem_garbage_mark_iff heap index).1 hindex
  refine hnot (h.reached _ ((isLive_iff_slot heap _).2 ⟨slot, hslot, ?_, hcell⟩))
  simp [addressOf, Array.getD_eq_getD_getElem?, hslot]

/-- Collecting a tidy heap only counts the run. -/
theorem Tidy.collected_eq {heap : Heap} (h : heap.Tidy) :
    heap.collected =
      { heap with stats := { heap.stats with gcRuns := heap.stats.gcRuns + 1 } } := by
  have hgarbage := h.garbage_eq
  have hslots : heap.collected.slots = heap.slots := by
    refine Array.ext_getElem? fun index => ?_
    rw [getElem?_slots_collected]
    refine Option.map_congr (g := id) (fun slot hslot => ?_) |>.trans (by simp)
    have hnot : ¬ index ∈ heap.garbage heap.mark := by simp [hgarbage]
    rw [if_neg fun hkept => hnot ((mem_garbage_mark_iff heap index).2 ⟨slot, hslot, hkept⟩)]
    rfl
  have hused : heap.collected.usedBytes = heap.usedBytes := by
    simp [collected, collectedBy, pruneTables, sweep, hgarbage]
  have hlive : ∀ id, heap.collected.isLive id = heap.isLive id := by
    simp [isLive, cell?, hslots]
  have hshared : ∀ object, heap.collected.isShared object = heap.isShared object := by
    simp [isShared, hslots]
  have hatoms : heap.collected.atoms = heap.atoms := by
    rw [atoms_collected, List.filter_eq_self]
    exact fun entry hentry => (hlive _).trans (h.atoms_live entry hentry)
  have himages : heap.collected.sharedImages = heap.sharedImages := by
    rw [sharedImages_collected, List.filter_eq_self]
    exact fun object hobject => (hshared _).trans (h.images_shared object hobject)
  have hthreshold : heap.collected.nextThreshold = heap.nextThreshold := by
    rw [nextThreshold_collected, h.nextThreshold_eq, adaptedThreshold, adaptedThreshold, hused,
      limits_collected]
  have hfree : heap.collected.freeSlots = heap.freeSlots := by
    simp [freeSlots_collected, hgarbage]
  have hstats : heap.collected.stats =
      { heap.stats with gcRuns := heap.stats.gcRuns + 1 } := by
    simp [collected, collectedBy, pruneTables, sweep, hgarbage]
  have hmarks : heap.collected.marks = heap.marks := h.marks_eq.symm
  rw [eta_collected, hslots, hmarks, hfree, hused, hatoms, himages, ← h.storeBuffer_eq,
    hthreshold, hstats]

end ScriptLinker.Heap
