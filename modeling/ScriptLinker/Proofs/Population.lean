import Mathlib.Data.Set.Card
import ScriptLinker.Proofs.Request
/-!
# The cells of a heap and their bytes

`liveIds` are the addresses that name cells, `reached` those that the roots
reach and `swept` the others, which the next collection frees. In a sound heap
the bytes in use are those of the live cells, and after a collection those of
the reached ones.
-/

namespace ScriptLinker.Heap

/-- A list without repetitions counts what it lists. -/
theorem encard_eq_length {α : Type} {items : List α} (h : items.Nodup) {listed : Set α}
    (hmem : ∀ item, item ∈ listed ↔ item ∈ items) : listed.encard = items.length := by
  classical
  have hset : listed = (items.toFinset : Set α) := by
    ext item
    simp [hmem]
  rw [hset, Set.encard_coe_eq_coe_finsetCard, List.toFinset_card_of_nodup h]

theorem addressOf_injective (heap : Heap) : Function.Injective heap.addressOf := by
  intro index other h
  exact congrArg CellId.index h

/-- The addresses that name cells. -/
def liveIds (heap : Heap) : Finset CellId :=
  ((Finset.range heap.slots.size).image heap.addressOf).filter fun id => heap.isLive id = true

@[simp] theorem mem_liveIds (heap : Heap) (id : CellId) :
    id ∈ heap.liveIds ↔ heap.isLive id = true := by
  rw [liveIds, Finset.mem_filter, and_iff_right_iff_imp]
  intro hlive
  obtain ⟨slot, hslot, _⟩ := (isLive_iff_slot heap id).1 hlive
  refine Finset.mem_image.2 ⟨id.index, ?_, addressOf_index hlive⟩
  exact Finset.mem_range.2 (Array.getElem?_eq_some_iff.1 hslot).1

/-- The addresses of the cells that the roots reach. -/
def reached (heap : Heap) : Finset CellId :=
  heap.liveIds.filter heap.Reaches

@[simp] theorem mem_reached (heap : Heap) (id : CellId) : id ∈ heap.reached ↔ heap.Reaches id := by
  rw [reached, Finset.mem_filter, mem_liveIds, and_iff_right_iff_imp]
  exact Reaches.isLive

/-- The addresses of the cells that the roots do not reach. -/
def swept (heap : Heap) : Finset CellId :=
  heap.liveIds.filter fun id => ¬ heap.Reaches id

theorem mem_swept (heap : Heap) (id : CellId) :
    id ∈ heap.swept ↔ heap.isLive id = true ∧ ¬ heap.Reaches id := by
  rw [swept, Finset.mem_filter, mem_liveIds]

/-- The bytes that some cells are charged. -/
def bytesOf (heap : Heap) (ids : Finset CellId) : Nat :=
  ∑ id ∈ ids, heap.bytesAt id.index

theorem bytesOf_congr {heap other : Heap} {ids : Finset CellId}
    (h : ∀ id ∈ ids, other.slots[id.index]? = heap.slots[id.index]?) :
    other.bytesOf ids = heap.bytesOf ids :=
  Finset.sum_congr rfl fun id hid => bytesAt_congr (h id hid)

/-- Empty slots record no bytes, so those of the live cells are all there are. -/
theorem totalBytes_eq_bytesOf {heap : Heap} (h : heap.SlotsSound) :
    heap.totalBytes = heap.bytesOf heap.liveIds := by
  have hinjective : Set.InjOn CellId.index (heap.liveIds : Set CellId) := by
    intro id hid other hother hindex
    exact eq_of_isLive_of_index_eq ((mem_liveIds _ _).1 hid) ((mem_liveIds _ _).1 hother) hindex
  rw [bytesOf, ← Finset.sum_image (g := CellId.index) (f := heap.bytesAt) hinjective, totalBytes]
  refine (Finset.sum_subset ?_ ?_).symm
  · intro index hindex
    obtain ⟨id, hid, rfl⟩ := Finset.mem_image.1 hindex
    obtain ⟨slot, hslot, _⟩ := (isLive_iff_slot heap id).1 ((mem_liveIds _ _).1 hid)
    exact Finset.mem_range.2 (Array.getElem?_eq_some_iff.1 hslot).1
  · intro index hindex habsent
    have hslot := Array.getElem?_eq_getElem (Finset.mem_range.1 hindex)
    rw [bytesAt_of_getElem? hslot]
    apply h.bytes_of_empty index _ hslot
    by_contra hcell
    refine habsent (Finset.mem_image.2 ⟨heap.addressOf index, ?_, rfl⟩)
    rw [mem_liveIds, isLive_iff_slot]
    refine ⟨_, hslot, ?_, Option.isSome_iff_ne_none.2 hcell⟩
    simp [addressOf, Array.getD_eq_getD_getElem?, hslot]

/-- Live cells are reached or swept. -/
theorem bytesOf_reached_add_swept (heap : Heap) :
    heap.bytesOf heap.reached + heap.bytesOf heap.swept = heap.bytesOf heap.liveIds :=
  Finset.sum_filter_add_sum_filter_not _ _ _

theorem liveIds_collected (heap : Heap) : heap.collected.liveIds = heap.reached := by
  ext id
  rw [mem_liveIds, mem_reached, isLive_collected_iff]

theorem bytesOf_reached_collected (heap : Heap) :
    heap.collected.bytesOf heap.reached = heap.bytesOf heap.reached :=
  bytesOf_congr fun _ hid => slot_collected_of_reaches ((mem_reached _ _).1 hid)

/-- The bytes in use are those of the live cells. -/
theorem Sound.usedBytes_eq {heap : Heap} (h : heap.Sound)
    (hlimit : heap.limits.maxBytes < maxSize) : heap.usedBytes = heap.bytesOf heap.liveIds :=
  (h.ledger.usedBytes_eq hlimit).trans (totalBytes_eq_bytesOf h.slots)

/-- After a collection the bytes in use are those of the reached cells. -/
theorem Sound.usedBytes_collected {heap : Heap} (h : heap.Sound)
    (hlimit : heap.limits.maxBytes < maxSize) :
    heap.collected.usedBytes = heap.bytesOf heap.reached := by
  rw [h.collected.usedBytes_eq hlimit, liveIds_collected, bytesOf_reached_collected]

/-- A collection empties as many slots as there are cells to sweep. -/
theorem card_swept (heap : Heap) : heap.swept.card = (heap.garbage heap.mark).length := by
  have heq : heap.swept = ((heap.garbage heap.mark).map heap.addressOf).toFinset := by
    ext id
    rw [mem_swept, List.mem_toFinset, List.mem_map]
    constructor
    · rintro ⟨hlive, hnot⟩
      obtain ⟨slot, hslot, _, hcell⟩ := (isLive_iff_slot heap id).1 hlive
      refine ⟨id.index, (mem_garbage_mark_iff heap _).2 ⟨slot, hslot, hcell, ?_⟩,
        addressOf_index hlive⟩
      rwa [addressOf_index hlive]
    · rintro ⟨index, hindex, rfl⟩
      obtain ⟨slot, hslot, hcell, hnot⟩ := (mem_garbage_mark_iff heap index).1 hindex
      refine ⟨(isLive_iff_slot heap _).2 ⟨slot, hslot, ?_, hcell⟩, hnot⟩
      simp [addressOf, Array.getD_eq_getD_getElem?, hslot]
  rw [heq, List.toFinset_card_of_nodup ((nodup_garbage heap _).map heap.addressOf_injective),
    List.length_map]

end ScriptLinker.Heap
