import Mathlib.Algebra.BigOperators.Group.Finset.Piecewise
import Mathlib.Algebra.BigOperators.Intervals
import Mathlib.Algebra.Order.BigOperators.Group.Finset
import ScriptLinker.Proofs.Slots
/-!
# The ledger of bytes

`LedgerSound` says that the bytes in use are the sum of what the slots record
and stay under the hard limit, and that the thresholds lie between the
configured one and the limit. The sum is exact only below a limit that sizes can
exceed: at the largest size an addition that saturates would be accepted.
-/

namespace ScriptLinker.Heap

/-- The bytes that the slot at an index records. -/
def bytesAt (heap : Heap) (index : Nat) : Nat :=
  (heap.slots.getD index {}).bytes

theorem bytesAt_of_getElem? {heap : Heap} {index : Nat} {slot : Slot}
    (h : heap.slots[index]? = some slot) : heap.bytesAt index = slot.bytes := by
  simp [bytesAt, Array.getD_eq_getD_getElem?, h]

theorem bytesAt_of_size_le {heap : Heap} {index : Nat} (h : heap.slots.size ≤ index) :
    heap.bytesAt index = 0 := by
  simp [bytesAt, Array.getD_eq_getD_getElem?, h]

theorem bytesAt_congr {heap other : Heap} {index : Nat}
    (h : other.slots[index]? = heap.slots[index]?) : other.bytesAt index = heap.bytesAt index := by
  simp only [bytesAt, Array.getD_eq_getD_getElem?, h]

/-- The bytes that all slots record. -/
def totalBytes (heap : Heap) : Nat :=
  ∑ index ∈ Finset.range heap.slots.size, heap.bytesAt index

/-- Slots past the end record nothing, so the sum may run past it. -/
theorem totalBytes_eq {heap : Heap} {bound : Nat} (h : heap.slots.size ≤ bound) :
    heap.totalBytes = ∑ index ∈ Finset.range bound, heap.bytesAt index := by
  refine Finset.sum_subset (Finset.range_mono h) fun index _ hindex => ?_
  exact bytesAt_of_size_le (by simpa using hindex)

theorem bytesAt_le_totalBytes (heap : Heap) (index : Nat) :
    heap.bytesAt index ≤ heap.totalBytes := by
  by_cases h : index < heap.slots.size
  · exact Finset.single_le_sum (f := heap.bytesAt) (fun _ _ => Nat.zero_le _)
      (Finset.mem_range.2 h)
  · simp [bytesAt_of_size_le (Nat.le_of_not_lt h)]

/-- The bytes in use are what the slots record, below the hard limit, and the
thresholds are in order. -/
structure LedgerSound (heap : Heap) : Prop where
  usedBytes_eq : heap.limits.maxBytes < maxSize → heap.usedBytes = heap.totalBytes
  usedBytes_le : heap.usedBytes ≤ heap.limits.maxBytes
  gcThreshold_le : heap.limits.gcThreshold ≤ heap.nextThreshold
  nextThreshold_le : heap.nextThreshold ≤ heap.limits.maxBytes

theorem ledgerSound_ofLimits (limits : HeapLimits) : (ofLimits limits).LedgerSound where
  usedBytes_eq := fun _ => by simp [ofLimits, totalBytes]
  usedBytes_le := Nat.zero_le _
  gcThreshold_le := le_refl _
  nextThreshold_le := Nat.min_le_right _ _

/-- Where two heaps record different bytes in one slot only, their sums differ
by as much. -/
theorem totalBytes_add_of_others {heap after : Heap} {index before now : Nat}
    (hsize : heap.slots.size ≤ after.slots.size) (hindex : index < after.slots.size)
    (hbefore : heap.bytesAt index = before) (hnow : after.bytesAt index = now)
    (hothers : ∀ other, other ≠ index → after.bytesAt other = heap.bytesAt other) :
    after.totalBytes + before = heap.totalBytes + now := by
  have hmem : index ∈ Finset.range after.slots.size := Finset.mem_range.2 hindex
  have hleft : after.totalBytes =
      now + ∑ other ∈ (Finset.range after.slots.size).erase index, heap.bytesAt other := by
    rw [totalBytes, ← Finset.add_sum_erase _ _ hmem, hnow]
    exact congrArg _ (Finset.sum_congr rfl fun other hother =>
      hothers other (Finset.ne_of_mem_erase hother))
  have hright : heap.totalBytes =
      before + ∑ other ∈ (Finset.range after.slots.size).erase index, heap.bytesAt other := by
    rw [totalBytes_eq hsize, ← Finset.add_sum_erase _ _ hmem, hbefore]
  omega

theorem LedgerSound.move {given : Set CellRef} {heap after : Heap} (h : heap.LedgerSound)
    (hmove : Move given heap after) : after.LedgerSound := by
  have hframe := hmove.frame
  have hthreshold : after.limits.gcThreshold ≤ after.nextThreshold ∧
      after.nextThreshold ≤ after.limits.maxBytes := by
    rw [hframe.limits, hframe.nextThreshold]
    exact ⟨h.gcThreshold_le, h.nextThreshold_le⟩
  cases hmove.slotChange with
  | none hslots hused =>
      refine ⟨fun hlimit => ?_, ?_, hthreshold.1, hthreshold.2⟩
      · rw [hused, h.usedBytes_eq (hframe.limits ▸ hlimit)]
        simp only [totalBytes, bytesAt, hslots]
      · rw [hused, hframe.limits]
        exact h.usedBytes_le
  | @rewrite script content changed recharge hscript _ hslots hledger hle =>
      obtain ⟨held, hheld, _, _⟩ := slot_of_script hscript
      refine ⟨fun hlimit => ?_, ?_, hthreshold.1, hthreshold.2⟩
      · rw [hframe.limits] at hlimit
        have hsize : after.slots.size = heap.slots.size := by rw [hslots, Array.size_modify]
        have hindex : script.id.index < after.slots.size :=
          hsize ▸ (Array.getElem?_eq_some_iff.1 hheld).1
        have hnow : after.bytesAt script.id.index = recharge held.bytes := by
          rw [bytesAt, Array.getD_eq_getD_getElem?, hslots, Array.getElem?_modify, if_pos rfl,
            hheld]
          rfl
        have hothers : ∀ other, other ≠ script.id.index →
            after.bytesAt other = heap.bytesAt other := by
          intro other hother
          apply bytesAt_congr
          rw [hslots, Array.getElem?_modify, if_neg hother.symm]
        have htotal := totalBytes_add_of_others hsize.ge hindex (bytesAt_of_getElem? hheld) hnow
          hothers
        have hheldle : held.bytes ≤ heap.usedBytes := by
          rw [h.usedBytes_eq hlimit, ← bytesAt_of_getElem? hheld]
          exact bytesAt_le_totalBytes heap _
        have hused := hledger held hheld hlimit hheldle
        rw [h.usedBytes_eq hlimit] at hused
        omega
      · rw [hframe.limits]
        exact hle h.usedBytes_le

theorem LedgerSound.placed {heap after : Heap} {cell : Cell} {bytes : Nat} {id : CellId}
    (h : heap.LedgerSound) (hplaced : heap.Placed cell bytes id after) : after.LedgerSound := by
  refine ⟨fun hlimit => ?_, ?_, ?_, ?_⟩
  · rw [hplaced.limits] at hlimit
    have hbefore : heap.bytesAt id.index = 0 := by
      cases hslot : heap.slots[id.index]? with
      | none => simp [bytesAt, Array.getD_eq_getD_getElem?, hslot]
      | some slot =>
          rw [bytesAt_of_getElem? hslot]
          exact (hplaced.vacant slot hslot).2.2
    have htotal := totalBytes_add_of_others hplaced.size_le
      (Array.getElem?_eq_some_iff.1 hplaced.slot).1 hbefore (bytesAt_of_getElem? hplaced.slot)
      fun other hother => bytesAt_congr (hplaced.others other hother)
    rw [hplaced.usedBytes, satAdd_of_hasRoom hplaced.room hlimit, h.usedBytes_eq hlimit]
    exact htotal.symm
  · rw [hplaced.usedBytes, hplaced.limits]
    exact hplaced.room
  · rw [hplaced.limits, hplaced.nextThreshold]
    exact h.gcThreshold_le
  · rw [hplaced.limits, hplaced.nextThreshold]
    exact h.nextThreshold_le

/-- What a collection takes off, one slot after the other, is a sum. -/
theorem foldl_sub_bytesAt (heap : Heap) (indices : List Nat) (used : Nat) :
    indices.foldl (fun used index => used - heap.bytesAt index) used =
      used - (indices.map heap.bytesAt).sum := by
  induction indices generalizing used with
  | nil => simp
  | cons index rest ih => rw [List.foldl_cons, ih, List.map_cons, List.sum_cons, Nat.sub_sub]

/-- What a collection takes off the bytes in use. -/
theorem usedBytes_collected (heap : Heap) :
    heap.collected.usedBytes =
      heap.usedBytes - ∑ index ∈ (heap.garbage heap.mark).toFinset, heap.bytesAt index := by
  rw [List.sum_toFinset _ (nodup_garbage heap _)]
  exact foldl_sub_bytesAt heap _ _

/-- The slots record before a collection what they record after it, and what
was recorded for the cells it swept. -/
theorem totalBytes_collected (heap : Heap) :
    heap.collected.totalBytes +
      ∑ index ∈ (heap.garbage heap.mark).toFinset, heap.bytesAt index = heap.totalBytes := by
  have hsubset : (heap.garbage heap.mark).toFinset ⊆ Finset.range heap.slots.size := by
    intro index hindex
    obtain ⟨slot, hslot, _⟩ := (mem_garbage_mark_iff heap index).1 (List.mem_toFinset.1 hindex)
    exact Finset.mem_range.2 (Array.getElem?_eq_some_iff.1 hslot).1
  have hbytes : ∀ index, heap.collected.bytesAt index =
      if index ∈ (heap.garbage heap.mark).toFinset then 0 else heap.bytesAt index := by
    intro index
    simp only [List.mem_toFinset, mem_garbage_mark_iff]
    rw [bytesAt, Array.getD_eq_getD_getElem?, getElem?_slots_collected]
    cases hslot : heap.slots[index]? with
    | none => simp [bytesAt, Array.getD_eq_getD_getElem?, hslot]
    | some slot =>
        rw [bytesAt_of_getElem? hslot]
        by_cases hswept : slot.cell.isSome = true ∧ ¬ heap.Reaches (heap.addressOf index)
        · simp [hswept]
        · simp [hswept]
  rw [totalBytes, size_slots_collected, Finset.sum_congr rfl fun index _ => hbytes index,
    Finset.sum_ite, Finset.sum_const_zero, zero_add, totalBytes,
    ← Finset.sum_sdiff hsubset, Finset.filter_not, Finset.filter_mem_eq_inter,
    Finset.inter_eq_right.2 hsubset]

theorem LedgerSound.collected {heap : Heap} (h : heap.LedgerSound) :
    heap.collected.LedgerSound := by
  have hmax : heap.limits.gcThreshold ≤ heap.limits.maxBytes :=
    h.gcThreshold_le.trans h.nextThreshold_le
  refine ⟨fun hlimit => ?_, ?_, ?_, ?_⟩
  · rw [usedBytes_collected, h.usedBytes_eq hlimit, ← totalBytes_collected]
    omega
  · rw [usedBytes_collected, limits_collected]
    exact (Nat.sub_le _ _).trans h.usedBytes_le
  · rw [nextThreshold_collected, adaptedThreshold]
    exact le_max_right _ _
  · rw [nextThreshold_collected, adaptedThreshold, limits_collected]
    exact max_le (min_le_right _ _) hmax

end ScriptLinker.Heap
