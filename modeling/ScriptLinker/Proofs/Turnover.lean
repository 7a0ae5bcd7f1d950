import ScriptLinker.Proofs.History
import ScriptLinker.Proofs.Sharing
/-!
# A slot that is filled over and over

In zeal every allocation collects first. A scope that nothing refers to is swept by
the next allocation, and the scope that is allocated then takes its slot, one generation
on. Generations start over after the last one, so a slot that is turned over often
enough issues an address for the second time. `nextAll_turnover` gives the heap after any
number of such turns in closed form.
-/

namespace ScriptLinker

namespace Heap

/-- The request of a turn: a scope that nothing is to hold. -/
abbrev idleScope : Cell :=
  .scope { kind := .global, enclosing := none }

variable {base heap : Heap} {index generation turns : Nat}

/-- A tidy heap in zeal with one empty slot, whose cells do not refer to a cell there. -/
structure Pivots (base : Heap) (index : Nat) : Prop where
  tidy : base.Tidy
  zeal : base.zeal = true
  unarmed : base.failureCountdown = none
  freeSlots : base.freeSlots = [index]
  vacant : ∃ slot, base.slots[index]? = some slot ∧ slot.cell = none
  apart : ∀ slot ∈ base.slots, ∀ ref ∈ slot.cell.elim [] Cell.references, ref.id.index ≠ index
  room : base.HasRoom Charge.scope
  limit : base.limits.maxBytes < maxSize

/-- The heap with another generation in its empty slot, so many turns later. -/
def vacated (base : Heap) (index generation turns : Nat) : Heap :=
  { base with
    slots := base.slots.setIfInBounds index { generation }
    stats := { base.stats with
      gcRuns := base.stats.gcRuns + turns
      allocations := base.stats.allocations + turns
      cellsSwept := base.stats.cellsSwept + turns } }

/-- That heap with a scope in the slot. -/
def spun (base : Heap) (index generation turns : Nat) : Heap :=
  { base.vacated index generation turns with freeSlots := [] }.fill index idleScope Charge.scope

theorem vacated_self (hslot : base.slots[index]? = some { generation }) :
    base.vacated index generation 0 = base := by
  have hslots : base.slots.setIfInBounds index { generation } = base.slots := by
    refine Array.ext_getElem? fun other => ?_
    rw [Array.getElem?_setIfInBounds]
    split
    · rename_i heq
      subst heq
      rw [hslot]
      simp [(Array.getElem?_eq_some_iff.1 hslot).1]
    · rfl
  rw [vacated, hslots]
  rfl

namespace Pivots

theorem lt_size (h : base.Pivots index) : index < base.slots.size := by
  obtain ⟨slot, hslot, _⟩ := h.vacant
  exact (Array.getElem?_eq_some_iff.1 hslot).1

theorem satAdd_usedBytes (h : base.Pivots index) :
    satAdd base.usedBytes Charge.scope = base.usedBytes + Charge.scope :=
  satAdd_of_hasRoom h.room h.limit

theorem index_ne_of_isLive (h : base.Pivots index) {id : CellId}
    (hlive : base.isLive id = true) : id.index ≠ index := by
  rintro rfl
  obtain ⟨slot, hslot, hcell⟩ := h.vacant
  obtain ⟨other, hother, _, hsome⟩ := (isLive_iff_slot base id).1 hlive
  obtain rfl := Option.some.inj (hslot.symm.trans hother)
  simp [hcell] at hsome

/-- The cells of the heap are reached, those of the other slots. -/
theorem reaches_of_occupied (h : base.Pivots index) {other : Nat} {slot : Slot}
    (hslot : base.slots[other]? = some slot) (hcell : slot.cell.isSome = true) :
    base.Reaches ⟨other, slot.generation⟩ :=
  h.tidy.reached _ ((isLive_iff_slot base _).2 ⟨slot, hslot, rfl, hcell⟩)

theorem not_reaches_vacant (h : base.Pivots index) (generation : Nat) :
    ¬ base.Reaches ⟨index, generation⟩ :=
  fun hid => h.index_ne_of_isLive hid.isLive rfl

theorem slots_spun (h : base.Pivots index) (generation turns other : Nat) :
    (base.spun index generation turns).slots[other]? =
      if other = index then some ⟨some idleScope, generation, Charge.scope⟩
      else base.slots[other]? := by
  have hsize := h.lt_size
  simp only [spun, fill, modifySlot, vacated, Array.getElem?_modify, Array.getElem?_setIfInBounds]
  by_cases hother : index = other
  · subst hother
    simp [hsize]
  · simp [hother, Ne.symm hother]

theorem generationAt_spun (h : base.Pivots index) (generation turns other : Nat) :
    (base.spun index generation turns).generationAt other =
      if other = index then generation else base.generationAt other := by
  have hslots := h.slots_spun generation turns other
  split
  · rename_i hother
    exact generationAt_of_getElem? (hslots.trans (if_pos hother))
  · rename_i hother
    exact generationAt_congr (hslots.trans (if_neg hother))

end Pivots

/-- A heap with the roots of another one and its slots, and a scope in the slot that is empty
there. -/
structure Spins (base heap : Heap) (index generation : Nat) : Prop where
  slots : ∀ other : Nat, heap.slots[other]? =
    if other = index then some ⟨some idleScope, generation, Charge.scope⟩
    else base.slots[other]?
  roots : heap.roots = base.roots

theorem Pivots.spins (h : base.Pivots index) (generation turns : Nat) :
    base.Spins (base.spun index generation turns).passed index generation :=
  ⟨h.slots_spun generation turns, rfl⟩

namespace Spins

theorem slot (hspins : base.Spins heap index generation) :
    heap.slots[index]? = some ⟨some idleScope, generation, Charge.scope⟩ :=
  (hspins.slots index).trans (if_pos rfl)

theorem slot_of_ne (hspins : base.Spins heap index generation) {other : Nat}
    (hne : other ≠ index) : heap.slots[other]? = base.slots[other]? :=
  (hspins.slots other).trans (if_neg hne)

theorem cell?_of_ne (hspins : base.Spins heap index generation) {id : CellId}
    (hne : id.index ≠ index) : heap.cell? id = base.cell? id :=
  cell?_congr (hspins.slot_of_ne hne)

theorem isLive_of_ne (hspins : base.Spins heap index generation) {id : CellId}
    (hne : id.index ≠ index) (hlive : heap.isLive id = true) : base.isLive id = true := by
  rwa [isLive, hspins.cell?_of_ne hne] at hlive

/-- The scope in the slot is out of reach, unless a root names it. -/
theorem reaches_iff (hspins : base.Spins heap index generation) (h : base.Pivots index)
    (hroots : ∀ ref ∈ base.roots, ref.id ≠ ⟨index, generation⟩) (id : CellId) :
    heap.Reaches id ↔ base.Reaches id := by
  constructor
  · refine Reaches.of_closed (fun ref href hlive => ?_) fun source ref hsource hedge hlive => ?_
    · rw [hspins.roots] at href
      refine .of_root href (hspins.isLive_of_ne (fun hindex => hroots ref href ?_) hlive)
      obtain ⟨slot, hslot, hgeneration, _⟩ := (isLive_iff_slot _ _).1 hlive
      rw [hindex] at hslot
      obtain rfl := Option.some.inj (hslot.symm.trans hspins.slot)
      exact congrArg₂ CellId.mk hindex hgeneration.symm
    · have hne := h.index_ne_of_isLive hsource.isLive
      have hold : base.Edge source ref := by
        rw [edge_iff] at hedge ⊢
        simpa only [hspins.cell?_of_ne hne] using hedge
      obtain ⟨cell, hfound, href⟩ := (edge_iff _ _ _).1 hold
      obtain ⟨slot, hslot, _, hheld⟩ := (cellAt?_eq_some_iff _ _ _).1 hfound
      have hapart := h.apart slot (Array.mem_of_getElem? hslot) ref (by simpa [hheld] using href)
      exact .edge hsource hold (hspins.isLive_of_ne hapart hlive)
  · refine Reaches.of_embedding (fun ref href => hspins.roots ▸ href) ?_
    intro source cell hsource hfound
    have hne := h.index_ne_of_isLive hsource.isLive
    exact ⟨cell, (hspins.cell?_of_ne hne).trans hfound, fun ref href => href⟩

/-- What is not reached is the scope in the slot. -/
theorem reaches_addressOf_iff (hspins : base.Spins heap index generation) (h : base.Pivots index)
    (hroots : ∀ ref ∈ base.roots, ref.id ≠ ⟨index, generation⟩) {other : Nat} {slot : Slot}
    (hslot : heap.slots[other]? = some slot) (hcell : slot.cell.isSome = true) :
    heap.Reaches (heap.addressOf other) ↔ other ≠ index := by
  have haddress : heap.addressOf other = ⟨other, slot.generation⟩ := by
    rw [addressOf, Array.getD_eq_getD_getElem?, hslot]
    rfl
  rw [haddress, hspins.reaches_iff h hroots]
  constructor
  · rintro hreached rfl
    exact h.not_reaches_vacant _ hreached
  · exact fun hne => h.reaches_of_occupied ((hspins.slot_of_ne hne).symm.trans hslot) hcell

theorem garbage_eq (hspins : base.Spins heap index generation) (h : base.Pivots index)
    (hroots : ∀ ref ∈ base.roots, ref.id ≠ ⟨index, generation⟩) :
    heap.garbage heap.mark = [index] := by
  refine List.perm_singleton.1 ((List.perm_ext_iff_of_nodup (nodup_garbage _ _)
    (List.nodup_singleton _)).2 fun other => ?_)
  rw [mem_garbage_mark_iff, List.mem_singleton]
  constructor
  · rintro ⟨slot, hslot, hcell, hnot⟩
    exact by_contra fun hne => hnot ((hspins.reaches_addressOf_iff h hroots hslot hcell).2 hne)
  · rintro rfl
    exact ⟨_, hspins.slot, rfl, fun hreached =>
      (hspins.reaches_addressOf_iff h hroots hspins.slot rfl).1 hreached rfl⟩

theorem slots_collected (hspins : base.Spins heap index generation) (h : base.Pivots index)
    (hroots : ∀ ref ∈ base.roots, ref.id ≠ ⟨index, generation⟩) :
    heap.collected.slots =
      base.slots.setIfInBounds index { generation := (generation + 1) % UInt32.size } := by
  refine Array.ext_getElem? fun other => ?_
  rw [getElem?_slots_collected, Array.getElem?_setIfInBounds]
  by_cases hother : other = index
  · subst hother
    have hnot : ¬ heap.Reaches (heap.addressOf other) := fun hreached =>
      (hspins.reaches_addressOf_iff h hroots hspins.slot rfl).1 hreached rfl
    rw [hspins.slot]
    simp [hnot, h.lt_size, Slot.emptied]
  · rw [if_neg (Ne.symm hother), ← hspins.slot_of_ne hother]
    cases hslot : heap.slots[other]? with
    | none => rfl
    | some slot =>
        refine congrArg some (if_neg ?_)
        rintro ⟨hcell, hnot⟩
        exact hnot ((hspins.reaches_addressOf_iff h hroots hslot hcell).2 hother)

theorem size_eq (hspins : base.Spins heap index generation) (h : base.Pivots index)
    (hroots : ∀ ref ∈ base.roots, ref.id ≠ ⟨index, generation⟩) :
    heap.slots.size = base.slots.size := by
  rw [← size_slots_collected, hspins.slots_collected h hroots, Array.size_setIfInBounds]

theorem marks_collected (hspins : base.Spins heap index generation) (h : base.Pivots index)
    (hroots : ∀ ref ∈ base.roots, ref.id ≠ ⟨index, generation⟩) :
    heap.collected.marks = base.marks :=
  (marks_mark_congr (hspins.size_eq h hroots) (hspins.reaches_iff h hroots)).trans
    h.tidy.marks_eq.symm

theorem usedBytes_collected (hspins : base.Spins heap index generation) (h : base.Pivots index)
    (hroots : ∀ ref ∈ base.roots, ref.id ≠ ⟨index, generation⟩) :
    heap.collected.usedBytes = heap.usedBytes - Charge.scope := by
  rw [Heap.usedBytes_collected, hspins.garbage_eq h hroots, List.toFinset_cons, List.toFinset_nil,
    insert_empty_eq, Finset.sum_singleton, bytesAt_of_getElem? hspins.slot]

/-- The tables list no cell of the slot. -/
theorem atoms_collected (hspins : base.Spins heap index generation) (h : base.Pivots index)
    (hroots : ∀ ref ∈ base.roots, ref.id ≠ ⟨index, generation⟩) (hatoms : heap.atoms = base.atoms) :
    heap.collected.atoms = base.atoms := by
  rw [Heap.atoms_collected, hatoms]
  refine List.filter_eq_self.2 fun entry hentry => ?_
  rw [isLive_collected_iff, hspins.reaches_iff h hroots]
  exact h.tidy.reached _ (h.tidy.atoms_live entry hentry)

theorem sharedImages_collected (hspins : base.Spins heap index generation) (h : base.Pivots index)
    (hroots : ∀ ref ∈ base.roots, ref.id ≠ ⟨index, generation⟩)
    (himages : heap.sharedImages = base.sharedImages) :
    heap.collected.sharedImages = base.sharedImages := by
  rw [Heap.sharedImages_collected, himages]
  refine List.filter_eq_self.2 fun object hobject => ?_
  obtain ⟨id, hshared⟩ := (isShared_iff base object).1 (h.tidy.images_shared object hobject)
  obtain ⟨cell, hcell, _⟩ := Option.bind_eq_some_iff.1 hshared
  have hlive := (isLive_iff base id).2 ⟨cell, hcell⟩
  have hreached := (hspins.reaches_iff h hroots id).2 (h.tidy.reached id hlive)
  refine (isShared_iff _ object).2 ⟨id, ?_⟩
  rw [objectAt?, cell?_collected_of_reaches hreached,
    hspins.cell?_of_ne (h.index_ne_of_isLive hlive)]
  exact hshared

end Spins

namespace Pivots

/-- A collection leaves the slot empty, one generation on, and changes nothing else. -/
theorem collected_spun (h : base.Pivots index)
    (hroots : ∀ ref ∈ base.roots, ref.id ≠ ⟨index, generation⟩) (turns : Nat) :
    (base.spun index generation turns).passed.collected =
      base.vacated index ((generation + 1) % UInt32.size) (turns + 1) := by
  have hspins := h.spins generation turns
  have hgarbage := hspins.garbage_eq h hroots
  have hfree : (base.spun index generation turns).passed.collected.freeSlots = base.freeSlots := by
    rw [freeSlots_collected, hgarbage, h.freeSlots]
    rfl
  have hused : (base.spun index generation turns).passed.collected.usedBytes = base.usedBytes := by
    have hbefore : (base.spun index generation turns).passed.usedBytes =
        base.usedBytes + Charge.scope := h.satAdd_usedBytes
    rw [hspins.usedBytes_collected h hroots, hbefore, Nat.add_sub_cancel]
  have hthreshold : (base.spun index generation turns).passed.collected.nextThreshold =
      base.nextThreshold := by
    rw [nextThreshold_collected, h.tidy.nextThreshold_eq, adaptedThreshold, adaptedThreshold, hused]
    rfl
  have hstats : (base.spun index generation turns).passed.collected.stats =
      (base.vacated index ((generation + 1) % UInt32.size) (turns + 1)).stats := by
    have hswept := cellsSwept_collected (base.spun index generation turns).passed
    have heta : (base.spun index generation turns).passed.collected.stats =
        { (base.vacated index generation (turns + 1)).stats with
          cellsSwept := (base.spun index generation turns).passed.collected.stats.cellsSwept } :=
      rfl
    rw [heta, hswept, hgarbage]
    rfl
  rw [eta_collected, hspins.slots_collected h hroots, hspins.marks_collected h hroots, hfree, hused,
    hspins.atoms_collected h hroots rfl, hspins.sharedImages_collected h hroots rfl,
    ← h.tidy.storeBuffer_eq, hthreshold, hstats]
  simp only [passed, countAttempt, spun, fill, modifySlot, vacated, h.unarmed, Option.map_none]

theorem ending_allocScope (h : base.Pivots index)
    (hreserve : (reserve Charge.scope).ending heap =
      (.ok (), base.vacated index generation turns)) :
    (allocScope .global none).ending heap =
      (.ok ⟨⟨index, generation⟩⟩, base.spun index generation turns) := by
  have haddress : (base.vacated index generation turns).addressOf index = ⟨index, generation⟩ := by
    simp [addressOf, vacated, h.lt_size]
  have hvacancy : (base.vacated index generation turns).vacancy? =
      some (index, { base.vacated index generation turns with freeSlots := [] }) := by
    unfold vacancy?
    rw [show (base.vacated index generation turns).freeSlots = [index] from h.freeSlots]
  have hallocate : (allocate idleScope Charge.scope).ending heap =
      (.ok ⟨index, generation⟩, base.spun index generation turns) := by
    rw [ending_allocate, hreserve]
    dsimp only
    rw [ending_place, hvacancy, ← haddress]
    rfl
  exact Action.ending_bind_of_ok hallocate _

/-- A turn: the scope is swept, and the next one takes its slot. -/
theorem ending_allocScope_spun (h : base.Pivots index)
    (hroots : ∀ ref ∈ base.roots, ref.id ≠ ⟨index, generation⟩) (turns : Nat) :
    (allocScope .global none).ending (base.spun index generation turns) =
      (.ok ⟨⟨index, (generation + 1) % UInt32.size⟩⟩,
        base.spun index ((generation + 1) % UInt32.size) (turns + 1)) := by
  have hunarmed : (base.spun index generation turns).failureCountdown = none := h.unarmed
  have hcollects : (base.spun index generation turns).mustCollect Charge.scope := Or.inl h.zeal
  refine h.ending_allocScope ((reserve_eq_ok_iff _ _ _).2 ⟨by simp [hunarmed], ?_, h.room⟩)
  rw [readied, if_pos hcollects, h.collected_spun hroots]

/-- The first of the turns, from a heap that the collection makes a pivot. -/
theorem ending_allocScope_first (h : heap.passed.collected.Pivots index)
    (hslot : heap.passed.collected.slots[index]? = some { generation }) :
    (allocScope .global none).ending heap =
      (.ok ⟨⟨index, generation⟩⟩, heap.passed.collected.spun index generation 0) := by
  have hunarmed : heap.failureCountdown.map (· - 1) = none := h.unarmed
  have hcollects : heap.mustCollect Charge.scope := Or.inl h.zeal
  refine h.ending_allocScope ((reserve_eq_ok_iff _ _ _).2
    ⟨by simp [Option.map_eq_none_iff.1 hunarmed], ?_, h.room⟩)
  rw [readied, if_pos hcollects, vacated_self hslot]

end Pivots

/-- The heap after so many turns. -/
def turnedOver (heap : Heap) (index generation : Nat) : Nat → Heap
  | 0 => heap
  | turns + 1 => heap.passed.collected.spun index ((generation + turns) % UInt32.size) turns

/-- As long as no root names the scope that a turn sweeps, each turn leads to the next. -/
theorem Pivots.ending_allocScope_turnedOver (h : heap.passed.collected.Pivots index)
    (hslot : heap.passed.collected.slots[index]? = some { generation })
    (hgeneration : generation < UInt32.size) {turns : Nat}
    (hroots : ∀ turn, turn + 1 < turns → ∀ ref ∈ heap.roots,
      ref.id ≠ ⟨index, (generation + turn) % UInt32.size⟩) {turn : Nat} (hturn : turn < turns) :
    (allocScope .global none).ending (heap.turnedOver index generation turn) =
      (.ok ⟨⟨index, (generation + turn) % UInt32.size⟩⟩,
        heap.turnedOver index generation (turn + 1)) := by
  cases turn with
  | zero =>
      rw [turnedOver, turnedOver, Nat.add_zero, Nat.mod_eq_of_lt hgeneration]
      exact h.ending_allocScope_first hslot
  | succ turn =>
      have hnext := h.ending_allocScope_spun (hroots turn hturn) turn
      rwa [Nat.mod_add_mod, Nat.add_assoc] at hnext

/-- No generation starts over as long as there are more. -/
theorem Pivots.generationAt_turnedOver_le (h : heap.passed.collected.Pivots index)
    (hslot : heap.passed.collected.slots[index]? = some { generation })
    (hfirst : ∀ other, heap.generationAt other ≤ heap.passed.collected.generationAt other)
    {turn : Nat} (hturn : generation + turn < UInt32.size) (other : Nat) :
    (heap.turnedOver index generation turn).generationAt other ≤
      (heap.turnedOver index generation (turn + 1)).generationAt other := by
  have hlast := Nat.mod_eq_of_lt hturn
  cases turn with
  | zero =>
      have hle := hfirst other
      rw [turnedOver, turnedOver, h.generationAt_spun, hlast]
      split
      · rename_i hother
        subst hother
        exact hle.trans_eq (generationAt_of_getElem? hslot)
      · exact hle
  | succ turn =>
      rw [turnedOver, turnedOver, h.generationAt_spun, h.generationAt_spun, hlast,
        Nat.mod_eq_of_lt (by omega)]
      split <;> omega

end Heap

namespace Request

variable {heap : Heap} {index generation : Nat}

/-- A request that is made over and over. -/
theorem nextAll_replicate {request : Request} (states : Nat → Heap) {count : Nat}
    (h : ∀ turn < count, request.next (states turn) = states (turn + 1)) :
    nextAll (List.replicate count request) (states 0) = states count := by
  induction count with
  | zero => rfl
  | succ count ih =>
      rw [List.replicate_succ', nextAll_append, ih fun turn hturn => h turn (by omega)]
      exact h count (by omega)

theorem next_turnedOver (h : heap.passed.collected.Pivots index)
    (hslot : heap.passed.collected.slots[index]? = some { generation })
    (hgeneration : generation < UInt32.size) {turns : Nat}
    (hroots : ∀ turn, turn + 1 < turns → ∀ ref ∈ heap.roots,
      ref.id ≠ ⟨index, (generation + turn) % UInt32.size⟩) {turn : Nat} (hturn : turn < turns) :
    (perform (.allocScope .global none)).next (heap.turnedOver index generation turn) =
      heap.turnedOver index generation (turn + 1) :=
  (Action.state_ending_bind_pure _ _ _).trans
    (congrArg Prod.snd (h.ending_allocScope_turnedOver hslot hgeneration hroots hturn))

/-- Scopes that nothing refers to are allocated over and over in one slot. -/
theorem nextAll_turnover (h : heap.passed.collected.Pivots index)
    (hslot : heap.passed.collected.slots[index]? = some { generation })
    (hgeneration : generation < UInt32.size) {turns : Nat}
    (hroots : ∀ turn, turn + 1 < turns → ∀ ref ∈ heap.roots,
      ref.id ≠ ⟨index, (generation + turn) % UInt32.size⟩) :
    nextAll (List.replicate turns (perform (.allocScope .global none))) heap =
      heap.turnedOver index generation turns :=
  nextAll_replicate (heap.turnedOver index generation) fun _ hturn =>
    next_turnedOver h hslot hgeneration hroots hturn

end Request

/-- A heap that has come to no end of generations comes to none by turns that leave some. -/
theorem Heap.Admitted.turnedOver {heap : Heap} {index generation : Nat} (hadmitted : heap.Admitted)
    (h : heap.passed.collected.Pivots index)
    (hslot : heap.passed.collected.slots[index]? = some { generation })
    (hfirst : ∀ other, heap.generationAt other ≤ heap.passed.collected.generationAt other)
    {turns : Nat} (hlast : generation + turns ≤ UInt32.size)
    (hroots : ∀ turn, turn + 1 < turns → ∀ ref ∈ heap.roots,
      ref.id ≠ ⟨index, (generation + turn) % UInt32.size⟩) :
    (heap.turnedOver index generation turns).Admitted := by
  have hcount : ∀ count ≤ turns, (heap.turnedOver index generation count).Admitted := by
    intro count hle
    induction count with
    | zero => exact hadmitted
    | succ count ih =>
        have hnext := Request.next_turnedOver h hslot (by omega) hroots
          (show count < turns by omega)
        have hsteady := h.generationAt_turnedOver_le hslot hfirst
          (show generation + count < UInt32.size by omega)
        rw [← hnext] at hsteady ⊢
        exact (ih (by omega)).next rfl hsteady
  exact hcount turns le_rfl

end ScriptLinker
