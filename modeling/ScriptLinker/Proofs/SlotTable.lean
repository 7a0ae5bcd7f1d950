import ScriptLinker.Proofs.Charges
import ScriptLinker.Proofs.Rooting
import ScriptLinker.Proofs.Tally
/-!
# The slot table

A cell that was placed is alive or was swept, and `placedCells` counts both. The requests
that place one are those that get it past the check for room, as `granted?` says, so that
in a run their number is that of the cells. What is placed takes an empty slot, and the
table grows only when there is none. The marks of the collector stand in a table beside
the slots, which stays as long as the slot table.
-/

namespace ScriptLinker

namespace Heap

variable {given : Set CellRef} {heap after : Heap}

/-- The cells that were placed on a heap: those alive and those swept. -/
def placedCells (heap : Heap) : Nat :=
  heap.liveCells + heap.stats.cellsSwept

/-- Cells that are placed and not swept take slots that were free. -/
theorem SlotsSound.placedCells_add (h : heap.SlotsSound) (h' : after.SlotsSound) :
    after.placedCells + after.freeSlots.length + (heap.slots.size + heap.stats.cellsSwept) =
      heap.placedCells + heap.freeSlots.length + (after.slots.size + after.stats.cellsSwept) := by
  have hbefore := h.liveCells_add_free
  have hafter := h'.liveCells_add_free
  unfold placedCells
  omega

theorem Move.cellsSwept_eq (h : Move given heap after) :
    after.stats.cellsSwept = heap.stats.cellsSwept := by
  cases h with
  | @share script content image _ _ _ =>
      exact congrArg HeapStats.cellsSwept
        (stats_shelved script image (heap.charged script.id Charge.hold))
  | _ => rfl

theorem Moves.cellsSwept_eq (h : Moves given heap after) :
    after.stats.cellsSwept = heap.stats.cellsSwept :=
  h.keep (p := fun next => next.stats.cellsSwept = heap.stats.cellsSwept)
    (fun hsame hmove => hmove.cellsSwept_eq.trans hsame) rfl

theorem SlotsSound.placedCells_move (h : heap.SlotsSound) (hmove : Move given heap after) :
    after.placedCells = heap.placedCells := by
  have hcount := h.placedCells_add (h.move hmove)
  rw [hmove.frame.freeSlots, hmove.slotChange.size_eq, hmove.cellsSwept_eq] at hcount
  omega

/-- What a collection sweeps is counted as swept and is alive no more. -/
theorem SlotsSound.placedCells_collected (h : heap.SlotsSound) :
    heap.collected.placedCells = heap.placedCells := by
  have hcount := h.placedCells_add h.collected
  rw [freeSlots_collected, List.length_append, List.length_reverse, size_slots_collected,
    cellsSwept_collected] at hcount
  omega

theorem Places.tally {cell : Cell} {bytes : Nat} {id : CellId}
    (h : heap.Places cell bytes id after) : heap.Tally 0 1 after := by
  obtain ⟨index, ready, hvacancy, _, _, rfl⟩ := h
  have hfill : ready.Tally 0 0 (ready.fill index cell bytes) :=
    .of_eq rfl rfl (size_slots_modifySlot _ _ _) rfl
  exact (tally_of_vacancy? hvacancy).trans hfill

theorem Birth.tally {issue : Issue} (h : Birth heap issue after) : heap.Tally 0 1 after := by
  cases h with
  | plain _ hplaces => exact hplaces.tally
  | @atom text id placed _ hplaces =>
      have hentered : placed.Tally 0 0 (placed.enterAtom text ⟨id⟩) := .of_eq rfl rfl rfl rfl
      exact hplaces.tally.trans hentered

theorem Sound.placedCells_birth {issue : Issue} (h : heap.Sound) (hbirth : Birth heap issue after) :
    after.placedCells = heap.placedCells + 1 := by
  have hcount := h.slots.placedCells_add (h.birth hbirth).slots
  have hslots := hbirth.tally.slots
  omega

/-- A passage places no cell, and takes no slot away. -/
theorem SlotsSound.passage (h : heap.SlotsSound) (hpassage : Passage given heap after) :
    after.SlotsSound ∧ after.placedCells = heap.placedCells ∧
      after.slots.size = heap.slots.size :=
  hpassage.keep (p := fun next => next.SlotsSound ∧ next.placedCells = heap.placedCells ∧
      next.slots.size = heap.slots.size)
    (fun ⟨hslots, hcells, hsize⟩ hmove => ⟨hslots.move hmove,
      (hslots.placedCells_move hmove).trans hcells, hmove.slotChange.size_eq.trans hsize⟩)
    (fun ⟨hslots, hcells, hsize⟩ => ⟨hslots.collected, hslots.placedCells_collected.trans hcells,
      (size_slots_collected _).trans hsize⟩)
    ⟨h, rfl, rfl⟩

theorem Places.size_eq {cell : Cell} {bytes : Nat} {id : CellId}
    (h : heap.Places cell bytes id after) :
    after.slots.size = heap.slots.size ∨
      after.slots.size = heap.slots.size + 1 ∧ heap.freeSlots = [] := by
  obtain ⟨index, ready, hvacancy, _, _, rfl⟩ := h
  unfold fill
  rw [size_slots_modifySlot]
  unfold vacancy? at hvacancy
  split at hvacancy
  · obtain ⟨_, rfl⟩ := Prod.mk.inj (Option.some.inj hvacancy)
    exact Or.inl rfl
  · rename_i hfree
    split at hvacancy
    · obtain ⟨_, rfl⟩ := Prod.mk.inj (Option.some.inj hvacancy)
      exact Or.inr ⟨Array.size_push _, hfree⟩
    · simp at hvacancy

/-- Making room adds no slot. -/
@[simp] theorem size_slots_reserve (bytes : Nat) (heap : Heap) :
    ((reserve bytes).ending heap).2.slots.size = heap.slots.size := by
  cases hreserve : (reserve bytes).ending heap with
  | mk result ready =>
      rcases eq_of_reserve hreserve with rfl | rfl
      · rfl
      · unfold readied
        split
        · exact size_slots_collected heap.passed
        · rfl

/-- Where no slot is listed as free, none is empty. -/
theorem SlotsSound.occupied (h : heap.SlotsSound) (hfree : heap.freeSlots = []) {slot : Slot}
    (hslot : slot ∈ heap.slots) : slot.cell ≠ none := by
  intro hempty
  obtain ⟨index, hindex⟩ := Array.mem_iff_getElem?.1 hslot
  have hmem := (h.mem_free_iff index).2 ⟨slot, hindex, hempty⟩
  simp [hfree] at hmem

end Heap

namespace Request

variable {heap : Heap} {request : Request} {cell : Cell}

/-- The cell that a request gets past the check for room, if it asks for one that has to
be placed. -/
def granted? (request : Request) (heap : Heap) : Option Cell :=
  request.asked?.filter fun cell =>
    heap.lacks cell && ((Heap.reserve cell.charge).ending heap).1.isOk

theorem granted?_eq_some_iff :
    request.granted? heap = some cell ↔ request.asked? = some cell ∧ heap.lacks cell = true ∧
      ∃ ready, (Heap.reserve cell.charge).ending heap = (.ok (), ready) := by
  unfold granted?
  rw [Option.filter_eq_some_iff, Bool.and_eq_true]
  refine and_congr_right fun _ => and_congr_right fun _ => ?_
  cases (Heap.reserve cell.charge).ending heap with
  | mk result ready => cases result <;> simp [Except.isOk, Except.toBool]

/-- What is granted is placed, as long as the table is not full. -/
theorem born?_of_granted? (hsize : heap.slots.size < Heap.maxSlots)
    (h : request.granted? heap = some cell) : ∃ id, request.born? heap = some ⟨id, cell⟩ := by
  obtain ⟨hasked, hlacks, ready, hreserve⟩ := granted?_eq_some_iff.1 h
  have hready : ready.slots.size = heap.slots.size := by
    rw [← Heap.size_slots_reserve cell.charge heap, hreserve]
  have hvacancy : ready.vacancy?.isSome = true := by
    unfold Heap.vacancy?
    split
    · rfl
    · rw [if_pos (hready ▸ hsize)]
      rfl
  obtain ⟨⟨index, vacated⟩, hfound⟩ := Option.isSome_iff_exists.1 hvacancy
  have hallocate : ((Heap.allocate cell cell.charge).ending heap).1 =
      .ok (vacated.addressOf index) := by
    rw [Heap.ending_allocate, hreserve]
    dsimp only
    rw [Heap.ending_place, hfound]
  exact ⟨_, born?_of_allocate hasked hlacks hallocate⟩

/-- What is placed was granted, and the check for room left an empty slot for it or none
at all. -/
theorem granted?_of_born? {issue : Issue} (h : request.born? heap = some issue) :
    request.granted? heap = some issue.cell ∧ ∃ placed,
      ((Heap.reserve issue.cell.charge).ending heap).2.Places issue.cell issue.cell.charge
        issue.id placed ∧ (request.next heap).slots = placed.slots := by
  obtain ⟨placed, hallocate, hslots⟩ := slots_of_born h
  obtain ⟨ready, hreserve, hplaces⟩ := Heap.places_of_allocate hallocate
  have hlacks : heap.lacks issue.cell = true := by
    obtain ⟨cell, hasked, hplaced⟩ := Option.bind_eq_some_iff.1 h
    unfold Heap.placed? at hplaced
    split at hplaced
    · rename_i hlacks
      obtain rfl := Option.some.inj (hasked.symm.trans (asked?_of_born? h))
      exact hlacks
    · simp at hplaced
  refine ⟨granted?_eq_some_iff.2 ⟨asked?_of_born? h, hlacks, ready, hreserve⟩, placed, ?_, hslots⟩
  rw [hreserve]
  exact hplaces

theorem isSome_born?_eq (hsize : heap.slots.size < Heap.maxSlots) :
    (request.born? heap).isSome = (request.granted? heap).isSome := by
  rw [Bool.eq_iff_iff, Option.isSome_iff_exists, Option.isSome_iff_exists]
  constructor
  · exact fun ⟨issue, hborn⟩ => ⟨issue.cell, (granted?_of_born? hborn).1⟩
  · rintro ⟨cell, hgranted⟩
    obtain ⟨id, hborn⟩ := born?_of_granted? hsize hgranted
    exact ⟨_, hborn⟩

/-- A request adds a cell to those placed, or none, as it was granted one. -/
theorem placedCells_next (h : heap.Sound) (hsize : heap.slots.size < Heap.maxSlots) :
    (request.next heap).placedCells =
      heap.placedCells + if (request.granted? heap).isSome then 1 else 0 := by
  rw [← isSome_born?_eq hsize]
  have heffect := request.effect h
  generalize request.next heap = after at heffect ⊢
  generalize request.born? heap = born at heffect ⊢
  cases heffect with
  | passage hpassage => exact (h.slots.passage hpassage).2.1
  | birth hpassage hbirth _ =>
      have hbetween := (h.slots.passage hpassage).2.1
      rw [(h.passage hpassage).placedCells_birth hbirth, hbetween]
      rfl
  | addRoot _ =>
      obtain ⟨_, _, hroots⟩ := Heap.rerooted_addRoot _ heap
      rw [hroots]
      rfl
  | removeRoot _ =>
      obtain ⟨_, _, hroots⟩ := Heap.rerooted_removeRoot _ heap
      rw [hroots]
      rfl

/-- A request adds no slot, or one for the cell that it was granted where none was free. -/
theorem size_next_cases (h : heap.Sound) (request : Request) :
    (request.next heap).slots.size = heap.slots.size ∨
      (request.next heap).slots.size = heap.slots.size + 1 ∧
        ∃ cell, request.granted? heap = some cell ∧
          ((Heap.reserve cell.charge).ending heap).2.freeSlots = [] := by
  cases hborn : request.born? heap with
  | some issue =>
      obtain ⟨hgranted, placed, hplaces, hslots⟩ := granted?_of_born? hborn
      rw [hslots, ← Heap.size_slots_reserve issue.cell.charge heap]
      exact hplaces.size_eq.imp_right fun ⟨hsize, hfree⟩ => ⟨hsize, issue.cell, hgranted, hfree⟩
  | none =>
      left
      rcases request.next_cases h with hpassage | ⟨_, _, hsome, _⟩ | ⟨_, _, hroots⟩
      · exact (h.slots.passage hpassage).2.2
      · rw [hborn] at hsome
        cases hsome
      · rw [hroots]

theorem size_le_next (h : heap.Sound) (request : Request) :
    heap.slots.size ≤ (request.next heap).slots.size := by
  rcases size_next_cases h request with hsame | ⟨hmore, _⟩ <;> omega

/-- The number of cells that requests are granted, first to last. -/
def grants : List Request → Heap → Nat
  | [], _ => 0
  | request :: rest, heap =>
    (if (request.granted? heap).isSome then 1 else 0) + grants rest (request.next heap)

theorem size_le_nextAll (h : heap.Sound) (requests : List Request) :
    heap.slots.size ≤ (nextAll requests heap).slots.size := by
  induction requests generalizing heap with
  | nil => exact le_rfl
  | cons request rest ih => exact (size_le_next h request).trans (ih (sound_next h request))

/-- As long as the table is not full, as many cells are placed as are granted. -/
theorem placedCells_nextAll (h : heap.Sound) (requests : List Request)
    (hsize : (nextAll requests heap).slots.size < Heap.maxSlots) :
    (nextAll requests heap).placedCells = heap.placedCells + grants requests heap := by
  induction requests generalizing heap with
  | nil => rfl
  | cons request rest ih =>
      have hheap := (size_le_nextAll h (request :: rest)).trans_lt hsize
      have hrest : (nextAll (request :: rest) heap).placedCells =
          (request.next heap).placedCells + grants rest (request.next heap) :=
        ih (sound_next h request) hsize
      rw [hrest, placedCells_next h hheap, grants, Nat.add_assoc]

end Request

/-! ### The marks of the collector -/

namespace Heap

variable {given : Set CellRef} {heap after : Heap}

/-- The marking that starts from the marks of the heap, which are all taken back in place. -/
def remark (heap : Heap) : Marking :=
  Marking.drain heap.slots heap.slots.size
    (Marking.visitAll heap.slots { marks := heap.marks.map fun _ => false } heap.roots)

/-- With a mark for every slot it is the marking that starts from none. -/
theorem remark_eq_mark (h : heap.marks.size = heap.slots.size) : heap.remark = heap.mark := by
  have hstart : ({ marks := heap.marks.map fun _ => false } : Marking) = .start heap.slots := by
    rw [Marking.start, ← h, Array.map_const']
  rw [remark, hstart, mark]

theorem Passage.size_marks (h : Passage given heap after)
    (hsize : heap.marks.size = heap.slots.size) : after.marks.size = after.slots.size :=
  h.keep (p := fun next => next.marks.size = next.slots.size)
    (fun hbefore hmove => by rw [hmove.frame.marks, hmove.slotChange.size_eq, hbefore])
    (fun _ => by rw [marks_collected, size_marks_mark, size_slots_collected]) hsize

/-- A slot that is added comes with a mark. -/
theorem Places.size_marks {cell : Cell} {bytes : Nat} {id : CellId}
    (h : heap.Places cell bytes id after) (hsize : heap.marks.size = heap.slots.size) :
    after.marks.size = after.slots.size := by
  obtain ⟨index, ready, hvacancy, _, _, rfl⟩ := h
  have hready : ready.marks.size = ready.slots.size := by
    unfold vacancy? at hvacancy
    split at hvacancy
    · obtain ⟨_, rfl⟩ := Prod.mk.inj (Option.some.inj hvacancy)
      exact hsize
    · split at hvacancy
      · obtain ⟨_, rfl⟩ := Prod.mk.inj (Option.some.inj hvacancy)
        rw [slots_grown, Array.size_push, ← hsize]
        exact Array.size_push _
      · simp at hvacancy
  exact hready.trans (size_slots_modifySlot _ _ _).symm

theorem Birth.size_marks {issue : Issue} (h : Birth heap issue after)
    (hsize : heap.marks.size = heap.slots.size) : after.marks.size = after.slots.size := by
  cases h with
  | plain _ hplaces => exact hplaces.size_marks hsize
  | atom _ hplaces => exact hplaces.size_marks hsize

theorem mark_congr (hslots : after.slots = heap.slots) (hroots : after.roots = heap.roots) :
    after.mark = heap.mark := by
  rw [mark, mark, hslots, hroots]

/-- A passage collects once at most, and what it sweeps is what a marking of the heap it
started from leaves. -/
theorem Passage.swept_cases (h : Passage given heap after) :
    after.stats.gcRuns = heap.stats.gcRuns ∧ after.stats.cellsSwept = heap.stats.cellsSwept ∨
      after.stats.gcRuns = heap.stats.gcRuns + 1 ∧
        after.stats.cellsSwept = heap.stats.cellsSwept + (heap.garbage heap.mark).length := by
  obtain ⟨before, between, ⟨hbefore, hslots, _, hstack⟩, hcollect, hafter⟩ := h
  rcases hcollect with rfl | rfl
  · exact Or.inl ⟨hafter.gcRuns_eq.trans hbefore.gcRuns_eq,
      hafter.cellsSwept_eq.trans hbefore.cellsSwept_eq⟩
  · have hroots : before.roots = heap.roots := by
      rw [roots, roots, hstack, hbefore.persistentRoots_eq]
    have hgarbage : before.garbage before.mark = heap.garbage heap.mark := by
      rw [mark_congr hslots hroots, garbage, garbage, hslots]
    rw [hafter.gcRuns_eq, hafter.cellsSwept_eq, gcRuns_collected, cellsSwept_collected,
      hbefore.gcRuns_eq, hbefore.cellsSwept_eq, hgarbage]
    exact Or.inr ⟨rfl, rfl⟩

end Heap

namespace Request

variable {heap : Heap}

theorem swept_cases (h : heap.Sound) (request : Request) :
    (request.next heap).stats.gcRuns = heap.stats.gcRuns ∧
        (request.next heap).stats.cellsSwept = heap.stats.cellsSwept ∨
      (request.next heap).stats.gcRuns = heap.stats.gcRuns + 1 ∧
        (request.next heap).stats.cellsSwept =
          heap.stats.cellsSwept + (heap.garbage heap.mark).length := by
  rcases request.next_cases h with hpassage | ⟨_, _, _, hpassage, hbirth⟩ | ⟨_, _, hroots⟩
  · exact hpassage.swept_cases
  · rw [hbirth.stats_eq]
    exact hpassage.swept_cases
  · rw [hroots]
    exact Or.inl ⟨rfl, rfl⟩

/-- Whatever a request does, there is a mark for every slot after it. -/
theorem size_marks_next (h : heap.Sound) (hsize : heap.marks.size = heap.slots.size)
    (request : Request) : (request.next heap).marks.size = (request.next heap).slots.size := by
  rcases request.next_cases h with hpassage | ⟨_, _, _, hpassage, hbirth⟩ | ⟨_, _, hroots⟩
  · exact hpassage.size_marks hsize
  · exact hbirth.size_marks (hpassage.size_marks hsize)
  · rw [hroots]
    exact hsize

/-- A scope whose enclosing one is refused was granted all the same. -/
theorem granted?_of_outer_refused {heap : Heap} {kind : ScopeKind} {outer : ScopeId}
    {error : HeapError} (herror : error ≠ .outOfMemory)
    (h : ((Heap.allocScope kind (some outer)).ending heap).1 = .error error) :
    (perform (.allocScope kind (some outer))).granted? heap =
      some (.scope { kind, enclosing := some outer }) := by
  rw [Heap.allocScope] at h
  rcases Action.error_of_ending_bind h with hallocate | ⟨id, hallocate, _⟩
  · cases hending : (Heap.allocate (.scope { kind, enclosing := some outer })
        Charge.scope).ending heap with
    | mk result after =>
        rw [hending] at hallocate
        subst hallocate
        exact absurd (Heap.error_of_allocate hending).1 herror
  · exact (granted?_of_born? (born?_of_allocate rfl rfl hallocate)).1

end Request

namespace Heap

theorem Initial.placedCells_eq {heap : Heap} (h : heap.Initial) : heap.placedCells = 0 := by
  cases h with
  | ofLimits limits => rfl
  | ofSettings hsettings =>
      rw [eq_of_ofSettings? hsettings]
      rfl

theorem Initial.marks_eq {heap : Heap} (h : heap.Initial) : heap.marks = #[] := by
  cases h with
  | ofLimits limits => rfl
  | ofSettings hsettings =>
      rw [eq_of_ofSettings? hsettings]
      rfl

/-- The collector has a mark for every slot. -/
theorem Reachable.size_marks {heap : Heap} (h : heap.Reachable) :
    heap.marks.size = heap.slots.size := by
  induction h with
  | initial hinitial => simp [hinitial.marks_eq, hinitial.slots_eq]
  | request request hreachable ih => exact Request.size_marks_next hreachable.sound ih request

/-- The slots, the free list, the marks and the counters of a heap that requests of any
kind lead to, and what a request that comes next does to the slots.

The free list lists the empty slots, each of them once. There is a mark for every slot, and
the marking that takes the heap's marks back is the one that starts from none. The cells that
were granted are alive or were swept; a scope is granted also if its enclosing one is refused
then. A collection sweeps what the marking leaves. The table never shrinks, and grows by a
slot if a cell is granted and none is empty. A cell that is granted takes an empty slot, if
not a new one, and no other slot. -/
theorem slotTable_exact {start : Heap} (hstart : start.Initial) (requests : List Request) :
    let heap := Request.nextAll requests start
    heap.freeSlots.Nodup ∧
    (∀ index, index ∈ heap.freeSlots ↔
      ∃ slot, heap.slots[index]? = some slot ∧ slot.cell = none) ∧
    heap.marks.size = heap.slots.size ∧ heap.remark = heap.mark ∧
    (heap.slots.size < maxSlots →
      heap.liveCells + heap.stats.cellsSwept = Request.grants requests start) ∧
    (∀ kind outer error, ((allocScope kind (some outer)).ending heap).1 = .error error →
      error ≠ .outOfMemory → (Request.perform (.allocScope kind (some outer))).granted? heap =
        some (.scope { kind, enclosing := some outer })) ∧
    ∀ request : Request,
      let after := request.next heap
      (after.stats.gcRuns = heap.stats.gcRuns ∧
          after.stats.cellsSwept = heap.stats.cellsSwept ∨
        after.stats.gcRuns = heap.stats.gcRuns + 1 ∧ after.stats.cellsSwept =
          heap.stats.cellsSwept + (heap.garbage heap.remark).length) ∧
      heap.slots.size ≤ after.slots.size ∧
      (heap.slots.size < after.slots.size → after.slots.size = heap.slots.size + 1 ∧
        ∃ cell, request.granted? heap = some cell ∧
          ∀ slot ∈ ((reserve cell.charge).ending heap).2.slots, slot.cell ≠ none) ∧
      ∀ cell, request.granted? heap = some cell → heap.slots.size < maxSlots →
        let ready := ((reserve cell.charge).ending heap).2
        ∃ id : CellId, (∀ slot, ready.slots[id.index]? = some slot → slot.cell = none) ∧
          after.slots[id.index]? = some ⟨some cell, id.generation, cell.charge⟩ ∧
          ∀ index, index ≠ id.index → after.slots[index]? = ready.slots[index]? := by
  intro heap
  have hreachable : heap.Reachable := (Reachable.initial hstart).nextAll requests
  have hsound := hreachable.sound
  have hremark := remark_eq_mark hreachable.size_marks
  have hready : ∀ bytes, ((reserve bytes).ending heap).2.SlotsSound := fun _ =>
    (hsound.reserve rfl).slots
  refine ⟨hsound.slots.free_nodup, hsound.slots.mem_free_iff, hreachable.size_marks, hremark,
    fun hsize => ?_, fun _ _ _ hrefused herror => Request.granted?_of_outer_refused herror hrefused,
    fun request => ⟨?_, Request.size_le_next hsound request, fun hgrows => ?_,
      fun cell hgranted hsize => ?_⟩⟩
  · have hcount := Request.placedCells_nextAll hstart.sound requests hsize
    rwa [hstart.placedCells_eq, Nat.zero_add] at hcount
  · rw [hremark]
    exact Request.swept_cases hsound request
  · rcases Request.size_next_cases hsound request with hsame | ⟨hmore, cell, hgranted, hfree⟩
    · omega
    · exact ⟨hmore, cell, hgranted, fun slot hslot => (hready _).occupied hfree hslot⟩
  · obtain ⟨id, hborn⟩ := Request.born?_of_granted? hsize hgranted
    obtain ⟨_, placed, hplaces, hslots⟩ := Request.granted?_of_born? hborn
    have hplaced := hplaces.placed (hready _)
    rw [hslots]
    exact ⟨id, fun slot hslot => (hplaced.vacant slot hslot).1, hplaced.slot, hplaced.others⟩

/-- Requests that leave one slot, which is empty. -/
def slotVacated : List Request :=
  [.perform (.allocScope .global none), .perform .collect]

/-- A request for a scope within the one that was swept there. -/
def withinVacated : Request :=
  .perform (.allocScope .lexical (some ⟨⟨0, 0⟩⟩))

/-- A scope takes the slot of one that was swept, and is refused that one as its enclosing
scope; both count as granted, and the script after them needs a new slot. -/
theorem slotTable_exact_refusedScope :
    let vacated := Request.nextAll slotVacated (ofLimits ⟨1000, 1000⟩)
    let refused := Request.nextAll (slotVacated ++ [withinVacated]) (ofLimits ⟨1000, 1000⟩)
    ((allocScope .lexical (some ⟨⟨0, 0⟩⟩)).ending vacated).1 = .error (.staleReference ⟨0, 0⟩) ∧
    (∃ id : CellId, (withinVacated.next vacated).slots[id.index]? = some ⟨some (.scope
      { kind := .lexical, enclosing := some ⟨⟨0, 0⟩⟩ }), id.generation, Charge.scope⟩) ∧
    refused.liveCells + refused.stats.cellsSwept = 2 ∧
    ((Request.perform (.allocScript {})).next refused).slots.size = refused.slots.size + 1 := by
  intro vacated refused
  have hempty : (ofLimits ⟨1000, 1000⟩).Initial := .ofLimits _
  have hstale : ((allocScope .lexical (some ⟨⟨0, 0⟩⟩)).ending vacated).1 =
      .error (.staleReference ⟨0, 0⟩) := by decide +kernel
  have hvacated : vacated.slots.size < maxSlots := by decide +kernel
  have hrefused : refused.slots.size < maxSlots := by decide +kernel
  have hgrants : Request.grants (slotVacated ++ [withinVacated]) (ofLimits ⟨1000, 1000⟩) = 2 := by
    decide +kernel
  have hmore : refused.slots.size <
      ((Request.perform (.allocScript {})).next refused).slots.size := by decide +kernel
  obtain ⟨_, _, _, _, _, hgranted, hnext⟩ := slotTable_exact hempty slotVacated
  obtain ⟨_, _, _, htaken⟩ := hnext withinVacated
  obtain ⟨id, _, hslot, _⟩ := htaken _ (hgranted _ _ _ hstale (by simp)) hvacated
  obtain ⟨_, _, _, _, hcount, _, hlast⟩ :=
    slotTable_exact hempty (slotVacated ++ [withinVacated])
  obtain ⟨_, _, hgrows, _⟩ := hlast (.perform (.allocScript {}))
  exact ⟨hstale, ⟨id, hslot⟩, (hcount hrefused).trans hgrants, (hgrows hmore).1⟩

end Heap

end ScriptLinker
