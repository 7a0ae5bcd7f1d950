import ScriptLinker.Proofs.Move
/-!
# The slot table

`SlotsSound` ties the list of free slots to the slots: it holds the empty ones,
each once, and an empty slot records no bytes. With it a placed cell goes to a
slot that was empty, so `Places.placed` can say what placing does to every slot
and every address. The invariant holds in an empty heap, and every move, every
collection and every placing keeps it.
-/

namespace ScriptLinker.Heap

/-- The free list holds the empty slots, each once, and they record no bytes. -/
structure SlotsSound (heap : Heap) : Prop where
  free_nodup : heap.freeSlots.Nodup
  mem_free_iff : ∀ index, index ∈ heap.freeSlots ↔
    ∃ slot, heap.slots[index]? = some slot ∧ slot.cell = none
  bytes_of_empty : ∀ (index : Nat) (slot : Slot), heap.slots[index]? = some slot →
    slot.cell = none → slot.bytes = 0

theorem slotsSound_ofLimits (limits : HeapLimits) : (ofLimits limits).SlotsSound where
  free_nodup := List.nodup_nil
  mem_free_iff := by simp [ofLimits]
  bytes_of_empty := by simp [ofLimits]

/-- The slot in which a reference finds its script. -/
theorem slot_of_script {heap : Heap} {script : ScriptId} {content : Script}
    (h : heap.script script = .ok content) :
    ∃ slot, heap.slots[script.id.index]? = some slot ∧
      slot.generation = script.id.generation ∧ slot.cell = some (.script content) :=
  (cellAt?_eq_some_iff _ _ _).1 ((script_eq_ok_iff heap script content).1 h)

theorem SlotsSound.slotChange {heap after : Heap} (h : heap.SlotsSound)
    (hfree : after.freeSlots = heap.freeSlots) (hchange : SlotChange heap after) :
    after.SlotsSound := by
  cases hchange with
  | none hslots _ =>
      refine ⟨hfree ▸ h.free_nodup, fun index => ?_, fun index => ?_⟩
      · rw [hfree, hslots]
        exact h.mem_free_iff index
      · rw [hslots]
        exact h.bytes_of_empty index
  | @rewrite script content changed recharge hscript _ hslots _ _ =>
      obtain ⟨held, hheld, _, hcell⟩ := slot_of_script hscript
      have hempty : ∀ (index : Nat) (slot : Slot), after.slots[index]? = some slot →
          slot.cell = none → heap.slots[index]? = some slot := by
        intro index slot hslot hnone
        rw [hslots, Array.getElem?_modify] at hslot
        split at hslot
        · obtain ⟨old, _, rfl⟩ := Option.map_eq_some_iff.1 hslot
          simp at hnone
        · exact hslot
      refine ⟨hfree ▸ h.free_nodup, fun index => ?_, fun index slot hslot hnone => ?_⟩
      · rw [hfree, h.mem_free_iff]
        constructor
        · rintro ⟨slot, hslot, hnone⟩
          have hne : script.id.index ≠ index := by
            rintro rfl
            simp [← Option.some.inj (hheld.symm.trans hslot), hcell] at hnone
          exact ⟨slot, by rw [hslots, Array.getElem?_modify, if_neg hne, hslot], hnone⟩
        · rintro ⟨slot, hslot, hnone⟩
          exact ⟨slot, hempty index slot hslot hnone, hnone⟩
      · exact h.bytes_of_empty index slot (hempty index slot hslot hnone) hnone

theorem SlotsSound.move {given : Set CellRef} {heap after : Heap} (h : heap.SlotsSound)
    (hmove : Move given heap after) : after.SlotsSound :=
  h.slotChange hmove.frame.freeSlots hmove.slotChange

theorem cell?_setScript {heap : Heap} {script : ScriptId} {content : Script}
    (h : heap.script script = .ok content) (changed : Script) (id : CellId) :
    (heap.setScript script changed).cell? id =
      if id = script.id then some (.script changed) else heap.cell? id := by
  obtain ⟨held, hheld, hgeneration, hcell⟩ := slot_of_script h
  split
  · rename_i heq
    subst heq
    refine (cellAt?_eq_some_iff _ _ _).2 ⟨{ held with cell := some (.script changed) }, ?_, ?_, rfl⟩
    · rw [slots_setScript, Array.getElem?_modify, if_pos rfl, hheld, Option.map_some]
    · exact hgeneration
  · rename_i hne
    by_cases hindex : id.index = script.id.index
    · have hother : held.generation ≠ id.generation := by
        intro heq
        apply hne
        cases id
        cases hid : script.id
        simp_all
      simp [cell?, cellAt?, slotAt?, slots_setScript, Array.getElem?_modify, hindex, hheld,
        Option.filter, hother]
    · exact cell?_modifySlot_of_ne hindex heap _

/-- A move leaves every address with its cell, or it revises the script that one
reference names. The references of the script are old or given ones. -/
theorem Move.cell?_cases {given : Set CellRef} {heap after : Heap} (h : Move given heap after) :
    (∀ id, after.cell? id = heap.cell? id) ∨
      ∃ (script : ScriptId) (content changed : Script), heap.script script = .ok content ∧
        content.Revises changed ∧
        (∀ ref ∈ (Cell.script changed).references,
          ref ∈ (Cell.script content).references ∨ ref ∈ given) ∧
        ∀ id, after.cell? id =
          if id = script.id then some (.script changed) else heap.cell? id := by
  cases h with
  | @create script content changed bytes hscript _ hgrows =>
      refine Or.inr ⟨script, content, changed, hscript, .grow hgrows, ?_, fun id => ?_⟩
      · exact fun ref href => Or.inl (hgrows.references_eq ▸ href)
      · rw [cell?_setScript ((script_charged _ _ _ _).trans hscript), cell?_charged]
  | @store script content changed ref href _ hscript hstores =>
      refine Or.inr ⟨script, content, changed, hscript, .store hstores, ?_,
        cell?_setScript hscript changed⟩
      intro other hother
      exact (hstores.references hother).imp_right fun (heq : other = ref) => heq ▸ href
  | @edit script content changed hscript hedits =>
      refine Or.inr ⟨script, content, changed, hscript, .edit hedits, ?_,
        cell?_setScript hscript changed⟩
      exact fun ref href => Or.inl (hedits.references ▸ href)
  | @share script content image hscript himage _ =>
      have himage' : content.image = .owned
          ((heap.charged script.id Charge.hold).shelved script image).1.image := by
        rw [himage, image_shelved]
      refine Or.inr ⟨script, content, _, hscript, .publish himage', fun ref href => Or.inl href,
        fun id => ?_⟩
      have hcharged : (heap.charged script.id Charge.hold).script script = .ok content :=
        (script_charged _ _ _ _).trans hscript
      rw [cell?_setScript ((script_shelved _ _ _ _).trans hcharged), cell?_shelved,
        cell?_charged]
  | _ => exact Or.inl fun _ => rfl

/-- A move frees no cell and places none. -/
theorem Move.isLive_eq {given : Set CellRef} {heap after : Heap} (h : Move given heap after)
    (id : CellId) : after.isLive id = heap.isLive id := by
  rcases h.cell?_cases with hsame | ⟨script, content, changed, hscript, _, _, hcells⟩
  · rw [isLive, hsame, isLive]
  · rw [isLive, hcells, isLive]
    split
    · rename_i heq
      rw [heq, (script_eq_ok_iff heap script content).1 hscript]
      rfl
    · rfl

/-- A slot that holds no script afterwards is as it was. -/
theorem SlotChange.slot_of_not_script {heap after : Heap} (h : SlotChange heap after)
    {index : Nat} {slot : Slot} (hslot : after.slots[index]? = some slot)
    (hcell : ∀ content, slot.cell ≠ some (.script content)) : heap.slots[index]? = some slot := by
  cases h with
  | none hslots _ => exact hslots ▸ hslot
  | rewrite changed recharge hscript _ hslots _ _ =>
      rw [hslots, Array.getElem?_modify] at hslot
      split at hslot
      · obtain ⟨old, _, rfl⟩ := Option.map_eq_some_iff.1 hslot
        exact absurd rfl (hcell changed)
      · exact hslot

theorem SlotsSound.collected {heap : Heap} (h : heap.SlotsSound) :
    heap.collected.SlotsSound := by
  have hempty : ∀ index, (∃ slot, heap.collected.slots[index]? = some slot ∧
      slot.cell = none) ↔ index ∈ heap.garbage heap.mark ∨ index ∈ heap.freeSlots := by
    intro index
    rw [mem_garbage_mark_iff, h.mem_free_iff, getElem?_slots_collected]
    cases hslot : heap.slots[index]? with
    | none => simp
    | some slot =>
        cases hcell : slot.cell with
        | none => simp [hcell]
        | some cell =>
            by_cases hreached : heap.Reaches (heap.addressOf index) <;> simp [hcell, hreached]
  refine ⟨?_, fun index => ?_, fun index slot hslot hnone => ?_⟩
  · rw [freeSlots_collected, List.nodup_append]
    refine ⟨List.nodup_reverse.2 (nodup_garbage heap _), h.free_nodup, ?_⟩
    rintro index hgarbage other hfree rfl
    obtain ⟨slot, hslot, hcell, _⟩ :=
      (mem_garbage_mark_iff heap index).1 (List.mem_reverse.1 hgarbage)
    obtain ⟨slot', hslot', hnone⟩ := (h.mem_free_iff index).1 hfree
    obtain rfl := Option.some.inj (hslot.symm.trans hslot')
    simp [hnone] at hcell
  · rw [freeSlots_collected, List.mem_append, List.mem_reverse, hempty]
  · rw [getElem?_slots_collected] at hslot
    obtain ⟨old, hold, rfl⟩ := Option.map_eq_some_iff.1 hslot
    split at hnone
    · rename_i hswept
      rw [if_pos hswept]
      rfl
    · rename_i hkept
      rw [if_neg hkept]
      exact h.bytes_of_empty index old hold hnone

/-- What placing a cell does to a heap whose slot table is sound. -/
structure Placed (heap : Heap) (cell : Cell) (bytes : Nat) (id : CellId) (after : Heap) :
    Prop where
  slot : after.slots[id.index]? = some ⟨some cell, id.generation, bytes⟩
  vacant : ∀ slot : Slot, heap.slots[id.index]? = some slot →
    slot.cell = none ∧ slot.generation = id.generation ∧ slot.bytes = 0
  fresh : heap.slots[id.index]? = none → id.index = heap.slots.size ∧ id.generation = 0
  others : ∀ index, index ≠ id.index → after.slots[index]? = heap.slots[index]?
  size_le : heap.slots.size ≤ after.slots.size
  free_nodup : after.freeSlots.Nodup
  mem_free_iff : ∀ index, index ∈ after.freeSlots ↔ index ∈ heap.freeSlots ∧ index ≠ id.index
  room : heap.HasRoom bytes
  usedBytes : after.usedBytes = satAdd heap.usedBytes bytes
  rootStack : after.rootStack = heap.rootStack
  persistentRoots : after.persistentRoots = heap.persistentRoots
  freeRoots : after.freeRoots = heap.freeRoots
  limits : after.limits = heap.limits
  nextThreshold : after.nextThreshold = heap.nextThreshold
  atoms : after.atoms = heap.atoms
  failureCountdown : after.failureCountdown = heap.failureCountdown
  storeBuffer : after.storeBuffer = heap.storeBuffer

theorem Places.placed {heap after : Heap} {cell : Cell} {bytes : Nat} {id : CellId}
    (h : heap.SlotsSound) (hplaces : heap.Places cell bytes id after) :
    heap.Placed cell bytes id after := by
  obtain ⟨index, ready, hvacancy, hroom, rfl, rfl⟩ := hplaces
  unfold vacancy? at hvacancy
  split at hvacancy
  · rename_i first rest hfree
    obtain ⟨rfl, rfl⟩ := Prod.mk.inj (Option.some.inj hvacancy)
    obtain ⟨slot, hslot, hcell⟩ := (h.mem_free_iff first).1 (by simp [hfree])
    obtain ⟨hfirst, hrest⟩ := List.nodup_cons.1 (hfree ▸ h.free_nodup)
    refine ⟨?_, ?_, ?_, ?_, ?_, hrest, ?_, hroom, rfl, rfl, rfl, rfl, rfl, rfl, rfl,
      rfl, rfl⟩
    · simp [fill, modifySlot, addressOf, Array.getElem?_modify, hslot]
    · intro other hother
      obtain rfl := Option.some.inj (hslot.symm.trans hother)
      refine ⟨hcell, ?_, h.bytes_of_empty first slot hslot hcell⟩
      simp [addressOf, hslot]
    · intro hnone
      simp [addressOf, hslot] at hnone
    · intro other hne
      have hne' : first ≠ other := fun heq => hne heq.symm
      simp [fill, modifySlot, Array.getElem?_modify, hne']
    · simp [fill]
    · intro other
      simp only [hfree, List.mem_cons, fill, modifySlot, addressOf]
      constructor
      · exact fun hmem => ⟨Or.inr hmem, fun heq => hfirst (heq ▸ hmem)⟩
      · exact fun hmem => hmem.1.resolve_left hmem.2
  · rename_i hfree
    split at hvacancy
    · obtain ⟨rfl, rfl⟩ := Prod.mk.inj (Option.some.inj hvacancy)
      refine ⟨?_, ?_, ?_, ?_, ?_, ?_, ?_, hroom, rfl, rfl, rfl, rfl, rfl, rfl, rfl,
      rfl, rfl⟩
      · simp [fill, modifySlot, addressOf, Array.getElem_modify]
      · intro slot hslot
        simp [addressOf] at hslot
      · intro _
        simp [addressOf]
      · intro other hne
        have hne' : other ≠ heap.slots.size := hne
        simp [fill, modifySlot, Array.getElem?_modify, Array.getElem?_push, hne', hne'.symm]
      · simp [fill, modifySlot]
      · simp [fill, modifySlot, hfree]
      · simp [fill, modifySlot, hfree]
    · simp at hvacancy

/-- A new cell takes no slot of another one. -/
theorem Placed.index_ne {heap after : Heap} {cell found : Cell} {bytes : Nat} {id other : CellId}
    (h : heap.Placed cell bytes id after) (hfound : heap.cell? other = some found) :
    other.index ≠ id.index := by
  intro hindex
  obtain ⟨slot, hslot, _, hcell⟩ := (cellAt?_eq_some_iff _ _ _).1 hfound
  rw [hindex] at hslot
  simp [(h.vacant slot hslot).1] at hcell

/-- A new cell is found under its address, and no other address is affected. -/
theorem Placed.cell? {heap after : Heap} {cell : Cell} {bytes : Nat} {id : CellId}
    (h : heap.Placed cell bytes id after) (other : CellId) :
    after.cell? other = if other = id then some cell else heap.cell? other := by
  by_cases hindex : other.index = id.index
  · split
    · rename_i heq
      subst heq
      exact (cellAt?_eq_some_iff _ _ _).2 ⟨_, h.slot, rfl, rfl⟩
    · rename_i hne
      have hgeneration : id.generation ≠ other.generation := by
        intro heq
        apply hne
        cases other
        cases id
        simp_all
      have hafter : after.cell? other = none := by
        simp [Heap.cell?, cellAt?, slotAt?, hindex, h.slot, Option.filter, hgeneration]
      have hheap : heap.cell? other = none := by
        rw [Option.eq_none_iff_forall_ne_some]
        exact fun found hfound => h.index_ne hfound hindex
      rw [hafter, hheap]
  · have hne : other ≠ id := fun heq => hindex (heq ▸ rfl)
    rw [if_neg hne]
    simp [Heap.cell?, cellAt?, slotAt?, h.others _ hindex]

/-- The address of a new cell was not live before. -/
theorem Placed.not_live {heap after : Heap} {cell : Cell} {bytes : Nat} {id : CellId}
    (h : heap.Placed cell bytes id after) : heap.cell? id = none := by
  rw [Option.eq_none_iff_forall_ne_some]
  exact fun found hfound => h.index_ne hfound rfl

/-- The slot of a live cell is left as it was. -/
theorem Placed.slot_of_isLive {heap after : Heap} {cell : Cell} {bytes : Nat} {id other : CellId}
    (h : heap.Placed cell bytes id after) (hlive : heap.isLive other = true) :
    after.slots[other.index]? = heap.slots[other.index]? := by
  obtain ⟨found, hfound⟩ := (isLive_iff heap other).1 hlive
  exact h.others _ (h.index_ne hfound)

theorem SlotsSound.placed {heap after : Heap} {cell : Cell} {bytes : Nat} {id : CellId}
    (h : heap.SlotsSound) (hplaced : heap.Placed cell bytes id after) : after.SlotsSound := by
  have hempty : ∀ index slot, slot.cell = none →
      (after.slots[index]? = some slot ↔ heap.slots[index]? = some slot ∧ index ≠ id.index) := by
    intro index slot hnone
    by_cases hindex : index = id.index
    · subst hindex
      rw [hplaced.slot]
      constructor
      · intro heq
        simp [← Option.some.inj heq] at hnone
      · exact fun hslot => absurd rfl hslot.2
    · simp [hplaced.others index hindex, hindex]
  refine ⟨hplaced.free_nodup, fun index => ?_, fun index slot hslot hnone => ?_⟩
  · rw [hplaced.mem_free_iff, h.mem_free_iff]
    constructor
    · rintro ⟨⟨slot, hslot, hnone⟩, hne⟩
      exact ⟨slot, (hempty index slot hnone).2 ⟨hslot, hne⟩, hnone⟩
    · rintro ⟨slot, hslot, hnone⟩
      obtain ⟨hold, hne⟩ := (hempty index slot hnone).1 hslot
      exact ⟨⟨slot, hold, hnone⟩, hne⟩
  · exact h.bytes_of_empty index slot ((hempty index slot hnone).1 hslot).1 hnone

end ScriptLinker.Heap
