import ScriptLinker.Proofs.Ending
import ScriptLinker.Proofs.Revision
/-!
# Moves of a heap

Operations change a heap in few ways. A `Move` is one change that neither
collects nor places a cell, and a `Passage` is any number of moves, before which
there may be a collection; both name the references they are given to store.
A `Birth` places a cell. What the moves have in common is said once:
`Move.frame` lists the parts of a heap that no move touches, and
`Move.slotChange` says that a move leaves the slots alone or rewrites the script
in one of them.
-/

namespace ScriptLinker

namespace Heap

variable {given : Set CellRef}

/-- One change of a heap that neither collects nor places a cell. The references
it stores are among the given ones. -/
inductive Move (given : Set CellRef) (heap : Heap) : Heap → Prop where
  | attempt : Move given heap heap.countAttempt
  | arm (countdown : Option Nat) : Move given heap { heap with failureCountdown := countdown }
  | zeal (on : Bool) : Move given heap (heap.setZeal on)
  | barrier (owner : CellId) {target : CellRef} : target ∈ given →
      Move given heap (heap.recordStore owner target)
  | pushRoot {ref : CellRef} : ref ∈ given → Move given heap (heap.pushRoot ref)
  | truncateRoots (count : Nat) : Move given heap (heap.truncateRoots count)
  | create {script : ScriptId} {content changed : Script} {bytes : Nat} :
      heap.script script = .ok content → heap.HasRoom bytes → content.Grows bytes changed →
      Move given heap ((heap.charged script.id bytes).setScript script changed)
  | store {script : ScriptId} {content changed : Script} {ref : CellRef} :
      ref ∈ given → heap.isLive ref.id = true → heap.script script = .ok content →
      content.Stores ref changed →
      Move given heap ((heap.setScript script changed).recordStore script.id ref)
  | edit {script : ScriptId} {content changed : Script} :
      heap.script script = .ok content → content.Edits changed →
      Move given heap (heap.setScript script changed)
  | share {script : ScriptId} {content : Script} {image : ScriptImage} :
      heap.script script = .ok content → content.image = .owned image →
      heap.HasRoom Charge.hold →
      Move given heap
        (((heap.charged script.id Charge.hold).shelved script image).2.setScript script
          { content with
            image := .shared ((heap.charged script.id Charge.hold).shelved script image).1 })

/-- Any number of moves. -/
abbrev Moves (given : Set CellRef) : Heap → Heap → Prop :=
  Relation.ReflTransGen (Move given)

/-- Moves that touch neither a cell nor a root nor the shared images. -/
def Stirs (given : Set CellRef) (heap after : Heap) : Prop :=
  Moves given heap after ∧ after.slots = heap.slots ∧ after.sharedImages = heap.sharedImages ∧
    after.rootStack = heap.rootStack

/-- Any number of moves, before which there may be a collection, and no change to
any cell or root before that. -/
def Passage (given : Set CellRef) (heap after : Heap) : Prop :=
  ∃ before between, Stirs given heap before ∧
    (between = before ∨ between = before.collected) ∧ Moves given between after

theorem Passage.of_moves {heap after : Heap} (h : Moves given heap after) :
    Passage given heap after :=
  ⟨heap, heap, ⟨.refl, rfl, rfl, rfl⟩, Or.inl rfl, h⟩

theorem Passage.refl (heap : Heap) : Passage given heap heap :=
  .of_moves .refl

theorem Passage.of_collected (heap : Heap) : Passage given heap heap.collected :=
  ⟨heap, heap.collected, ⟨.refl, rfl, rfl, rfl⟩, Or.inr rfl, .refl⟩

theorem Passage.move {heap middle after : Heap} (h : Passage given heap middle)
    (hmove : Move given middle after) : Passage given heap after := by
  obtain ⟨before, between, hbefore, hcollect, hafter⟩ := h
  exact ⟨before, between, hbefore, hcollect, hafter.tail hmove⟩

/-- What every move keeps, any number of them keeps. -/
theorem Moves.keep {p : Heap → Prop} {heap after : Heap} (h : Moves given heap after)
    (hmove : ∀ {before next : Heap}, p before → Move given before next → p next)
    (hstart : p heap) : p after := by
  induction h with
  | refl => exact hstart
  | tail _ hstep ih => exact hmove ih hstep

/-- What every move and a collection keep, a passage keeps. -/
theorem Passage.keep {p : Heap → Prop} {heap after : Heap} (h : Passage given heap after)
    (hmove : ∀ {before next : Heap}, p before → Move given before next → p next)
    (hcollected : ∀ {before : Heap}, p before → p before.collected) (hstart : p heap) :
    p after := by
  obtain ⟨before, between, ⟨hbefore, _⟩, hcollect, hafter⟩ := h
  have hheld : p before := hbefore.keep hmove hstart
  rcases hcollect with rfl | rfl
  · exact hafter.keep hmove hheld
  · exact hafter.keep hmove (hcollected hheld)

/-- Making room is a passage, whether it succeeds or not. -/
theorem passage_of_reserve {bytes : Nat} {heap after : Heap} {result : Except HeapError Unit}
    (h : (reserve bytes).ending heap = (result, after)) : Passage given heap after := by
  have hstruck : Moves given heap heap.struck :=
    .tail (.single .attempt) (.arm none)
  have hpassed : Moves given heap heap.passed :=
    .tail (.single .attempt) (.arm (heap.failureCountdown.map (· - 1)))
  have hreadied : Passage given heap (heap.readied bytes) := by
    unfold readied
    split
    · exact ⟨heap.passed, heap.passed.collected, ⟨hpassed, rfl, rfl, rfl⟩, Or.inr rfl, .refl⟩
    · exact .of_moves hpassed
  rw [ending_reserve] at h
  split at h
  · exact (Prod.mk.inj h).2 ▸ .of_moves hstruck
  · split at h <;> exact (Prod.mk.inj h).2 ▸ hreadied

/-- A cell is placed: in the slot that waits for it, with its charge, under the
address the slot issues. -/
def Places (heap : Heap) (cell : Cell) (bytes : Nat) (id : CellId) (after : Heap) : Prop :=
  ∃ index ready, heap.vacancy? = some (index, ready) ∧ heap.HasRoom bytes ∧
    id = ready.addressOf index ∧ after = ready.fill index cell bytes

theorem places_of_allocate {cell : Cell} {bytes : Nat} {heap after : Heap} {id : CellId}
    (h : (allocate cell bytes).ending heap = (.ok id, after)) :
    ∃ ready, (reserve bytes).ending heap = (.ok (), ready) ∧
      ready.Places cell bytes id after := by
  rw [ending_allocate] at h
  cases hreserve : (reserve bytes).ending heap with
  | mk result ready =>
      rw [hreserve] at h
      cases result with
      | error error => simp at h
      | ok done =>
          dsimp only at h
          rw [ending_place] at h
          have hroom := ((reserve_eq_ok_iff _ _ _).1 hreserve).2.2
          cases hvacancy : ready.vacancy? with
          | none => simp [hvacancy] at h
          | some found =>
              rw [hvacancy] at h
              obtain ⟨hid, hafter⟩ := Prod.mk.inj h
              exact ⟨ready, rfl, found.1, found.2, hvacancy, hroom,
                (Except.ok.inj hid).symm, hafter.symm⟩

theorem error_of_allocate {cell : Cell} {bytes : Nat} {heap after : Heap} {error : HeapError}
    (h : (allocate cell bytes).ending heap = (.error error, after)) :
    error = .outOfMemory ∧ ∃ result, (reserve bytes).ending heap = (result, after) := by
  rw [ending_allocate] at h
  cases hreserve : (reserve bytes).ending heap with
  | mk result ready =>
      rw [hreserve] at h
      cases result with
      | error error =>
          obtain ⟨herror, hafter⟩ := Prod.mk.inj h
          rw [← Except.error.inj herror, ← hafter]
          exact ⟨error_of_reserve hreserve, _, rfl⟩
      | ok done =>
          dsimp only at h
          rw [ending_place] at h
          cases hvacancy : ready.vacancy? with
          | none =>
              rw [hvacancy] at h
              obtain ⟨herror, hafter⟩ := Prod.mk.inj h
              exact ⟨(Except.error.inj herror).symm, _, by rw [← hafter]⟩
          | some found => simp [hvacancy] at h

/-- The parts of a heap that no move touches. -/
structure Frame (heap after : Heap) : Prop where
  limits : after.limits = heap.limits
  nextThreshold : after.nextThreshold = heap.nextThreshold
  marks : after.marks = heap.marks
  freeSlots : after.freeSlots = heap.freeSlots
  persistentRoots : after.persistentRoots = heap.persistentRoots
  freeRoots : after.freeRoots = heap.freeRoots
  atoms : after.atoms = heap.atoms

theorem frame_refund (id : CellId) (bytes : Nat) (heap : Heap) :
    Frame heap (heap.refund id bytes) := by
  unfold refund
  split <;> exact ⟨rfl, rfl, rfl, rfl, rfl, rfl, rfl⟩

theorem frame_shelved (script : ScriptId) (image : ScriptImage) (heap : Heap) :
    Frame heap (heap.shelved script image).2 := by
  unfold shelved
  split
  · exact frame_refund _ _ heap
  · exact ⟨rfl, rfl, rfl, rfl, rfl, rfl, rfl⟩

theorem rootStack_shelved (script : ScriptId) (image : ScriptImage) (heap : Heap) :
    (heap.shelved script image).2.rootStack = heap.rootStack := by
  unfold shelved refund
  split
  · split <;> rfl
  · rfl

theorem storeBuffer_shelved (script : ScriptId) (image : ScriptImage) (heap : Heap) :
    (heap.shelved script image).2.storeBuffer = heap.storeBuffer := by
  unfold shelved refund
  split
  · split <;> rfl
  · rfl

theorem failureCountdown_shelved (script : ScriptId) (image : ScriptImage) (heap : Heap) :
    (heap.shelved script image).2.failureCountdown = heap.failureCountdown := by
  unfold shelved refund
  split
  · split <;> rfl
  · rfl

theorem stats_shelved (script : ScriptId) (image : ScriptImage) (heap : Heap) :
    (heap.shelved script image).2.stats = heap.stats := by
  unfold shelved refund
  split
  · split <;> rfl
  · rfl

theorem Move.frame {heap after : Heap} (h : Move given heap after) : Frame heap after := by
  cases h with
  | share _ _ _ =>
      obtain ⟨h₁, h₂, h₃, h₄, h₅, h₆, h₇⟩ := frame_shelved _ _ _
      exact ⟨h₁, h₂, h₃, h₄, h₅, h₆, h₇⟩
  | _ => exact ⟨rfl, rfl, rfl, rfl, rfl, rfl, rfl⟩

/-- What a move does to the slots: nothing, or it rewrites the script in one
slot and what the slot is charged, and the bytes in use follow the charge. -/
inductive SlotChange (heap after : Heap) : Prop where
  | none : after.slots = heap.slots → after.usedBytes = heap.usedBytes → SlotChange heap after
  | rewrite {script : ScriptId} {content : Script} (changed : Script) (recharge : Nat → Nat) :
      heap.script script = .ok content → content.Revises changed →
      after.slots = heap.slots.modify script.id.index (fun slot =>
        { slot with cell := some (.script changed), bytes := recharge slot.bytes }) →
      (∀ slot, heap.slots[script.id.index]? = some slot → heap.limits.maxBytes < maxSize →
        slot.bytes ≤ heap.usedBytes →
        after.usedBytes + slot.bytes = heap.usedBytes + recharge slot.bytes) →
      (heap.usedBytes ≤ heap.limits.maxBytes → after.usedBytes ≤ heap.limits.maxBytes) →
      SlotChange heap after

theorem slots_setScript (heap : Heap) (script : ScriptId) (changed : Script) :
    (heap.setScript script changed).slots = heap.slots.modify script.id.index fun slot =>
      { slot with cell := some (.script changed) } := rfl

theorem modify_modify (slots : Array Slot) (index : Nat) (first second : Slot → Slot) :
    (slots.modify index first).modify index second =
      slots.modify index fun slot => second (first slot) := by
  refine Array.ext_getElem? fun other => ?_
  simp only [Array.getElem?_modify]
  split <;> simp [Function.comp_def]

/-- A request that has room under a limit below the largest size is added
without saturation. -/
theorem satAdd_of_hasRoom {heap : Heap} {bytes : Nat} (hroom : heap.HasRoom bytes)
    (hlimit : heap.limits.maxBytes < maxSize) :
    satAdd heap.usedBytes bytes = heap.usedBytes + bytes := by
  unfold HasRoom satAdd at hroom
  unfold satAdd
  omega

/-- An image is shared as an object of equal content. -/
@[simp] theorem image_shelved (script : ScriptId) (image : ScriptImage) (heap : Heap) :
    (heap.shelved script image).1.image = image := by
  unfold shelved
  split
  · rename_i object hfound
    have hsome := List.find?_some hfound
    simpa using hsome
  · rfl

/-- What a script is charged once it is sealed: the hold is added, and an image
that an equal object stands in for is taken off. -/
def sealedBytes (heap : Heap) (image : ScriptImage) (bytes : Nat) : Nat :=
  match heap.sharedImage? image with
  | some _ => bytes + Charge.hold - Charge.image image.totalLength
  | none => bytes + Charge.hold

theorem slots_share {heap : Heap} {script : ScriptId} {held : Slot}
    (hheld : heap.slots[script.id.index]? = some held) (image : ScriptImage) (changed : Script) :
    (((heap.charged script.id Charge.hold).shelved script image).2.setScript script
        changed).slots =
      heap.slots.modify script.id.index fun slot =>
        { slot with
          cell := some (.script changed)
          bytes := heap.sealedBytes image slot.bytes } := by
  have hsame : (heap.charged script.id Charge.hold).sharedImage? image = heap.sharedImage? image :=
    rfl
  unfold shelved sealedBytes
  rw [hsame]
  cases heap.sharedImage? image with
  | none => simp only [slots_setScript, published, charged, modifySlot, modify_modify]
  | some object =>
      have hcharged : (heap.charged script.id Charge.hold).slots[script.id.index]? =
          some { held with bytes := held.bytes + Charge.hold } := by
        simp [charged, modifySlot, Array.getElem?_modify, hheld]
      simp only [refund, hcharged]
      simp only [slots_setScript, charged, modifySlot, modify_modify]

theorem slotChange_share {heap : Heap} {script : ScriptId} {content : Script}
    {image : ScriptImage} (changed : Script) (hscript : heap.script script = .ok content)
    (hrevises : content.Revises changed) (hroom : heap.HasRoom Charge.hold) :
    SlotChange heap
      (((heap.charged script.id Charge.hold).shelved script image).2.setScript script
        changed) := by
  obtain ⟨held, hheld, _⟩ := (cellAt?_eq_some_iff _ _ _).1
    ((script_eq_ok_iff heap script content).1 hscript)
  have hcharged : (heap.charged script.id Charge.hold).slots[script.id.index]? =
      some { held with bytes := held.bytes + Charge.hold } := by
    simp [charged, modifySlot, Array.getElem?_modify, hheld]
  have hsame : (heap.charged script.id Charge.hold).sharedImage? image = heap.sharedImage? image :=
    rfl
  refine .rewrite changed (heap.sealedBytes image) hscript hrevises
    (slots_share hheld image changed) ?_ ?_
  · intro slot hslot hlimit hle
    obtain rfl := Option.some.inj (hheld.symm.trans hslot)
    have hused := satAdd_of_hasRoom hroom hlimit
    unfold sealedBytes shelved
    rw [hsame]
    cases heap.sharedImage? image with
    | none =>
        change satAdd heap.usedBytes Charge.hold + held.bytes =
          heap.usedBytes + (held.bytes + Charge.hold)
        omega
    | some object =>
        simp only [refund, hcharged]
        change satAdd heap.usedBytes Charge.hold -
            min (Charge.image image.totalLength) (held.bytes + Charge.hold) + held.bytes =
          heap.usedBytes + (held.bytes + Charge.hold - Charge.image image.totalLength)
        omega
  · intro _
    unfold shelved
    rw [hsame]
    cases heap.sharedImage? image with
    | none => exact hroom
    | some object =>
        simp only [refund, hcharged]
        exact (Nat.sub_le _ _).trans hroom

theorem Move.slotChange {heap after : Heap} (h : Move given heap after) :
    SlotChange heap after := by
  cases h with
  | @create script content changed bytes hscript hroom hgrows =>
      refine .rewrite changed (· + bytes) hscript (.grow hgrows) ?_ ?_ ?_
      · simp only [slots_setScript, charged, modifySlot, modify_modify]
      · intro slot _ hlimit _
        change satAdd heap.usedBytes bytes + slot.bytes = _
        rw [satAdd_of_hasRoom hroom hlimit]
        omega
      · exact fun _ => hroom
  | @store script content changed _ _ _ hscript hstores =>
      exact .rewrite changed id hscript (.store hstores) rfl (fun _ _ _ _ => rfl) id
  | @edit script content changed hscript hedits =>
      exact .rewrite changed id hscript (.edit hedits) rfl (fun _ _ _ _ => rfl) id
  | share hscript himage hroom =>
      exact slotChange_share _ hscript (.publish (by rw [himage, image_shelved])) hroom
  | _ => exact .none rfl rfl

end Heap

end ScriptLinker
