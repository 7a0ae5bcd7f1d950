import ScriptLinker.Proofs.Construction
/-!
# What a construction comes to

A script is built with five attempts of its own and one for each atom that has to be
created, and of the cells that are placed one is the script and the others are those
atoms. `Tallies` counts both for actions that succeed: the attempts, and the cells by what
became of the slots, since a cell that is placed takes a slot that is free or new and one
that is swept gives it back.
-/

namespace ScriptLinker

/-- The atom that was created, if the event tells of one. -/
def Event.atom? : Event → Option AtomId
  | .atomInterned _ atom => some atom
  | _ => none

namespace Action

variable {σ ε α β : Type}

/-- The atoms that an action creates, first to last. -/
def atomsMade (action : Action σ ε α) (state : σ) : List AtomId :=
  (action.run state).events.filterMap Event.atom?

theorem atomsMade_bind (first : Action σ ε α) (next : α → Action σ ε β) (state : σ) :
    (first >>= next).atomsMade state =
      first.atomsMade state ++
        match first.ending state with
        | (.ok value, after) => (next value).atomsMade after
        | (.error _, _) => [] := by
  unfold atomsMade ending
  rw [run_bind]
  cases first.run state with
  | mk result after events => cases result <;> simp

/-- Whether an action creates no atom on any state. -/
def Atomless (action : Action σ ε α) : Prop :=
  ∀ state, action.atomsMade state = []

theorem Atomless.bind {first : Action σ ε α} {next : α → Action σ ε β} (h : first.Atomless)
    (hnext : ∀ value, (next value).Atomless) : (first >>= next).Atomless := fun state => by
  rw [atomsMade_bind, h, List.nil_append]
  split
  · exact hnext _ _
  · rfl

theorem atomless_note {event : Event} (h : event.atom? = none) :
    (note event : Action σ ε Unit).Atomless := fun _ => by
  simp [atomsMade, h]

theorem atomless_collect {ε : Type} : (Heap.collect : Action Heap ε Unit).Atomless := by
  intro heap
  have hevents : ((Heap.collect : Action Heap ε Unit).run heap).events =
      heap.eventsOf heap.mark := rfl
  have hskipped : Event.atom? ∘ Event.staleSkipped = fun _ => none := rfl
  rw [atomsMade, hevents, Heap.eventsOf, List.filterMap_append, List.filterMap_map, hskipped]
  simp [Event.atom?]

end Action

namespace Heap

/-- What an action has done to a heap that succeeded: so many attempts, and so many cells
placed. -/
structure Tally (heap : Heap) (attempts cells : Nat) (after : Heap) : Prop where
  allocations : after.stats.allocations = heap.stats.allocations + attempts
  slots : after.slots.size + after.stats.cellsSwept + heap.freeSlots.length =
    heap.slots.size + heap.stats.cellsSwept + after.freeSlots.length + cells

/-- Whether an action that succeeds makes so many attempts and places so many cells, beside
one of each for every atom that it creates. -/
def Tallies {α : Type} (action : Action Heap HeapError α) (attempts cells : Nat) : Prop :=
  ∀ (heap : Heap) (value : α) (after : Heap), action.ending heap = (.ok value, after) →
    heap.Tally (attempts + (action.atomsMade heap).length)
      (cells + (action.atomsMade heap).length) after

theorem Tally.refl (heap : Heap) : heap.Tally 0 0 heap :=
  ⟨rfl, rfl⟩

/-- What leaves the slots in number, and which of them are free, comes to nothing. -/
theorem Tally.of_eq {heap after : Heap}
    (hallocations : after.stats.allocations = heap.stats.allocations)
    (hswept : after.stats.cellsSwept = heap.stats.cellsSwept)
    (hsize : after.slots.size = heap.slots.size) (hfree : after.freeSlots = heap.freeSlots) :
    heap.Tally 0 0 after :=
  ⟨hallocations, by rw [hswept, hsize, hfree, Nat.add_zero]⟩

theorem Tally.trans {heap middle after : Heap} {attempts cells attempts' cells' : Nat}
    (h : heap.Tally attempts cells middle) (h' : middle.Tally attempts' cells' after) :
    heap.Tally (attempts + attempts') (cells + cells') after := by
  obtain ⟨hattempts, hslots⟩ := h
  obtain ⟨hattempts', hslots'⟩ := h'
  exact ⟨by omega, by omega⟩

theorem Tallies.bind {α β : Type} {first : Action Heap HeapError α}
    {next : α → Action Heap HeapError β} {attempts cells attempts' cells' : Nat}
    (hfirst : Tallies first attempts cells)
    (hnext : ∀ value, Tallies (next value) attempts' cells') :
    Tallies (first >>= next) (attempts + attempts') (cells + cells') := by
  intro heap last after hending
  cases hmiddle : first.ending heap with
  | mk result middle =>
      cases result with
      | error error =>
          rw [Action.ending_bind_of_error hmiddle] at hending
          cases hending
      | ok value =>
          rw [Action.ending_bind_of_ok hmiddle] at hending
          obtain ⟨hattempts, hslots⟩ := (hfirst heap value middle hmiddle).trans
            (hnext value middle last after hending)
          rw [Action.atomsMade_bind, hmiddle, List.length_append]
          dsimp only
          exact ⟨by omega, by omega⟩

section Free

variable {α β : Type} {first : Action Heap HeapError α} {next : α → Action Heap HeapError β}
  {attempts cells : Nat}

/-- A step that comes to nothing can come before. -/
theorem Tallies.free_bind (hfirst : Tallies first 0 0)
    (hnext : ∀ value, Tallies (next value) attempts cells) :
    Tallies (first >>= next) attempts cells := by
  simpa only [Nat.zero_add] using hfirst.bind hnext

/-- It can come after, too. -/
theorem Tallies.bind_free (hfirst : Tallies first attempts cells)
    (hnext : ∀ value, Tallies (next value) 0 0) : Tallies (first >>= next) attempts cells :=
  hfirst.bind hnext

end Free

theorem tallies_of_atomless {α : Type} {action : Action Heap HeapError α} {attempts cells : Nat}
    (hatomless : action.Atomless)
    (h : ∀ (heap : Heap) (value : α) (after : Heap), action.ending heap = (.ok value, after) →
      heap.Tally attempts cells after) : Tallies action attempts cells := by
  intro heap value after hending
  rw [hatomless heap]
  exact h heap value after hending

theorem tallies_pure {α : Type} (value : α) :
    Tallies (pure value : Action Heap HeapError α) 0 0 :=
  tallies_of_atomless (fun _ => rfl) fun heap _ _ hending =>
    (Prod.mk.inj hending).2 ▸ Tally.refl heap

theorem tallies_note {event : Event} (h : event.atom? = none) :
    Tallies (Action.note event) 0 0 :=
  tallies_of_atomless (Action.atomless_note h) fun heap _ _ hending =>
    (Prod.mk.inj hending).2 ▸ Tally.refl heap

theorem tallies_ofExcept {α : Type} (value : Except HeapError α) :
    Tallies (Action.ofExcept value) 0 0 :=
  tallies_of_atomless (fun _ => rfl) fun heap _ _ hending =>
    (Prod.mk.inj hending).2 ▸ Tally.refl heap

theorem tallies_read {α : Type} (look : Heap → Except HeapError α) :
    Tallies (Action.read look) 0 0 :=
  tallies_of_atomless (fun _ => rfl) fun heap _ _ hending =>
    (Prod.mk.inj hending).2 ▸ Tally.refl heap

theorem tallies_modify {change : Heap → Heap} (h : ∀ heap : Heap, heap.Tally 0 0 (change heap)) :
    Tallies (Action.modify change) 0 0 :=
  tallies_of_atomless (fun _ => rfl) fun heap _ _ hending => (Prod.mk.inj hending).2 ▸ h heap

theorem atomless_reserve (bytes : Nat) : (reserve bytes).Atomless := by
  have hpass : (passInjection bytes).Atomless := by
    refine Action.Atomless.bind (fun _ => rfl) fun heap => ?_
    split
    · exact fun _ => rfl
    · exact fun _ => rfl
    · exact Action.Atomless.bind (fun _ => rfl) fun _ =>
        (Action.atomless_note rfl).bind fun _ _ => rfl
  have hcollect : (collectFor bytes).Atomless := by
    refine Action.Atomless.bind (fun _ => rfl) fun heap => ?_
    split
    · exact Action.atomless_collect
    · split
      · exact (Action.atomless_note rfl).bind fun _ => Action.atomless_collect
      · exact fun _ => rfl
  have hroom : (requireRoom bytes).Atomless := by
    refine Action.Atomless.bind (fun _ => rfl) fun heap => ?_
    split
    · exact (Action.atomless_note rfl).bind fun _ _ => rfl
    · exact fun _ => rfl
  exact Action.Atomless.bind (fun _ => rfl) fun _ => hpass.bind fun _ => hcollect.bind
    fun _ => hroom

/-- A collection leaves the tally as it is: what it sweeps is free again. -/
theorem tally_readied (bytes : Nat) (heap : Heap) : heap.Tally 1 0 (heap.readied bytes) := by
  unfold readied
  split
  · refine ⟨rfl, ?_⟩
    rw [size_slots_collected, cellsSwept_collected, freeSlots_collected, List.length_append,
      List.length_reverse]
    change heap.slots.size + (heap.stats.cellsSwept + _) + heap.freeSlots.length =
      heap.slots.size + heap.stats.cellsSwept + (_ + heap.freeSlots.length) + 0
    omega
  · exact ⟨rfl, rfl⟩

theorem tallies_reserve (bytes : Nat) : Tallies (reserve bytes) 1 0 :=
  tallies_of_atomless (atomless_reserve bytes) fun heap _ after hending => by
    obtain ⟨_, rfl, _⟩ := (reserve_eq_ok_iff bytes heap after).1 hending
    exact tally_readied bytes heap

/-- A new cell takes a slot that is free, or it adds one. -/
theorem tally_of_vacancy? {heap ready : Heap} {index : Nat}
    (h : heap.vacancy? = some (index, ready)) : heap.Tally 0 1 ready := by
  unfold vacancy? at h
  cases hfree : heap.freeSlots with
  | cons first rest =>
      rw [hfree] at h
      obtain ⟨_, rfl⟩ := Prod.mk.inj (Option.some.inj h)
      refine ⟨rfl, ?_⟩
      rw [hfree, List.length_cons]
      exact (Nat.add_assoc _ _ _).symm
  | nil =>
      rw [hfree] at h
      by_cases hsize : heap.slots.size < maxSlots
      · simp only [hsize, if_true] at h
        obtain ⟨_, rfl⟩ := Prod.mk.inj (Option.some.inj h)
        refine ⟨rfl, ?_⟩
        simp only [slots_grown, stats_grown, freeSlots_grown, Array.size_push, hfree]
        omega
      · simp [hsize] at h

theorem atomless_place (cell : Cell) (bytes : Nat) : (place cell bytes).Atomless := by
  refine Action.Atomless.bind (fun _ => rfl) fun heap => ?_
  split
  · exact fun _ => rfl
  · split <;> exact fun _ => rfl

theorem tallies_place (cell : Cell) (bytes : Nat) : Tallies (place cell bytes) 0 1 := by
  refine tallies_of_atomless (atomless_place cell bytes) fun heap id after hending => ?_
  rw [ending_place] at hending
  cases hvacancy : heap.vacancy? with
  | none =>
      rw [hvacancy] at hending
      cases hending
  | some found =>
      rw [hvacancy] at hending
      obtain ⟨_, rfl⟩ := Prod.mk.inj hending
      have hfill : found.2.Tally 0 0 (found.2.fill found.1 cell bytes) :=
        .of_eq rfl rfl (size_slots_modifySlot _ _ _) rfl
      exact (tally_of_vacancy? hvacancy).trans hfill

theorem tallies_allocate (cell : Cell) (bytes : Nat) : Tallies (allocate cell bytes) 1 1 :=
  (tallies_reserve bytes).bind fun _ => tallies_place cell bytes

theorem tallies_charge (id : CellId) (bytes : Nat) : Tallies (charge id bytes) 1 0 :=
  (tallies_reserve bytes).bind_free fun _ =>
    (tallies_read _).free_bind fun _ =>
      tallies_modify fun _ => .of_eq rfl rfl (size_slots_modifySlot _ _ _) rfl

theorem tallies_updateScript (script : ScriptId)
    (change : Script → Except HeapError Script) : Tallies (updateScript script change) 0 0 :=
  (tallies_read _).free_bind fun _ => (tallies_ofExcept _).free_bind fun _ =>
    tallies_modify fun _ => .of_eq rfl rfl (size_slots_modifySlot _ _ _) rfl

theorem tallies_createPart (script : ScriptId) (part : ScriptPart) (bytes : Nat)
    (install : Script → Script) : Tallies (createPart script part bytes install) 1 0 :=
  (tallies_read _).free_bind fun _ => (tallies_ofExcept _).free_bind fun _ =>
    (tallies_charge script.id bytes).bind_free fun _ => tallies_updateScript script _

theorem tallies_storeRef (script : ScriptId) (ref : CellRef)
    (install : Script → Except HeapError Script) : Tallies (storeRef script ref install) 0 0 :=
  (tallies_read _).free_bind fun _ => (tallies_updateScript script install).free_bind fun _ =>
    tallies_modify fun _ => .of_eq rfl rfl rfl rfl

theorem tallies_fillThingsFrom (script : ScriptId) (globalScope : ScopeId) (index : Nat)
    (sources : List ThingSource) :
    Tallies (fillThingsFrom script globalScope index sources) 0 0 := by
  induction sources generalizing index with
  | nil => exact tallies_pure ()
  | cons source rest ih =>
      exact (tallies_read _).free_bind fun thing =>
        (tallies_storeRef script thing _).free_bind fun _ => ih (index + 1)

theorem tally_shelved (script : ScriptId) (image : ScriptImage) (heap : Heap) :
    heap.Tally 0 0 (heap.shelved script image).2 := by
  have hframe := frame_shelved script image heap
  have hstats := stats_shelved script image heap
  refine .of_eq (congrArg _ hstats) (congrArg _ hstats) ?_ hframe.freeSlots
  unfold shelved refund
  split
  · split
    · rfl
    · exact size_slots_modifySlot _ _ _
  · rfl

theorem tallies_internImage (script : ScriptId) (image : ScriptImage) :
    Tallies (internImage script image) 0 0 := by
  have hatomless : (internImage script image).Atomless := by
    refine Action.Atomless.bind (fun _ => rfl) fun heap => ?_
    split
    · exact (Action.atomless_note rfl).bind fun _ => Action.Atomless.bind (fun _ => rfl)
        fun _ _ => rfl
    · exact Action.Atomless.bind (fun _ => rfl) fun _ _ => rfl
  refine tallies_of_atomless hatomless fun heap object after hending => ?_
  rw [ending_internImage] at hending
  exact (Prod.mk.inj hending).2 ▸ tally_shelved script image heap

theorem tallies_share (script : ScriptId) : Tallies (share script) 1 0 :=
  (tallies_read _).free_bind fun _ => (tallies_charge script.id Charge.hold).bind_free fun _ =>
    (tallies_read _).free_bind fun image => (tallies_internImage script image).free_bind
      fun _ => tallies_updateScript script _

/-- What interning does with a text that no atom alive holds. -/
def internNew (text : String) : Action Heap HeapError AtomId := do
  let id ← allocate (.atom text) (Charge.atom text)
  Action.modify (enterAtom text ⟨id⟩)
  Action.note (.atomInterned text ⟨id⟩)
  pure ⟨id⟩

theorem run_intern_of_some {heap : Heap} {text : String} {atom : AtomId}
    (h : ((heap.internedAtom? text).filter fun atom => heap.isLive atom.id) = some atom) :
    (intern text).run heap = ⟨.ok atom, heap, []⟩ := by
  rw [intern, Action.run_bind, Action.run_get]
  dsimp only
  rw [h]
  rfl

theorem run_intern_of_none {heap : Heap} {text : String}
    (h : ((heap.internedAtom? text).filter fun atom => heap.isLive atom.id) = none) :
    (intern text).run heap = (internNew text).run heap := by
  rw [intern, Action.run_bind, Action.run_get]
  dsimp only
  rw [h]
  rfl

/-- The attempt and the cell of a new atom are the atom's own. -/
theorem tallies_internNew (text : String) : Tallies (internNew text) 0 0 := by
  intro heap atom after hending
  have hatomless : (allocate (.atom text) (Charge.atom text)).Atomless :=
    (atomless_reserve _).bind fun _ => atomless_place _ _
  unfold internNew at hending ⊢
  rw [Action.atomsMade_bind, hatomless heap]
  cases hallocate : (allocate (.atom text) (Charge.atom text)).ending heap with
  | mk result placed =>
      cases result with
      | error error =>
          rw [Action.ending_bind_of_error hallocate] at hending
          cases hending
      | ok id =>
          rw [Action.ending_bind_of_ok hallocate] at hending
          obtain ⟨_, rfl⟩ := Prod.mk.inj hending
          have htally := tallies_allocate _ _ heap id placed hallocate
          have hentered : placed.Tally 0 0 (placed.enterAtom text ⟨id⟩) := .of_eq rfl rfl rfl rfl
          rw [hatomless heap] at htally
          exact htally.trans hentered

theorem tallies_intern (text : String) : Tallies (intern text) 0 0 := by
  intro heap atom after hending
  cases hfound : (heap.internedAtom? text).filter fun atom => heap.isLive atom.id with
  | some found =>
      have hrun := run_intern_of_some hfound
      rw [Action.ending, hrun] at hending
      rw [Action.atomsMade, hrun]
      exact (Prod.mk.inj hending).2 ▸ Tally.refl heap
  | none =>
      have hrun := run_intern_of_none hfound
      rw [Action.ending, hrun] at hending
      rw [Action.atomsMade, hrun]
      exact tallies_internNew text heap atom after hending

theorem tallies_atomize (bytes : Bytes) : Tallies (atomize bytes) 0 0 := by
  unfold atomize
  cases Utf8.decode? bytes with
  | none => exact tallies_ofExcept (.error _)
  | some text => exact tallies_intern text

theorem tallies_internStrings (script : ScriptId) (index : Nat) (strings : List Bytes) :
    Tallies (Blueprint.internStrings script index strings) 0 0 := by
  induction strings generalizing index with
  | nil => exact tallies_pure ()
  | cons string rest ih =>
      exact (tallies_atomize string).free_bind fun atom =>
        (tallies_storeRef script (.atom atom) _).free_bind fun _ => ih (index + 1)

theorem ending_withRoots {α : Type} (action : Action Heap HeapError α) (heap : Heap) :
    (withRoots action).ending heap =
      ((action.ending heap).1,
        (action.ending heap).2.truncateRoots heap.rootStack.length) := rfl

theorem Tallies.withRoots {α : Type} {action : Action Heap HeapError α} {attempts cells : Nat}
    (h : Tallies action attempts cells) : Tallies (Heap.withRoots action) attempts cells := by
  intro heap value after hending
  have hevents : (Heap.withRoots action).atomsMade heap = action.atomsMade heap := by
    have hrun : ((Heap.withRoots action).run heap).events = (action.run heap).events ++ [] := rfl
    rw [Action.atomsMade, hrun, List.append_nil, Action.atomsMade]
  rw [hevents]
  cases haction : action.ending heap with
  | mk result last =>
      have hwith : (Heap.withRoots action).ending heap =
          (result, last.truncateRoots heap.rootStack.length) := by
        rw [ending_withRoots, haction]
      obtain ⟨rfl, rfl⟩ := Prod.mk.inj (hwith.symm.trans hending)
      have hdropped : last.Tally 0 0 (last.truncateRoots heap.rootStack.length) :=
        .of_eq rfl rfl rfl rfl
      exact (h heap value last haction).trans hdropped

/-- A script is built with five attempts and one cell, beside those of its new atoms. -/
theorem tallies_build (blueprint : Blueprint) (globalScope : ScopeId) :
    Tallies (blueprint.build globalScope) 5 1 := by
  have hthings : ∀ script, Tallies (blueprint.buildThings globalScope script) 1 0 :=
    fun script => (tallies_createPart script _ _ _).bind_free fun _ =>
      (tallies_note rfl).free_bind fun _ =>
        (tallies_fillThingsFrom script globalScope 0 _).free_bind fun _ => tallies_note rfl
  have hatoms : ∀ script, Tallies (blueprint.buildAtoms script) 1 0 := fun script =>
    (tallies_createPart script _ _ _).bind_free fun _ => (tallies_note rfl).free_bind fun _ =>
      (tallies_internStrings script 0 _).free_bind fun _ => tallies_note rfl
  have himage : ∀ script, Tallies (blueprint.buildImage script) 1 0 := fun script =>
    (tallies_createPart script _ _ _).bind_free fun _ => (tallies_note rfl).free_bind fun _ =>
      (tallies_updateScript script _).free_bind fun _ =>
        (tallies_updateScript script _).free_bind fun _ => tallies_note rfl
  have hshell : Tallies (allocScript blueprint.extent) 1 1 :=
    (tallies_allocate _ _).bind_free fun _ => tallies_pure _
  have hrooted : ∀ script, Tallies (Action.modify (pushRoot (.script script))) 0 0 :=
    fun script => tallies_modify fun _ => .of_eq rfl rfl rfl rfl
  refine Tallies.withRoots ?_
  change Tallies _ (1 + (1 + (1 + (1 + 1)))) (1 + (0 + (0 + (0 + 0))))
  refine hshell.bind fun script => (hrooted script).free_bind fun _ =>
    (tallies_note rfl).free_bind fun _ => ?_
  refine (hthings script).bind fun _ => (hatoms script).bind fun _ => (himage script).bind
    fun _ => (tallies_share script).bind_free fun _ => ?_
  exact (tallies_note rfl).free_bind fun _ => tallies_pure script

/-- Every slot is free or holds a cell. -/
theorem SlotsSound.liveCells_add_free {heap : Heap} (h : heap.SlotsSound) :
    heap.liveCells + heap.freeSlots.length = heap.slots.size := by
  let vacant := (List.range heap.slots.size).filter fun index =>
    ¬ (heap.slots.getD index {}).cell.isSome = true
  have hvacant : heap.freeSlots.Perm vacant := by
    refine (List.perm_ext_iff_of_nodup h.free_nodup (List.nodup_range.filter _)).2 fun index => ?_
    rw [h.mem_free_iff, List.mem_filter, List.mem_range, Array.getD_eq_getD_getElem?]
    constructor
    · rintro ⟨slot, hslot, hempty⟩
      exact ⟨(Array.getElem?_eq_some_iff.1 hslot).1, by simp [hslot, hempty]⟩
    · rintro ⟨hindex, hempty⟩
      exact ⟨heap.slots[index], by simp [hindex], by simpa [hindex] using hempty⟩
  have hslots : heap.slots.toList =
      (List.range heap.slots.size).map fun index => heap.slots.getD index {} := by
    refine List.ext_getElem (by simp) fun index hindex _ => ?_
    have hlt : index < heap.slots.size := by simpa using hindex
    simp [Array.getD_eq_getD_getElem?, hlt]
  have hcount : heap.liveCells =
      (List.range heap.slots.size).countP fun index => (heap.slots.getD index {}).cell.isSome := by
    rw [liveCells, ← Array.countP_toList, hslots, List.countP_map]
    rfl
  rw [hvacant.length_eq, hcount, ← List.countP_eq_length_filter]
  exact (List.length_eq_countP_add_countP _).symm.trans List.length_range

end Heap

end ScriptLinker
