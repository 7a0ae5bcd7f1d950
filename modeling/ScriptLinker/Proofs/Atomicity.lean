import ScriptLinker.Proofs.Faults
import ScriptLinker.Proofs.Room
/-!
# What a failed call leaves

A call that asks for a cell or works on a script checks what it can before it asks for
room, and changes nothing else before it has succeeded. So where it fails it has done
nothing at all, or it has asked for room: then the attempt is counted, and the heap may
have collected. `Call.atomic` says so for every such call, whatever it is passed, and
`Spares` says what that leaves alone.

Sealing is a case of its own. An implementation that moves the image out of the script
before it looks it up among the shared ones leaves the script without one for a while;
`ending_shareByTaking` says that it ends as `share` does, so that no failure comes in
between.
-/

namespace ScriptLinker

namespace Heap

variable {heap after : Heap} {error : HeapError}

/-- The countdown to the injected failure when one attempt more has been made. -/
def countedDown : Option Nat → Option Nat
  | some (left + 1) => some left
  | _ => none

/-- The heap with one attempt more. -/
def attempted (heap : Heap) : Heap :=
  { heap with
    stats.allocations := heap.stats.allocations + 1
    failureCountdown := countedDown heap.failureCountdown }

theorem struck_eq_attempted (h : heap.failureCountdown = some 0) :
    heap.struck = heap.attempted := by
  rw [struck, attempted, h]
  rfl

theorem passed_eq_attempted (h : heap.failureCountdown ≠ some 0) :
    heap.passed = heap.attempted := by
  unfold passed attempted
  cases hcountdown : heap.failureCountdown with
  | none => rfl
  | some left =>
      cases left with
      | zero => exact absurd hcountdown h
      | succ left => rfl

theorem keeps_attempted (heap : Heap) : heap.Keeps heap.attempted := by
  by_cases h : heap.failureCountdown = some 0
  · exact struck_eq_attempted h ▸ keeps_struck heap
  · exact passed_eq_attempted h ▸ keeps_passed heap

theorem attempted_of_reserve {bytes : Nat} {result : Except HeapError Unit}
    (h : (reserve bytes).ending heap = (result, after)) :
    after = heap.attempted ∨ after = heap.attempted.collected := by
  rw [ending_reserve] at h
  by_cases hstrike : heap.failureCountdown = some 0
  · rw [if_pos hstrike] at h
    exact Or.inl ((Prod.mk.inj h).2.symm.trans (struck_eq_attempted hstrike))
  · rw [if_neg hstrike] at h
    have hafter : after = heap.readied bytes := by
      split at h <;> exact (Prod.mk.inj h).2.symm
    rw [hafter, readied, passed_eq_attempted hstrike]
    split
    · exact Or.inr rfl
    · exact Or.inl rfl

/-- What a call that fails with an error leaves of a heap. -/
inductive Leaves (heap : Heap) : HeapError → Heap → Prop where
  /-- The call has not asked for room, and a reference that it found stale was so before. -/
  | untouched {error : HeapError} : error ≠ .outOfMemory →
      (∀ id, error = .staleReference id → heap.isLive id = false) → Leaves heap error heap
  /-- There was no room, after a collection at most. -/
  | crowded {after : Heap} : after = heap.attempted ∨ after = heap.attempted.collected →
      Leaves heap .outOfMemory after
  /-- There was room, but to make it the heap has collected the script of the call. -/
  | swept {id : CellId} : heap.isLive id = true → ¬ heap.Reaches id →
      Leaves heap (.staleReference id) heap.attempted.collected

theorem leaves_of_progress (h : error.ofProgress = true) : heap.Leaves error heap := by
  refine .untouched ?_ ?_
  · rintro rfl
    contradiction
  · rintro id rfl
    contradiction

theorem leaves_of_stale {id : CellId} (h : heap.isLive id = false) :
    heap.Leaves (.staleReference id) heap := by
  refine .untouched (by simp) fun other hother => ?_
  exact HeapError.staleReference.inj hother ▸ h

theorem leaves_of_script {script : ScriptId} (h : heap.script script = .error error) :
    heap.Leaves error heap := by
  have hlookUp := lookUp_of_script_error h
  rw [lookUp_eq] at hlookUp
  cases hcell : heap.cell? script.id with
  | none =>
      simp only [CellRef.id, hcell, Except.error.injEq] at hlookUp
      exact hlookUp ▸ leaves_of_stale (by simp [isLive, hcell])
  | some cell =>
      simp only [CellRef.id, hcell] at hlookUp
      split at hlookUp
      · simp at hlookUp
      · obtain rfl := Except.error.inj hlookUp
        exact .untouched (by simp) (by simp)

theorem leaves_of_reserve {bytes : Nat}
    (h : (reserve bytes).ending heap = (.error error, after)) : heap.Leaves error after := by
  obtain rfl := error_of_reserve h
  exact .crowded (attempted_of_reserve h)

/-- The steps of a call on a script that come after the check of its state: room is made,
and the script has to be there still. If it is gone the heap has collected, since the
attempt alone would have left it where it was. -/
theorem leaves_of_ready {bytes : Nat} {id : CellId} {done : Heap → Heap}
    (hlive : heap.isLive id = true)
    (h : (match (reserve bytes).ending heap with
      | (.error error, after) => ((.error error : Except HeapError Unit), after)
      | (.ok (), ready) =>
        if ready.isLive id then (.ok (), done ready)
        else (.error (.staleReference id), ready)) = (.error error, after)) :
    heap.Leaves error after := by
  cases hreserve : (reserve bytes).ending heap with
  | mk result ready =>
      rw [hreserve] at h
      cases result with
      | error fault =>
          obtain ⟨herror, rfl⟩ := Prod.mk.inj h
          exact Except.error.inj herror ▸ leaves_of_reserve hreserve
      | ok room =>
          dsimp only at h
          split at h
          · simp at h
          · rename_i hgone
            obtain ⟨herror, rfl⟩ := Prod.mk.inj h
            obtain rfl := Except.error.inj herror
            rcases attempted_of_reserve hreserve with rfl | rfl
            · exact absurd hlive hgone
            · refine .swept hlive fun hreached => hgone ((isLive_collected_iff _ _).2 ?_)
              exact ((keeps_attempted heap).reaches_iff id).2 hreached

theorem leaves_of_allocate {cell : Cell} {bytes : Nat}
    (h : (allocate cell bytes).ending heap = (.error error, after)) : heap.Leaves error after := by
  obtain ⟨rfl, _, hreserve⟩ := error_of_allocate h
  exact .crowded (attempted_of_reserve hreserve)

theorem leaves_of_atomize {bytes : Bytes}
    (h : (atomize bytes).ending heap = (.error error, after)) : heap.Leaves error after := by
  unfold atomize at h
  cases hdecode : Utf8.decode? bytes with
  | none =>
      rw [hdecode] at h
      obtain ⟨herror, rfl⟩ := Prod.mk.inj h
      obtain rfl := Except.error.inj herror
      exact .untouched (by simp) (by simp)
  | some text =>
      rw [hdecode] at h
      dsimp only at h
      rw [ending_intern] at h
      split at h
      · simp at h
      · cases hallocate : (allocate (.atom text) (Charge.atom text)).ending heap with
        | mk result placed =>
            rw [hallocate] at h
            cases result with
            | ok id => simp at h
            | error fault =>
                obtain ⟨herror, rfl⟩ := Prod.mk.inj h
                exact Except.error.inj herror ▸ leaves_of_allocate hallocate

theorem leaves_of_createPart {script : ScriptId} {part : ScriptPart} {bytes : Nat}
    {install : Script → Script}
    (h : (createPart script part bytes install).ending heap = (.error error, after)) :
    heap.Leaves error after := by
  rw [ending_createPart] at h
  cases hscript : heap.script script with
  | error fault =>
      rw [hscript] at h
      obtain ⟨herror, rfl⟩ := Prod.mk.inj h
      exact Except.error.inj herror ▸ leaves_of_script hscript
  | ok content =>
      rw [hscript] at h
      dsimp only at h
      cases hmissing : content.requireMissing part with
      | error fault =>
          rw [hmissing] at h
          obtain ⟨herror, rfl⟩ := Prod.mk.inj h
          exact Except.error.inj herror ▸
            leaves_of_progress (Script.ofProgress_of_requireMissing hmissing)
      | ok done =>
          rw [hmissing] at h
          exact leaves_of_ready (isLive_of_script hscript) h

theorem leaves_of_updateScript {script : ScriptId} {change : Script → Except HeapError Script}
    (hchange : ∀ content error, change content = .error error → error.ofProgress = true)
    (h : (updateScript script change).ending heap = (.error error, after)) :
    heap.Leaves error after := by
  rw [ending_updateScript] at h
  cases hscript : heap.script script with
  | error fault =>
      rw [hscript] at h
      obtain ⟨herror, rfl⟩ := Prod.mk.inj h
      exact Except.error.inj herror ▸ leaves_of_script hscript
  | ok content =>
      rw [hscript] at h
      dsimp only at h
      cases hchanged : change content with
      | error fault =>
          rw [hchanged] at h
          obtain ⟨herror, rfl⟩ := Prod.mk.inj h
          exact Except.error.inj herror ▸ leaves_of_progress (hchange content fault hchanged)
      | ok changed => simp [hchanged] at h

/-- A store fails in its update only, the barrier that follows does not fail. -/
theorem leaves_of_storeRef {script : ScriptId} {ref : CellRef}
    {install : Script → Except HeapError Script}
    (hinstall : ∀ content error, install content = .error error → error.ofProgress = true)
    (h : (storeRef script ref install).ending heap = (.error error, after)) :
    heap.Leaves error after := by
  by_cases hlive : heap.isLive ref.id = true
  · have hupdate : (updateScript script install).ending heap = (.error error, after) := by
      rw [ending_storeRef, if_pos hlive] at h
      rw [ending_updateScript]
      cases hscript : heap.script script with
      | error fault => simpa only [hscript] using h
      | ok content =>
          cases hchanged : install content with
          | error fault => simpa only [hscript, hchanged] using h
          | ok changed => simp [hscript, hchanged] at h
    exact leaves_of_updateScript hinstall hupdate
  · rw [ending_storeRef, if_neg hlive] at h
    obtain ⟨herror, rfl⟩ := Prod.mk.inj h
    exact Except.error.inj herror ▸ leaves_of_stale (Bool.eq_false_of_not_eq_true hlive)

theorem leaves_of_share {script : ScriptId}
    (h : (share script).ending heap = (.error error, after)) : heap.Leaves error after := by
  rw [ending_share] at h
  cases hscript : heap.script script with
  | error fault =>
      rw [hscript] at h
      obtain ⟨herror, rfl⟩ := Prod.mk.inj h
      exact Except.error.inj herror ▸ leaves_of_script hscript
  | ok content =>
      rw [hscript] at h
      dsimp only at h
      cases himage : content.ownedImage with
      | error fault =>
          rw [himage] at h
          obtain ⟨herror, rfl⟩ := Prod.mk.inj h
          exact Except.error.inj herror ▸
            leaves_of_progress (Script.ofProgress_of_ownedImage himage)
      | ok image =>
          rw [himage] at h
          exact leaves_of_ready (isLive_of_script hscript) h

/-- What a heap keeps that counts an attempt and collects at most: all but the cells that
the roots do not reach, and the table entries that stand for those. -/
structure Spares (heap after : Heap) : Prop extends heap.Keeps after where
  /-- A cell that is there still has its content and its charge. -/
  slots_live : ∀ id, after.isLive id = true → after.slots[id.index]? = heap.slots[id.index]?
  atoms : after.atoms.Sublist heap.atoms
  mem_atoms : ∀ entry ∈ heap.atoms, after.isLive entry.2.id = true → entry ∈ after.atoms
  images : after.sharedImages.Sublist heap.sharedImages
  mem_images : ∀ object ∈ heap.sharedImages, after.isShared object = true →
    object ∈ after.sharedImages
  nextSerial : after.nextSerial = heap.nextSerial
  storeBuffer : after.storeBuffer = heap.storeBuffer ∧
      after.stats.gcRuns = heap.stats.gcRuns ∨
    after.storeBuffer = #[] ∧ after.stats.gcRuns = heap.stats.gcRuns + 1
  writeBarriers : after.stats.writeBarriers = heap.stats.writeBarriers

theorem Spares.refl (heap : Heap) : heap.Spares heap where
  toKeeps := .refl heap
  slots_live := fun _ _ => rfl
  atoms := List.Sublist.refl _
  mem_atoms := fun _ hentry _ => hentry
  images := List.Sublist.refl _
  mem_images := fun _ hobject _ => hobject
  nextSerial := rfl
  storeBuffer := Or.inl ⟨rfl, rfl⟩
  writeBarriers := rfl

theorem spares_collected (heap : Heap) : heap.Spares heap.collected where
  toKeeps := keeps_collected heap
  slots_live := fun id hlive =>
    slot_collected_of_reaches ((isLive_collected_iff heap id).1 hlive)
  atoms := by
    rw [atoms_collected]
    exact List.filter_sublist
  mem_atoms := fun entry hentry hlive => by
    rw [atoms_collected]
    exact List.mem_filter.2 ⟨hentry, hlive⟩
  images := by
    rw [sharedImages_collected]
    exact List.filter_sublist
  mem_images := fun object hobject hshared => by
    rw [sharedImages_collected]
    exact List.mem_filter.2 ⟨hobject, hshared⟩
  nextSerial := rfl
  storeBuffer := Or.inr ⟨rfl, gcRuns_collected heap⟩
  writeBarriers := rfl

/-- An attempt that is counted first makes no difference. -/
theorem Spares.of_attempted (h : heap.attempted.Spares after) : heap.Spares after :=
  { h with toKeeps := (keeps_attempted heap).trans h.toKeeps }

theorem Leaves.spares (h : heap.Leaves error after) : heap.Spares after := by
  cases h with
  | untouched _ _ => exact .refl heap
  | crowded hafter =>
      rcases hafter with rfl | rfl
      · exact (Spares.refl heap.attempted).of_attempted
      · exact (spares_collected heap.attempted).of_attempted
  | swept _ _ => exact (spares_collected heap.attempted).of_attempted

/-- A script that is there still has the image it had. -/
theorem Spares.ownedImage (h : heap.Spares after) {script : ScriptId} {image : ScriptImage}
    (himage : heap.ownedImage script = .ok image) (hlive : after.isLive script.id = true) :
    after.ownedImage script = .ok image := by
  rw [Heap.ownedImage, script_congr (cell?_congr (h.slots_live _ hlive))]
  exact himage

/-- Takes the image out of a script, which is left without one. -/
def takeImage (script : ScriptId) : Action Heap HeapError ScriptImage := do
  let content ← Action.read fun heap => heap.script script
  Action.modify (setScript script { content with image := .absent })
  Action.ofExcept content.ownedImage

/-- Seals a script whose image is taken out of it before it is looked up among the shared
ones. -/
def shareByTaking (script : ScriptId) : Action Heap HeapError Unit := do
  let _ ← Action.read fun heap => heap.ownedImage script
  charge script.id Charge.hold
  let image ← takeImage script
  let object ← internImage script image
  updateScript script fun content => .ok { content with image := .shared object }

/-- The content that a script is given replaces what it was given before. -/
theorem setScript_setScript (script : ScriptId) (first last : Script) (heap : Heap) :
    (heap.setScript script first).setScript script last = heap.setScript script last := by
  simp only [setScript, modifySlot, modify_modify]

theorem refund_of_slot {id : CellId} {slot : Slot} (h : heap.slots[id.index]? = some slot)
    (bytes : Nat) :
    heap.refund id bytes =
      { heap.modifySlot id.index fun slot => { slot with bytes := slot.bytes - bytes } with
        usedBytes := heap.usedBytes - min bytes slot.bytes } := by
  rw [refund, h]

theorem setScript_refund_setScript {script : ScriptId} {content : Script}
    (h : heap.script script = .ok content) (first last : Script) (bytes : Nat) :
    ((heap.setScript script first).refund script.id bytes).setScript script last =
      (heap.refund script.id bytes).setScript script last := by
  obtain ⟨slot, hslot, _⟩ := (cellAt?_eq_some_iff _ _ _).1 ((script_eq_ok_iff _ _ _).1 h)
  have hgiven : (heap.setScript script first).slots[script.id.index]? =
      some { slot with cell := some (.script first) } := by
    simp [setScript, modifySlot, Array.getElem?_modify, hslot]
  rw [refund_of_slot hslot, refund_of_slot hgiven]
  simp only [setScript, modifySlot, modify_modify]

/-- The look-up among the shared images does not see what the script holds meanwhile. -/
theorem shelved_setScript {script : ScriptId} {content : Script}
    (h : heap.script script = .ok content) (first last : Script) (image : ScriptImage) :
    ((heap.setScript script first).shelved script image).1 = (heap.shelved script image).1 ∧
      ((heap.setScript script first).shelved script image).2.setScript script last =
        (heap.shelved script image).2.setScript script last := by
  have hfound : (heap.setScript script first).sharedImage? image = heap.sharedImage? image := rfl
  unfold shelved
  rw [hfound]
  cases heap.sharedImage? image with
  | some object => exact ⟨rfl, setScript_refund_setScript h first last _⟩
  | none => exact ⟨rfl, setScript_setScript script first last (heap.published image)⟩

theorem script_of_charge {script : ScriptId} {content : Script} {bytes : Nat}
    (h : (charge script.id bytes).ending heap = (.ok (), after))
    (hscript : heap.script script = .ok content) : after.script script = .ok content := by
  rw [ending_charge] at h
  cases hreserve : (reserve bytes).ending heap with
  | mk result ready =>
      rw [hreserve] at h
      cases result with
      | error error => simp at h
      | ok done =>
          dsimp only at h
          split at h
          · rename_i hlive
            obtain rfl := (Prod.mk.inj h).2
            exact script_charged_of_reserve hreserve hscript hlive
          · simp at h

/-- The image that was taken out is traded for the shared object. -/
theorem ending_trade_taken {script : ScriptId} {content : Script} {image : ScriptImage}
    (hscript : heap.script script = .ok content) (himage : content.ownedImage = .ok image) :
    (do
      let image ← takeImage script
      let object ← internImage script image
      updateScript script fun content => .ok { content with image := .shared object } :
        Action Heap HeapError Unit).ending heap =
      (.ok (), (heap.shelved script image).2.setScript script
        { content with image := .shared (heap.shelved script image).1 }) := by
  let left := heap.setScript script { content with image := .absent }
  have htake : (takeImage script).ending heap = (.ok image, left) := by
    rw [takeImage, Action.ending_bind, Action.ending_read, hscript]
    dsimp only
    rw [Action.ending_bind, Action.ending_modify]
    exact Prod.ext himage rfl
  have hleft : left.script script = .ok { content with image := .absent } :=
    (script_eq_ok_iff _ _ _).2 ((cell?_setScript hscript _ _).trans (if_pos rfl))
  obtain ⟨hobject, hshelved⟩ := shelved_setScript hscript { content with image := .absent }
    { content with image := .shared (heap.shelved script image).1 } image
  rw [Action.ending_bind_of_ok htake, Action.ending_bind_of_ok (ending_internImage _ _ _),
    ending_updateScript, script_shelved, hleft]
  dsimp only
  rw [← hshelved, ← hobject]

/-- Taking the image out first makes no difference: what is left of the sealing then does
not fail, and the script gets the shared object in place of the image. -/
theorem ending_shareByTaking (script : ScriptId) (heap : Heap) :
    (shareByTaking script).ending heap = (share script).ending heap := by
  unfold shareByTaking share
  rw [Action.ending_bind, Action.ending_bind, Action.ending_read]
  cases howned : heap.ownedImage script with
  | error error => rfl
  | ok image =>
      dsimp only
      rw [Action.ending_bind, Action.ending_bind]
      cases hcharge : (charge script.id Charge.hold).ending heap with
      | mk result charged =>
          cases result with
          | error error => rfl
          | ok done =>
              obtain ⟨content, hscript, himage⟩ : ∃ content, heap.script script = .ok content ∧
                  content.ownedImage = .ok image := by
                cases hscript : heap.script script with
                | error error => simp [ownedImage, hscript, bind, Except.bind] at howned
                | ok content => exact ⟨content, rfl, ownedImage_eq hscript ▸ howned⟩
              have hcharged := script_of_charge hcharge hscript
              exact (ending_trade_taken hcharged himage).trans (ending_trade hcharged himage).symm

/-- The calls that ask for a script or an atom, build a script or seal it, with any
references, indices and sizes. -/
inductive Call : {α : Type} → Action Heap HeapError α → Prop where
  | allocScript (extent : SourceExtent) : Call (Heap.allocScript extent)
  | atomize (bytes : Bytes) : Call (Heap.atomize bytes)
  | createThings (script : ScriptId) (count : Nat) : Call (Heap.createThings script count)
  | createAtoms (script : ScriptId) (count : Nat) : Call (Heap.createAtoms script count)
  | createImage (script : ScriptId) (codeLength noteLength : Nat) :
      Call (Heap.createImage script codeLength noteLength)
  | initThing (script : ScriptId) (index : Nat) (thing : CellRef) :
      Call (Heap.initThing script index thing)
  | initAtom (script : ScriptId) (index : Nat) (atom : AtomId) :
      Call (Heap.initAtom script index atom)
  | modifyImage (script : ScriptId) (change : ScriptImage → ScriptImage) :
      Call (Heap.modifyImage script change)
  | setFlags (script : ScriptId) (flags : ScriptFlags) : Call (Heap.setFlags script flags)
  | share (script : ScriptId) : Call (Heap.share script)
  | shareByTaking (script : ScriptId) : Call (Heap.shareByTaking script)

theorem Call.leaves {α : Type} {call : Action Heap HeapError α} (hcall : Call call)
    (h : call.ending heap = (.error error, after)) : heap.Leaves error after := by
  cases hcall with
  | allocScript extent =>
      have herror := Action.error_of_ending_bind_pure (congrArg Prod.fst h)
      have hafter := (Action.state_ending_bind_pure _ _ heap).symm.trans (congrArg Prod.snd h)
      exact leaves_of_allocate (Prod.ext herror hafter)
  | atomize bytes => exact leaves_of_atomize h
  | createThings | createAtoms | createImage => exact leaves_of_createPart h
  | initThing => exact leaves_of_storeRef (fun _ _ => Script.ofProgress_of_setThing) h
  | initAtom => exact leaves_of_storeRef (fun _ _ => Script.ofProgress_of_setAtom) h
  | modifyImage => exact leaves_of_updateScript (fun _ _ => Script.ofProgress_of_changeImage) h
  | setFlags => exact leaves_of_updateScript (fun _ _ => Script.ofProgress_of_setFlags) h
  | share script => exact leaves_of_share h
  | shareByTaking script => exact leaves_of_share ((ending_shareByTaking script heap).symm.trans h)

/-- A call that fails has done nothing, or nothing but ask for room.

Any error but a lack of memory, or a cell that is gone and was there before, is found before
anything is done. If there was no room, the attempt is counted and the heap has collected
once at most. If there was room but the cell is gone, it is that collection which has taken
it. Nothing else is different: no content, no charge, no entry of a table, no barrier. In
particular a script that owned an image and is still there owns it. -/
theorem Call.atomic {α : Type} {call : Action Heap HeapError α} (hcall : Call call)
    {heap after : Heap} {error : HeapError}
    (hfailed : call.ending heap = (.error error, after)) :
    (error ≠ .outOfMemory → (∀ id, error = .staleReference id → heap.isLive id = false) →
      after = heap) ∧
    (error = .outOfMemory → after = heap.attempted ∨ after = heap.attempted.collected) ∧
    (∀ id, error = .staleReference id → heap.isLive id = true →
      after = heap.attempted.collected ∧ ¬ heap.Reaches id ∧ after.isLive id = false) ∧
    heap.Spares after ∧
    ∀ script image, heap.ownedImage script = .ok image → after.isLive script.id = true →
      after.ownedImage script = .ok image := by
  have hleaves := hcall.leaves hfailed
  have hspares := hleaves.spares
  refine ⟨fun hmemory hstale => ?_, fun hmemory => ?_, fun id hid hlive => ?_, hspares,
    fun script image himage hlive => hspares.ownedImage himage hlive⟩
  · cases hleaves with
    | untouched _ _ => rfl
    | crowded _ => exact absurd rfl hmemory
    | swept hlive _ => simp [hstale _ rfl] at hlive
  · cases hleaves with
    | untouched hother _ => exact absurd hmemory hother
    | crowded hafter => exact hafter
    | swept _ _ => cases hmemory
  · cases hleaves with
    | untouched _ hstale => simp [hstale id hid] at hlive
    | crowded _ => cases hid
    | swept _ hlost =>
        obtain rfl := HeapError.staleReference.inj hid
        refine ⟨rfl, hlost, Bool.eq_false_of_not_eq_true fun hkept => hlost ?_⟩
        exact ((keeps_attempted heap).reaches_iff _).1 ((isLive_collected_iff _ _).1 hkept)

/-- Of two scripts with equal images only the second is rooted, and the heap collects
before every attempt. -/
def unrooted : List Request :=
  [.perform (.allocScript {}), .perform (.createImage ⟨⟨0, 0⟩⟩ 4 2),
    .perform (.allocScript {}), .perform (.createImage ⟨⟨1, 0⟩⟩ 4 2),
    .perform (.addRoot (.script ⟨⟨1, 0⟩⟩)), .perform (.setZeal true)]

/-- Sealing the script that is not rooted makes the heap collect it. The other one still
owns its image. -/
theorem Call.atomic_sweptScript :
    ∃ heap after : Heap, heap.Reachable ∧
      (Heap.share ⟨⟨0, 0⟩⟩).ending heap = (.error (.staleReference ⟨0, 0⟩), after) ∧
      after = heap.attempted.collected ∧ ¬ heap.Reaches ⟨0, 0⟩ ∧ heap.Spares after ∧
      after.ownedImage ⟨⟨1, 0⟩⟩ = .ok (.blank 4 2) := by
  have hempty : (ofLimits ⟨1000, 1000⟩).Reachable := .initial (.ofLimits _)
  have hreachable := hempty.nextAll unrooted
  have hstale : ((Heap.share ⟨⟨0, 0⟩⟩).ending
      (Request.nextAll unrooted (ofLimits ⟨1000, 1000⟩))).1 = .error (.staleReference ⟨0, 0⟩) := by
    decide +kernel
  obtain ⟨after, hfailed⟩ : ∃ after, (Heap.share ⟨⟨0, 0⟩⟩).ending
      (Request.nextAll unrooted (ofLimits ⟨1000, 1000⟩)) =
        (.error (.staleReference ⟨0, 0⟩), after) := ⟨_, Prod.ext hstale rfl⟩
  obtain ⟨_, _, hswept, hspares, himage⟩ := (Call.share ⟨⟨0, 0⟩⟩).atomic hfailed
  obtain ⟨hafter, hlost, _⟩ := hswept ⟨0, 0⟩ rfl (by decide +kernel)
  refine ⟨_, after, hreachable, hfailed, hafter, hlost, hspares, ?_⟩
  exact himage ⟨⟨1, 0⟩⟩ (.blank 4 2) (by decide +kernel) (hafter ▸ by decide +kernel)

end Heap

end ScriptLinker
