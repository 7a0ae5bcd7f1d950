import ScriptLinker.Proofs.Collected
import ScriptLinker.Heap.Scope
import ScriptLinker.Heap.Script
/-!
# How heap operations end

`action.ending state` is the result of an action and the state it leaves,
without the events it notes. Every operation that can allocate is given here as
one equation over the ending of `reserve`, and `reserve` itself in closed form:
an armed failure strikes, or the heap is `readied`, which counts the attempt and
collects if it has to, and the request is met if it has room then.
-/

namespace ScriptLinker

namespace Action

variable {σ ε α β : Type}

/-- How an action ends, without the events it noted. -/
def ending (action : Action σ ε α) (state : σ) : Except ε α × σ :=
  ((action.run state).result, (action.run state).state)

theorem ending_bind (first : Action σ ε α) (next : α → Action σ ε β) (state : σ) :
    (first >>= next).ending state =
      match first.ending state with
      | (.ok value, after) => (next value).ending after
      | (.error error, after) => (.error error, after) := by
  unfold ending
  rw [run_bind]
  cases first.run state with
  | mk result after events => cases result <;> rfl

@[simp] theorem ending_pure (value : α) (state : σ) :
    (pure value : Action σ ε α).ending state = (.ok value, state) := rfl

@[simp] theorem ending_fail (error : ε) (state : σ) :
    (fail error : Action σ ε α).ending state = (.error error, state) := rfl

@[simp] theorem ending_get (state : σ) :
    (get : Action σ ε σ).ending state = (.ok state, state) := rfl

@[simp] theorem ending_set (new state : σ) :
    (set new : Action σ ε Unit).ending state = (.ok (), new) := rfl

@[simp] theorem ending_modify (change : σ → σ) (state : σ) :
    (modify change : Action σ ε Unit).ending state = (.ok (), change state) := rfl

@[simp] theorem ending_note (event : Event) (state : σ) :
    (note event : Action σ ε Unit).ending state = (.ok (), state) := rfl

@[simp] theorem ending_read (look : σ → Except ε α) (state : σ) :
    (read look).ending state = (look state, state) := rfl

@[simp] theorem ending_ofExcept (value : Except ε α) (state : σ) :
    (ofExcept value).ending state = (value, state) := rfl

/-- An action goes on from where its first step succeeded. -/
theorem ending_bind_of_ok {first : Action σ ε α} {state after : σ} {value : α}
    (h : first.ending state = (.ok value, after)) (next : α → Action σ ε β) :
    (first >>= next).ending state = (next value).ending after := by
  rw [ending_bind, h]

/-- An action ends where its first step failed. -/
theorem ending_bind_of_error {first : Action σ ε α} {state after : σ} {error : ε}
    (h : first.ending state = (.error error, after)) (next : α → Action σ ε β) :
    (first >>= next).ending state = (.error error, after) := by
  rw [ending_bind, h]

end Action

namespace Heap

@[simp] theorem ending_collect {ε : Type} (heap : Heap) :
    (collect : Action Heap ε Unit).ending heap = (.ok (), heap.collected) := rfl

theorem script_eq_ok_iff (heap : Heap) (script : ScriptId) (content : Script) :
    heap.script script = .ok content ↔ heap.cell? script.id = some (.script content) := by
  unfold Heap.script Heap.cell
  cases heap.cell? script.id with
  | none => simp [bind, Except.bind]
  | some cell => cases cell <;> simp [bind, Except.bind, pure, Except.pure, throw, throwThe,
      MonadExceptOf.throw]

theorem isLive_of_script {heap : Heap} {script : ScriptId} {content : Script}
    (h : heap.script script = .ok content) : heap.isLive script.id = true :=
  (isLive_iff _ _).2 ⟨_, (script_eq_ok_iff _ _ _).1 h⟩

theorem scope_eq_ok_iff (heap : Heap) (scope : ScopeId) (content : Scope) :
    heap.scope scope = .ok content ↔ heap.cell? scope.id = some (.scope content) := by
  unfold Heap.scope Heap.cell
  cases heap.cell? scope.id with
  | none => simp [bind, Except.bind]
  | some cell => cases cell <;> simp [bind, Except.bind, pure, Except.pure, throw, throwThe,
      MonadExceptOf.throw]

theorem atom_eq_ok_iff (heap : Heap) (atom : AtomId) (text : String) :
    heap.atom atom = .ok text ↔ heap.cell? atom.id = some (.atom text) := by
  unfold Heap.atom Heap.cell
  cases heap.cell? atom.id with
  | none => simp [bind, Except.bind]
  | some cell => cases cell <;> simp [bind, Except.bind, pure, Except.pure, throw, throwThe,
      MonadExceptOf.throw]

/-- A look-up depends on the heap only through the cell at the address. -/
theorem script_congr {heap other : Heap} {script : ScriptId}
    (h : other.cell? script.id = heap.cell? script.id) :
    other.script script = heap.script script := by
  simp only [Heap.script, Heap.cell, h]

theorem scope_congr {heap other : Heap} {scope : ScopeId}
    (h : other.cell? scope.id = heap.cell? scope.id) : other.scope scope = heap.scope scope := by
  simp only [Heap.scope, Heap.cell, h]

/-- The heap after an attempt that an armed failure struck. -/
def struck (heap : Heap) : Heap :=
  { heap.countAttempt with failureCountdown := none }

/-- The heap after an attempt that no armed failure struck. -/
def passed (heap : Heap) : Heap :=
  { heap.countAttempt with failureCountdown := heap.failureCountdown.map (· - 1) }

/-- Whether a request of `bytes` collects first. -/
def mustCollect (heap : Heap) (bytes : Nat) : Prop :=
  heap.zeal = true ∨ heap.nextThreshold < satAdd heap.usedBytes bytes

instance (heap : Heap) (bytes : Nat) : Decidable (heap.mustCollect bytes) :=
  inferInstanceAs (Decidable (_ ∨ _))

/-- The heap as a request of `bytes` finds it when it asks for room. -/
def readied (bytes : Nat) (heap : Heap) : Heap :=
  if heap.mustCollect bytes then heap.passed.collected else heap.passed

/-- Whether `bytes` more fit under the hard limit. -/
def HasRoom (heap : Heap) (bytes : Nat) : Prop :=
  satAdd heap.usedBytes bytes ≤ heap.limits.maxBytes

instance (heap : Heap) (bytes : Nat) : Decidable (heap.HasRoom bytes) :=
  inferInstanceAs (Decidable (_ ≤ _))

theorem ending_passInjection (bytes : Nat) (heap : Heap) :
    (passInjection bytes).ending heap =
      if heap.failureCountdown = some 0 then
        (.error .outOfMemory, { heap with failureCountdown := none })
      else
        (.ok (), { heap with failureCountdown := heap.failureCountdown.map (· - 1) }) := by
  unfold passInjection
  rw [Action.ending_bind, Action.ending_get]
  dsimp only
  cases hcountdown : heap.failureCountdown with
  | none =>
      simp only [Action.ending_pure, Option.map_none, reduceCtorEq, if_false]
      rw [← hcountdown]
  | some left => cases left <;> simp [Action.ending_bind]

theorem ending_collectFor (bytes : Nat) (heap : Heap) :
    (collectFor bytes).ending heap =
      (.ok (), if heap.mustCollect bytes then heap.collected else heap) := by
  unfold collectFor mustCollect
  rw [Action.ending_bind, Action.ending_get]
  dsimp only
  by_cases hzeal : heap.zeal = true
  · simp [hzeal]
  · by_cases hpast : heap.nextThreshold < satAdd heap.usedBytes bytes
    · simp [hzeal, hpast, Action.ending_bind]
    · simp [hzeal, hpast]

theorem ending_requireRoom (bytes : Nat) (heap : Heap) :
    (requireRoom bytes).ending heap =
      if heap.HasRoom bytes then (.ok (), heap) else (.error .outOfMemory, heap) := by
  unfold requireRoom HasRoom
  rw [Action.ending_bind, Action.ending_get]
  dsimp only
  by_cases hroom : satAdd heap.usedBytes bytes ≤ heap.limits.maxBytes
  · simp [hroom, Nat.not_lt.2 hroom]
  · simp [hroom, Nat.lt_of_not_le hroom, Action.ending_bind]

theorem ending_reserve (bytes : Nat) (heap : Heap) :
    (reserve bytes).ending heap =
      if heap.failureCountdown = some 0 then
        (.error .outOfMemory, heap.struck)
      else if (heap.readied bytes).HasRoom bytes then
        (.ok (), heap.readied bytes)
      else
        (.error .outOfMemory, heap.readied bytes) := by
  have hpass := ending_passInjection bytes heap.countAttempt
  have hcountdown : heap.countAttempt.failureCountdown = heap.failureCountdown := rfl
  rw [hcountdown] at hpass
  unfold reserve
  rw [Action.ending_bind_of_ok (Action.ending_modify countAttempt heap)]
  by_cases hstrike : heap.failureCountdown = some 0
  · rw [if_pos hstrike] at hpass ⊢
    exact Action.ending_bind_of_error hpass _
  · rw [if_neg hstrike] at hpass ⊢
    rw [Action.ending_bind_of_ok hpass, Action.ending_bind_of_ok (ending_collectFor _ _)]
    exact ending_requireRoom bytes (heap.readied bytes)

theorem reserve_eq_ok_iff (bytes : Nat) (heap after : Heap) :
    (reserve bytes).ending heap = (.ok (), after) ↔
      heap.failureCountdown ≠ some 0 ∧ after = heap.readied bytes ∧ after.HasRoom bytes := by
  rw [ending_reserve]
  split
  · simp_all
  · split
    · rename_i hroom
      constructor
      · rintro ⟨⟩
        exact ⟨‹_›, rfl, hroom⟩
      · rintro ⟨_, rfl, _⟩
        rfl
    · rename_i hroom
      constructor
      · rintro ⟨⟩
      · rintro ⟨_, rfl, h⟩
        exact absurd h hroom

/-- Making room fails only by running out of memory. -/
theorem error_of_reserve {bytes : Nat} {heap after : Heap} {error : HeapError}
    (h : (reserve bytes).ending heap = (.error error, after)) : error = .outOfMemory := by
  rw [ending_reserve] at h
  split at h
  · simp_all
  · split at h <;> simp_all

/-- Where a request for room leaves the heap. -/
theorem eq_of_reserve {bytes : Nat} {heap after : Heap} {result : Except HeapError Unit}
    (h : (reserve bytes).ending heap = (result, after)) :
    after = heap.struck ∨ after = heap.readied bytes := by
  rw [ending_reserve] at h
  split at h
  · exact Or.inl (Prod.mk.inj h).2.symm
  · split at h <;> exact Or.inr (Prod.mk.inj h).2.symm

/-- Making room never makes an address name another cell. -/
theorem cell?_of_cell?_reserve {bytes : Nat} {heap after : Heap} {result : Except HeapError Unit}
    (h : (reserve bytes).ending heap = (result, after)) {id : CellId} {cell : Cell}
    (hcell : after.cell? id = some cell) : heap.cell? id = some cell := by
  rcases eq_of_reserve h with rfl | rfl
  · exact hcell
  · unfold readied at hcell
    split at hcell
    · exact cell?_of_cell?_collected hcell
    · exact hcell

/-- The slot that the next cell goes to, with the heap that has it ready. -/
def vacancy? (heap : Heap) : Option (Nat × Heap) :=
  match heap.freeSlots with
  | index :: rest => some (index, { heap with freeSlots := rest })
  | [] =>
    if heap.slots.size < maxSlots then
      some (heap.slots.size, heap.grown)
    else
      none

theorem ending_place (cell : Cell) (bytes : Nat) (heap : Heap) :
    (place cell bytes).ending heap =
      match heap.vacancy? with
      | some (index, ready) => (.ok (ready.addressOf index), ready.fill index cell bytes)
      | none => (.error .outOfMemory, heap) := by
  unfold place vacancy?
  rw [Action.ending_bind, Action.ending_get]
  dsimp only
  cases heap.freeSlots with
  | cons index rest => rfl
  | nil =>
      dsimp only
      by_cases hsize : heap.slots.size < maxSlots
      · rw [if_pos hsize, if_pos hsize]
        rfl
      · rw [if_neg hsize, if_neg hsize]
        rfl

theorem ending_allocate (cell : Cell) (bytes : Nat) (heap : Heap) :
    (allocate cell bytes).ending heap =
      match (reserve bytes).ending heap with
      | (.ok (), ready) => (place cell bytes).ending ready
      | (.error error, after) => (.error error, after) := by
  unfold allocate
  rw [Action.ending_bind]
  cases (reserve bytes).ending heap with
  | mk result ready => cases result <;> rfl

/-- The heap with `bytes` more charged to a cell. -/
def charged (id : CellId) (bytes : Nat) (heap : Heap) : Heap :=
  { heap.modifySlot id.index fun slot => { slot with bytes := slot.bytes + bytes } with
    usedBytes := satAdd heap.usedBytes bytes }

theorem ending_charge (id : CellId) (bytes : Nat) (heap : Heap) :
    (charge id bytes).ending heap =
      match (reserve bytes).ending heap with
      | (.ok (), ready) =>
        if ready.isLive id then (.ok (), ready.charged id bytes)
        else (.error (.staleReference id), ready)
      | (.error error, after) => (.error error, after) := by
  unfold charge
  rw [Action.ending_bind]
  cases (reserve bytes).ending heap with
  | mk result ready =>
      cases result with
      | error error => rfl
      | ok done =>
          dsimp only
          rw [Action.ending_bind, Action.ending_read, requireLive]
          cases ready.isLive id <;> rfl

/-- Changing what a slot is charged leaves every address with its cell. -/
theorem cell?_modifySlot_bytes (heap : Heap) (index : Nat) (recharge : Nat → Nat) (id : CellId) :
    (heap.modifySlot index fun slot => { slot with bytes := recharge slot.bytes }).cell? id =
      heap.cell? id := by
  by_cases h : id.index = index
  · subst h
    simp only [cell?, cellAt?, slotAt?, modifySlot, Array.getElem?_modify, if_true]
    cases hslot : heap.slots[id.index]? with
    | none => rfl
    | some slot =>
        by_cases hgeneration : slot.generation = id.generation <;>
          simp [Option.filter, hgeneration]
  · exact cell?_modifySlot_of_ne h heap _

@[simp] theorem cell?_charged (id : CellId) (bytes : Nat) (heap : Heap) (other : CellId) :
    (heap.charged id bytes).cell? other = heap.cell? other :=
  cell?_modifySlot_bytes heap id.index (· + bytes) other

@[simp] theorem script_charged (id : CellId) (bytes : Nat) (heap : Heap) (script : ScriptId) :
    (heap.charged id bytes).script script = heap.script script :=
  script_congr (cell?_charged id bytes heap script.id)

@[simp] theorem cell?_refund (id : CellId) (bytes : Nat) (heap : Heap) (other : CellId) :
    (heap.refund id bytes).cell? other = heap.cell? other := by
  unfold refund
  split
  · rfl
  · exact cell?_modifySlot_bytes heap id.index (· - bytes) other

theorem ending_updateScript (script : ScriptId) (change : Script → Except HeapError Script)
    (heap : Heap) :
    (updateScript script change).ending heap =
      match heap.script script with
      | .ok content =>
        match change content with
        | .ok changed => (.ok (), heap.setScript script changed)
        | .error error => (.error error, heap)
      | .error error => (.error error, heap) := by
  unfold updateScript
  rw [Action.ending_bind, Action.ending_read]
  cases heap.script script with
  | error error => rfl
  | ok content =>
      dsimp only
      rw [Action.ending_bind, Action.ending_ofExcept]
      cases change content <;> rfl

/-- The script a reference named before room was made is the one it names after,
unless it is gone. -/
theorem script_of_reserve {bytes : Nat} {heap after : Heap} {result : Except HeapError Unit}
    (h : (reserve bytes).ending heap = (result, after)) {script : ScriptId} {content : Script}
    (hscript : heap.script script = .ok content) (hlive : after.isLive script.id = true) :
    after.script script = .ok content := by
  obtain ⟨cell, hcell⟩ := (isLive_iff after script.id).1 hlive
  have hold := cell?_of_cell?_reserve h hcell
  rw [script_eq_ok_iff] at hscript ⊢
  rw [hcell, ← hold, hscript]

theorem script_charged_of_reserve {bytes : Nat} {heap ready : Heap}
    {result : Except HeapError Unit} (h : (reserve bytes).ending heap = (result, ready))
    {script : ScriptId} {content : Script} (hscript : heap.script script = .ok content)
    (hlive : ready.isLive script.id = true) :
    (ready.charged script.id bytes).script script = .ok content := by
  rw [script_charged]
  exact script_of_reserve h hscript hlive

theorem ending_createPart (script : ScriptId) (part : ScriptPart) (bytes : Nat)
    (install : Script → Script) (heap : Heap) :
    (createPart script part bytes install).ending heap =
      match heap.script script with
      | .error error => (.error error, heap)
      | .ok content =>
        match content.requireMissing part with
        | .error error => (.error error, heap)
        | .ok () =>
          match (reserve bytes).ending heap with
          | (.error error, after) => (.error error, after)
          | (.ok (), ready) =>
            if ready.isLive script.id then
              (.ok (), (ready.charged script.id bytes).setScript script (install content))
            else
              (.error (.staleReference script.id), ready) := by
  unfold createPart
  rw [Action.ending_bind, Action.ending_read]
  cases hscript : heap.script script with
  | error error => rfl
  | ok content =>
      dsimp only
      rw [Action.ending_bind, Action.ending_ofExcept]
      cases content.requireMissing part with
      | error error => rfl
      | ok done =>
          dsimp only
          rw [Action.ending_bind, ending_charge]
          cases hreserve : (reserve bytes).ending heap with
          | mk result ready =>
              cases result with
              | error error => rfl
              | ok done =>
                  dsimp only
                  by_cases hlive : ready.isLive script.id = true
                  · have hcharged := script_charged_of_reserve hreserve hscript hlive
                    rw [if_pos hlive, if_pos hlive]
                    dsimp only
                    rw [ending_updateScript, hcharged]
                  · rw [if_neg hlive, if_neg hlive]

theorem ending_storeRef (script : ScriptId) (ref : CellRef)
    (install : Script → Except HeapError Script) (heap : Heap) :
    (storeRef script ref install).ending heap =
      if heap.isLive ref.id then
        match heap.script script with
        | .ok content =>
          match install content with
          | .ok changed => (.ok (), (heap.setScript script changed).recordStore script.id ref)
          | .error error => (.error error, heap)
        | .error error => (.error error, heap)
      else
        (.error (.staleReference ref.id), heap) := by
  unfold storeRef
  rw [Action.ending_bind, Action.ending_read, requireLive]
  by_cases hlive : heap.isLive ref.id = true
  · rw [if_pos hlive, if_pos hlive]
    dsimp only
    rw [Action.ending_bind, ending_updateScript]
    cases heap.script script with
    | error error => rfl
    | ok content =>
        dsimp only
        cases install content <;> rfl
  · rw [if_neg hlive, if_neg hlive]

/-- The heap with a new object for an image. -/
def published (image : ScriptImage) (heap : Heap) : Heap :=
  { heap with
    sharedImages := { serial := heap.nextSerial, image } :: heap.sharedImages
    nextSerial := heap.nextSerial + 1 }

/-- The object an image is shared as, and the heap that has it in its table. -/
def shelved (script : ScriptId) (image : ScriptImage) (heap : Heap) : SharedImage × Heap :=
  match heap.sharedImage? image with
  | some object => (object, heap.refund script.id (Charge.image image.totalLength))
  | none => ({ serial := heap.nextSerial, image }, heap.published image)

theorem ending_internImage (script : ScriptId) (image : ScriptImage) (heap : Heap) :
    (internImage script image).ending heap =
      (.ok (heap.shelved script image).1, (heap.shelved script image).2) := by
  unfold internImage shelved
  rw [Action.ending_bind, Action.ending_get]
  dsimp only
  cases heap.sharedImage? image <;> rfl

theorem cell?_shelved (script : ScriptId) (image : ScriptImage) (heap : Heap) (id : CellId) :
    (heap.shelved script image).2.cell? id = heap.cell? id := by
  unfold shelved
  cases heap.sharedImage? image with
  | some object => exact cell?_refund _ _ _ _
  | none => rfl

theorem script_shelved (script : ScriptId) (image : ScriptImage) (heap : Heap)
    (other : ScriptId) : (heap.shelved script image).2.script other = heap.script other :=
  script_congr (cell?_shelved script image heap other.id)

theorem ownedImage_eq {heap : Heap} {script : ScriptId} {content : Script}
    (h : heap.script script = .ok content) : heap.ownedImage script = content.ownedImage := by
  rw [ownedImage, h]
  rfl

/-- The image of a script is traded for the shared object. -/
theorem ending_trade {heap : Heap} {script : ScriptId} {content : Script} {image : ScriptImage}
    (hscript : heap.script script = .ok content) (himage : content.ownedImage = .ok image) :
    (do
      let image ← Action.read fun heap => heap.ownedImage script
      let object ← internImage script image
      updateScript script fun content => .ok { content with image := .shared object } :
        Action Heap HeapError Unit).ending heap =
      (.ok (), (heap.shelved script image).2.setScript script
        { content with image := .shared (heap.shelved script image).1 }) := by
  rw [Action.ending_bind, Action.ending_read, ownedImage_eq hscript, himage]
  dsimp only
  rw [Action.ending_bind, ending_internImage]
  dsimp only
  rw [ending_updateScript, script_shelved, hscript]

/-- Sealing changes nothing unless the script owns its image; then it makes
room for the hold and trades the image for the shared object. -/
theorem ending_share (script : ScriptId) (heap : Heap) :
    (share script).ending heap =
      match heap.script script with
      | .error error => (.error error, heap)
      | .ok content =>
        match content.ownedImage with
        | .error error => (.error error, heap)
        | .ok image =>
          match (reserve Charge.hold).ending heap with
          | (.error error, after) => (.error error, after)
          | (.ok (), ready) =>
            if ready.isLive script.id then
              let shelved := (ready.charged script.id Charge.hold).shelved script image
              (.ok (), shelved.2.setScript script { content with image := .shared shelved.1 })
            else
              (.error (.staleReference script.id), ready) := by
  unfold share
  rw [Action.ending_bind, Action.ending_read]
  cases hscript : heap.script script with
  | error error =>
      rw [ownedImage, hscript]
      rfl
  | ok content =>
      rw [ownedImage_eq hscript]
      dsimp only
      cases himage : content.ownedImage with
      | error error => rfl
      | ok image =>
          dsimp only
          rw [Action.ending_bind, ending_charge]
          cases hreserve : (reserve Charge.hold).ending heap with
          | mk result ready =>
              cases result with
              | error error => rfl
              | ok done =>
                  dsimp only
                  by_cases hlive : ready.isLive script.id = true
                  · have hcharged := script_charged_of_reserve hreserve hscript hlive
                    rw [if_pos hlive, if_pos hlive]
                    exact ending_trade hcharged himage
                  · rw [if_neg hlive, if_neg hlive]

theorem ending_intern (text : String) (heap : Heap) :
    (intern text).ending heap =
      match (heap.internedAtom? text).filter fun atom => heap.isLive atom.id with
      | some atom => (.ok atom, heap)
      | none =>
        match (allocate (.atom text) (Charge.atom text)).ending heap with
        | (.ok id, after) => (.ok ⟨id⟩, after.enterAtom text ⟨id⟩)
        | (.error error, after) => (.error error, after) := by
  unfold intern
  rw [Action.ending_bind, Action.ending_get]
  dsimp only
  cases (heap.internedAtom? text).filter fun atom => heap.isLive atom.id with
  | some atom => rfl
  | none =>
      dsimp only
      rw [Action.ending_bind]
      cases (allocate (.atom text) (Charge.atom text)).ending heap with
      | mk result after => cases result <;> rfl

end Heap

end ScriptLinker
