import ScriptLinker.Proofs.Draft
import ScriptLinker.Proofs.Sharing
/-!
# Who pays for a shared image

A cell is charged its own size and what belongs to it alone. The first script
that is sealed with an image is charged the shared object as well: it `Pays` for
it, and those that seal an equal image later do not. `ChargesSound` says that
every other cell is charged exactly its own bytes and that no object is paid for
twice. A payer stays one until it is swept.
-/

namespace ScriptLinker

namespace Script

/-- The size of a script with what belongs to it alone: its parts, and the image it
owns or its hold on a shared one. -/
def ownBytes (content : Script) : Nat :=
  Charge.script + content.things.elim 0 (fun slots => Charge.things slots.length) +
    content.atoms.elim 0 (fun slots => Charge.atoms slots.length) +
    match content.image with
    | .absent => 0
    | .owned image => Charge.image image.totalLength
    | .shared _ => Charge.hold

theorem Grows.ownBytes_eq {content changed : Script} {bytes : Nat}
    (h : content.Grows bytes changed) : changed.ownBytes = content.ownBytes + bytes := by
  cases h with
  | things count hmissing =>
      have hnone : content.things = none := by
        simpa [has] using ((requireMissing_eq_ok_iff _ _).1 hmissing).2
      simp only [ownBytes, hnone, Option.elim_none, Option.elim_some, List.length_replicate]
      omega
  | atoms count hmissing =>
      have hnone : content.atoms = none := by
        simpa [has] using ((requireMissing_eq_ok_iff _ _).1 hmissing).2
      simp only [ownBytes, hnone, Option.elim_none, Option.elim_some, List.length_replicate]
      omega
  | image codeLength noteLength hmissing =>
      obtain ⟨_, hhas⟩ := (requireMissing_eq_ok_iff _ _).1 hmissing
      have hnone : content.image = .absent := by
        cases himage : content.image <;> simp [has, image?, himage] at hhas ⊢
      simp only [ownBytes, hnone, ScriptImage.totalLength_blank]
      omega

theorem Stores.ownBytes_eq {content changed : Script} {ref : CellRef}
    (h : content.Stores ref changed) : changed.ownBytes = content.ownBytes := by
  cases h with
  | thing hset =>
      obtain ⟨_, slots, hslots, _, rfl⟩ := (setThing_eq_ok_iff _ _ _ _).1 hset
      simp [ownBytes, hslots]
  | atom hset =>
      obtain ⟨_, slots, hslots, _, rfl⟩ := (setAtom_eq_ok_iff _ _ _ _).1 hset
      simp [ownBytes, hslots]

theorem Edits.ownBytes_eq {content changed : Script} (h : content.Edits changed) :
    changed.ownBytes = content.ownBytes := by
  cases h with
  | flags hset =>
      obtain ⟨_, rfl⟩ := (setFlags_eq_ok_iff _ _ _).1 hset
      rfl
  | image himage hlength => simp [ownBytes, himage, hlength]

/-- Sealing trades the image that a script owns for a hold. -/
theorem ownBytes_publish {content : Script} {image : ScriptImage}
    (himage : content.image = .owned image) (object : SharedImage) :
    ownBytes { content with image := .shared object } + Charge.image image.totalLength =
      content.ownBytes + Charge.hold := by
  simp only [ownBytes, himage]
  omega

end Script

def Cell.ownBytes : Cell → Nat
  | .atom text => Charge.atom text
  | .scope _ => Charge.scope
  | .script content => content.ownBytes

/-- The size of a shared image. -/
def SharedImage.bytes (object : SharedImage) : Nat :=
  Charge.image object.image.totalLength

theorem SharedImage.bytes_pos (object : SharedImage) : 0 < object.bytes := by
  unfold bytes Charge.image
  omega

namespace Heap

variable {given : Set CellRef} {heap after : Heap} {script : ScriptId} {content changed : Script}

/-- The bytes that belong to the cell at an address alone. -/
def ownBytesAt (heap : Heap) (id : CellId) : Nat :=
  (heap.cell? id).elim 0 Cell.ownBytes

/-- A script is charged for the object that it shares, on top of its own bytes. -/
structure Pays (heap : Heap) (id : CellId) (object : SharedImage) : Prop where
  shares : heap.objectAt? id = some object
  charged : heap.bytesAt id.index = heap.ownBytesAt id + object.bytes

instance (heap : Heap) (id : CellId) (object : SharedImage) : Decidable (heap.Pays id object) :=
  decidable_of_iff (heap.objectAt? id = some object ∧
    heap.bytesAt id.index = heap.ownBytesAt id + object.bytes)
    ⟨fun h => ⟨h.1, h.2⟩, fun h => ⟨h.shares, h.charged⟩⟩

theorem Pays.isLive {id : CellId} {object : SharedImage} (h : heap.Pays id object) :
    heap.isLive id = true := by
  obtain ⟨_, hcell, _⟩ := (objectAt?_eq_some_iff _ _ _).1 h.shares
  exact (isLive_iff heap id).2 ⟨_, hcell⟩

theorem ownBytesAt_congr {id : CellId} (h : after.slots[id.index]? = heap.slots[id.index]?) :
    after.ownBytesAt id = heap.ownBytesAt id := by
  rw [ownBytesAt, cell?_congr h, ownBytesAt]

/-- Who pays is read off the slot. -/
theorem pays_congr {id : CellId} (h : after.slots[id.index]? = heap.slots[id.index]?)
    (object : SharedImage) : after.Pays id object ↔ heap.Pays id object := by
  have hobject : after.objectAt? id = heap.objectAt? id := by
    rw [objectAt?, cell?_congr h, objectAt?]
  constructor
  · rintro ⟨hshares, hcharged⟩
    exact ⟨hobject ▸ hshares, by rwa [← bytesAt_congr h, ← ownBytesAt_congr h]⟩
  · rintro ⟨hshares, hcharged⟩
    exact ⟨hobject ▸ hshares, by rwa [bytesAt_congr h, ownBytesAt_congr h]⟩

/-- Cells that pay for nothing else are charged their own bytes, and no object is
paid for twice. -/
structure ChargesSound (heap : Heap) : Prop where
  exact : ∀ id, heap.isLive id = true → (∀ object, ¬ heap.Pays id object) →
    heap.bytesAt id.index = heap.ownBytesAt id
  payer_unique : ∀ id other object, heap.Pays id object → heap.Pays other object → id = other

theorem ownBytesAt_of_script (h : heap.script script = .ok content) :
    heap.ownBytesAt script.id = content.ownBytes := by
  rw [ownBytesAt, (script_eq_ok_iff _ _ _).1 h]
  rfl

/-- A script that shares nothing is charged its own bytes. -/
theorem ChargesSound.bytesAt_script (h : heap.ChargesSound)
    (hscript : heap.script script = .ok content) (hnone : content.shared? = none) :
    heap.bytesAt script.id.index = content.ownBytes := by
  have hlive := isLive_of_script hscript
  rw [h.exact script.id hlive, ownBytesAt_of_script hscript]
  intro object hpays
  have hshares := hpays.shares
  rw [objectAt?_of_script hscript, hnone] at hshares
  simp at hshares

/-- The slots of the other live cells are left alone. -/
theorem Rewrites.slot_of_ne {recharge : Nat → Nat}
    (h : heap.Rewrites script changed recharge after) (hscript : heap.script script = .ok content)
    {id : CellId} (hlive : heap.isLive id = true) (hne : id ≠ script.id) :
    after.slots[id.index]? = heap.slots[id.index]? := by
  have hscriptLive := isLive_of_script hscript
  exact h.others fun hindex => hne (eq_of_isLive_of_index_eq hlive hscriptLive hindex)

theorem Rewrites.script_eq {recharge : Nat → Nat}
    (h : heap.Rewrites script changed recharge after)
    (hscript : heap.script script = .ok content) : after.script script = .ok changed := by
  rw [script_eq_ok_iff, h.cell? hscript, if_pos rfl]

/-- A script may be rewritten as long as it is charged its own bytes, or those and an object
that no script had before, so that nobody else pays for it. -/
theorem ChargesSound.rewrite {recharge : Nat → Nat} (h : heap.ChargesSound)
    (hrewrites : heap.Rewrites script changed recharge after)
    (hscript : heap.script script = .ok content)
    (hcharge : recharge (heap.bytesAt script.id.index) = changed.ownBytes ∨
      ∃ object, changed.shared? = some object ∧
        recharge (heap.bytesAt script.id.index) = changed.ownBytes + object.bytes ∧
        ∀ id, heap.objectAt? id ≠ some object) :
    after.ChargesSound := by
  have hbytes := hrewrites.bytesAt_eq hscript
  have hafter := hrewrites.script_eq hscript
  have hown := ownBytesAt_of_script hafter
  have hlive := hrewrites.isLive_eq hscript
  have hother : ∀ {id object}, after.Pays id object → id ≠ script.id → heap.Pays id object :=
    fun hpays hne => (pays_congr (hrewrites.slot_of_ne hscript (hlive _ ▸ hpays.isLive) hne) _).1
      hpays
  have hself : ∀ {id object}, after.Pays script.id object → after.Pays id object →
      id = script.id := by
    intro id object hscriptPays hpays
    by_contra hne
    rcases hcharge with hplain | ⟨new, hnew, _, hfresh⟩
    · have hcharged := hscriptPays.charged
      have hpos := object.bytes_pos
      rw [hbytes, hplain, hown] at hcharged
      omega
    · have hshares := hscriptPays.shares
      rw [objectAt?_of_script hafter, hnew] at hshares
      obtain rfl := Option.some.inj hshares
      exact hfresh id (hother hpays hne).shares
  refine ⟨fun id hid hnot => ?_, fun id other object hid hpays => ?_⟩
  · by_cases hne : id = script.id
    · subst hne
      rcases hcharge with hplain | ⟨new, hnew, hpaid, _⟩
      · rw [hbytes, hplain, hown]
      · refine absurd ⟨?_, ?_⟩ (hnot new)
        · rw [objectAt?_of_script hafter, hnew]
        · rw [hbytes, hpaid, hown]
    · have hslot := hrewrites.slot_of_ne hscript (hlive id ▸ hid) hne
      rw [bytesAt_congr hslot, ownBytesAt_congr hslot]
      exact h.exact id (hlive id ▸ hid) fun object hpays =>
        hnot object ((pays_congr hslot object).2 hpays)
  · by_cases hidScript : id = script.id
    · subst hidScript
      exact (hself hid hpays).symm
    · by_cases hotherScript : other = script.id
      · subst hotherScript
        exact hself hpays hid
      · exact h.payer_unique id other object (hother hid hidScript) (hother hpays hotherScript)

/-- Sealing a script: it comes to share an object that is there, for its own bytes,
or it pays for a new one. -/
theorem ChargesSound.share_cases (h : heap.ChargesSound) (hsharing : heap.SharingSound)
    {image : ScriptImage} (hscript : heap.script script = .ok content)
    (himage : content.image = .owned image) (changed : Script) :
    let shelved := (heap.charged script.id Charge.hold).shelved script image
    let own := Script.ownBytes { content with image := .shared shelved.1 }
    ((shelved.2.setScript script changed).sharedImages = heap.sharedImages ∧
        heap.sealedBytes image (heap.bytesAt script.id.index) = own) ∨
      (shelved.2.setScript script changed).sharedImages = shelved.1 :: heap.sharedImages ∧
        heap.sealedBytes image (heap.bytesAt script.id.index) = own + shelved.1.bytes ∧
        ∀ id, heap.objectAt? id ≠ some shelved.1 := by
  dsimp only
  have hbytes := h.bytesAt_script hscript (by rw [Script.shared?, himage])
  have htrade := Script.ownBytes_publish himage
    ((heap.charged script.id Charge.hold).shelved script image).1
  have hsame : (heap.charged script.id Charge.hold).sharedImage? image = heap.sharedImage? image :=
    rfl
  rw [hbytes, sealedBytes]
  cases hfound : heap.sharedImage? image with
  | some object =>
      refine Or.inl ⟨?_, by dsimp only; omega⟩
      rw [shelved, hsame, hfound]
      exact sharedImages_refund _ _ _
  | none =>
      have hshelved : (heap.charged script.id Charge.hold).shelved script image =
          ({ serial := heap.nextSerial, image },
            (heap.charged script.id Charge.hold).published image) := by
        rw [shelved, hsame, hfound]
        rfl
      rw [hshelved] at htrade ⊢
      refine Or.inr ⟨rfl, htrade.symm, fun id hid => ?_⟩
      exact (hsharing.serial_lt _ (hsharing.mem_of_objectAt? hid)).ne rfl

theorem ChargesSound.of_slots_eq (h : heap.ChargesSound) (hslots : after.slots = heap.slots) :
    after.ChargesSound := by
  have hslot : ∀ id : CellId, after.slots[id.index]? = heap.slots[id.index]? := by simp [hslots]
  refine ⟨fun id hid hnot => ?_, fun id other object hid hother => ?_⟩
  · rw [bytesAt_congr (hslot id), ownBytesAt_congr (hslot id)]
    refine h.exact id ?_ fun object hpays => hnot object ((pays_congr (hslot id) object).2 hpays)
    rwa [isLive, cell?_congr (hslot id)] at hid
  · exact h.payer_unique id other object ((pays_congr (hslot id) object).1 hid)
      ((pays_congr (hslot other) object).1 hother)

theorem ChargesSound.move (h : heap.ChargesSound) (hsharing : heap.SharingSound)
    (hmove : Move given heap after) : after.ChargesSound := by
  cases hmove with
  | @create script content changed bytes hscript _ hgrows =>
      refine h.rewrite (rewrites_create heap script changed bytes) hscript (Or.inl ?_)
      rw [h.bytesAt_script hscript (Script.Revises.shared?_eq_none (.grow hgrows)),
        hgrows.ownBytes_eq]
  | @store script content changed ref _ _ hscript hstores =>
      refine h.rewrite (rewrites_store heap script changed ref) hscript (Or.inl ?_)
      rw [id_eq, h.bytesAt_script hscript (Script.Revises.shared?_eq_none (.store hstores)),
        hstores.ownBytes_eq]
  | @edit script content changed hscript hedits =>
      refine h.rewrite (rewrites_setScript heap script changed) hscript (Or.inl ?_)
      rw [id_eq, h.bytesAt_script hscript (Script.Revises.shared?_eq_none (.edit hedits)),
        hedits.ownBytes_eq]
  | @share script content image hscript himage _ =>
      refine h.rewrite (rewrites_share hscript image _) hscript ?_
      rcases h.share_cases hsharing hscript himage content with ⟨_, hown⟩ | ⟨_, hpaid, hfresh⟩
      · exact Or.inl hown
      · exact Or.inr ⟨_, rfl, hpaid, hfresh⟩
  | _ => exact h.of_slots_eq rfl

/-- A payer is sealed, so no move touches it. -/
theorem Move.pays (hmove : Move given heap after) {id : CellId} {object : SharedImage}
    (h : heap.Pays id object) : after.Pays id object := by
  cases hmove.slotChange with
  | none hslots _ => exact (pays_congr (by rw [hslots]) object).2 h
  | @rewrite script content changed recharge hscript hrevises hslots _ _ =>
      have hne : id ≠ script.id := by
        rintro rfl
        have hshares := h.shares
        rw [objectAt?_of_script hscript, hrevises.shared?_eq_none] at hshares
        simp at hshares
      have hscriptLive := isLive_of_script hscript
      refine (pays_congr ?_ object).2 h
      rw [hslots, Array.getElem?_modify, if_neg]
      exact fun hindex => hne (eq_of_isLive_of_index_eq h.isLive hscriptLive hindex.symm)

/-- An object that a move enters into the table is paid for. -/
theorem Move.mem_or_paid (hmove : Move given heap after) (h : heap.ChargesSound)
    (hsharing : heap.SharingSound) {object : SharedImage} (hobject : object ∈ after.sharedImages) :
    object ∈ heap.sharedImages ∨ ∃ id, after.Pays id object := by
  cases hmove with
  | @share script content image hscript himage _ =>
      have hrewrites := rewrites_share hscript image { content with
        image := .shared ((heap.charged script.id Charge.hold).shelved script image).1 }
      have hafter := hrewrites.script_eq hscript
      rcases h.share_cases hsharing hscript himage { content with
        image := .shared ((heap.charged script.id Charge.hold).shelved script image).1 } with
        ⟨himages, _⟩ | ⟨himages, hpaid, _⟩
      · exact Or.inl (himages ▸ hobject)
      · rw [himages] at hobject
        rcases List.mem_cons.1 hobject with rfl | hold
        · refine Or.inr ⟨script.id, ?_, ?_⟩
          · rw [objectAt?_of_script hafter]
            rfl
          · rw [hrewrites.bytesAt_eq hscript, hpaid, ownBytesAt_of_script hafter]
        · exact Or.inl hold
  | _ => exact Or.inl hobject

/-- After a collection the payers are those that were reached. -/
theorem pays_collected_iff (heap : Heap) (id : CellId) (object : SharedImage) :
    heap.collected.Pays id object ↔ heap.Reaches id ∧ heap.Pays id object := by
  constructor
  · intro h
    have hreached := (isLive_collected_iff heap id).1 h.isLive
    exact ⟨hreached, (pays_congr (slot_collected_of_reaches hreached) object).1 h⟩
  · rintro ⟨hreached, h⟩
    exact (pays_congr (slot_collected_of_reaches hreached) object).2 h

theorem ChargesSound.collected (h : heap.ChargesSound) : heap.collected.ChargesSound := by
  refine ⟨fun id hid hnot => ?_, fun id other object hid hother => ?_⟩
  · have hreached := (isLive_collected_iff heap id).1 hid
    have hslot := slot_collected_of_reaches hreached
    rw [bytesAt_congr hslot, ownBytesAt_congr hslot]
    exact h.exact id hreached.isLive fun object hpays =>
      hnot object ((pays_congr hslot object).2 hpays)
  · exact h.payer_unique id other object ((pays_collected_iff _ _ _).1 hid).2
      ((pays_collected_iff _ _ _).1 hother).2

/-- A birth leaves the slots of the live cells alone. -/
theorem Birth.slot_of_isLive {issue : Issue} (hbirth : Birth heap issue after)
    (hslots : heap.SlotsSound) {id : CellId} (hlive : heap.isLive id = true) :
    after.slots[id.index]? = heap.slots[id.index]? := by
  obtain ⟨_, placed, hplaced, hafter⟩ := hbirth.placed hslots
  rw [hafter]
  exact hplaced.slot_of_isLive hlive

theorem Birth.pays_iff {issue : Issue} (hbirth : Birth heap issue after)
    (hslots : heap.SlotsSound) (hplain : issue.cell.shared? = none) (id : CellId)
    (object : SharedImage) : after.Pays id object ↔ heap.Pays id object := by
  have hobject := hbirth.objectAt?_eq hslots hplain id
  constructor
  · intro h
    obtain ⟨_, hcell, _⟩ := (objectAt?_eq_some_iff _ _ _).1 (hobject ▸ h.shares)
    have hlive := (isLive_iff heap id).2 ⟨_, hcell⟩
    exact (pays_congr (hbirth.slot_of_isLive hslots hlive) object).1 h
  · exact fun h => (pays_congr (hbirth.slot_of_isLive hslots h.isLive) object).2 h

/-- A new cell is charged its own bytes. -/
theorem ChargesSound.birth {issue : Issue} (h : heap.ChargesSound) (hslots : heap.SlotsSound)
    (hbirth : Birth heap issue after) (hplain : issue.cell.shared? = none)
    (hcharge : after.bytesAt issue.id.index = issue.cell.ownBytes) : after.ChargesSound := by
  have hpays := hbirth.pays_iff hslots hplain
  refine ⟨fun id hid hnot => ?_, fun id other object hid hother => ?_⟩
  · have hcell := hbirth.cell? hslots id
    by_cases hnew : id = issue.id
    · rw [if_pos hnew] at hcell
      rw [hnew, hcharge, ownBytesAt, ← hnew, hcell]
      rfl
    · rw [if_neg hnew] at hcell
      have hlive : heap.isLive id = true := by rwa [isLive, hcell] at hid
      have hslot := hbirth.slot_of_isLive hslots hlive
      rw [bytesAt_congr hslot, ownBytesAt_congr hslot]
      exact h.exact id hlive fun object hold => hnot object ((hpays id object).2 hold)
  · exact h.payer_unique id other object ((hpays id object).1 hid) ((hpays other object).1 hother)

theorem bytesAt_of_allocate {cell : Cell} {bytes : Nat} {id : CellId} (hsound : heap.Sound)
    (h : (allocate cell bytes).ending heap = (.ok id, after)) :
    after.bytesAt id.index = bytes := by
  obtain ⟨ready, hreserve, hplaces⟩ := places_of_allocate h
  exact bytesAt_of_getElem? (hplaces.placed (hsound.reserve hreserve).slots).slot

end Heap

namespace Request

variable {heap : Heap} {request : Request} {issue : Issue}

theorem ownBytes_of_asked {cell : Cell} (h : request.asked? = some cell) :
    cell.ownBytes = cell.charge := by
  cases request with
  | perform operation =>
      cases operation with
      | atomize bytes =>
          obtain ⟨text, _, rfl⟩ := Option.map_eq_some_iff.1 h
          rfl
      | allocScope | allocScript =>
          obtain rfl := Option.some.inj h
          rfl
      | _ => simp [asked?, Operation.asked?] at h
  | pushRoot | truncateRoots => simp [asked?] at h

/-- The heap after a request that placed a cell is the one that placing it led to,
but for the table of atoms. -/
theorem slots_of_born (h : request.born? heap = some issue) :
    ∃ after, (Heap.allocate issue.cell issue.cell.charge).ending heap = (.ok issue.id, after) ∧
      (request.next heap).slots = after.slots := by
  obtain ⟨cell, hasked, hplaced⟩ := Option.bind_eq_some_iff.1 h
  unfold Heap.placed? at hplaced
  split at hplaced
  · rename_i hlacks
    cases hallocate : (Heap.allocate cell cell.charge).ending heap with
    | mk result after =>
        rw [hallocate] at hplaced
        cases result with
        | error error => simp at hplaced
        | ok id =>
            obtain rfl := Option.some.inj hplaced
            refine ⟨after, hallocate, ?_⟩
            cases request with
            | perform operation =>
                cases operation with
                | allocScope kind enclosing =>
                    obtain rfl := Option.some.inj hasked
                    rw [next_allocScope]
                    exact congrArg (fun ending => ending.2.slots) hallocate
                | allocScript extent =>
                    obtain rfl := Option.some.inj hasked
                    rw [next_allocScript]
                    exact congrArg (fun ending => ending.2.slots) hallocate
                | atomize bytes =>
                    obtain ⟨text, hdecode, rfl⟩ := Option.map_eq_some_iff.1 hasked
                    have hnext : (perform (.atomize bytes)).next heap =
                        ((Heap.atomize bytes).ending heap).2 := Action.state_ending_bind_pure _ _ _
                    rw [Heap.lacks, Option.isNone_iff_eq_none] at hlacks
                    rw [Cell.charge] at hallocate
                    rw [hnext, Heap.atomize, hdecode]
                    dsimp only
                    rw [Heap.ending_intern, hlacks]
                    dsimp only
                    rw [hallocate]
                    rfl
                | _ => simp [asked?, Operation.asked?] at hasked
            | pushRoot | truncateRoots => simp [asked?] at hasked
  · simp at hplaced

end Request

namespace Heap

theorem ChargesSound.moves (h : heap.ChargesSound) (hsharing : heap.SharingSound)
    (hmoves : Moves given heap after) : after.ChargesSound :=
  (hmoves.keep (p := fun heap => heap.SharingSound ∧ heap.ChargesSound)
    (fun hboth hmove => ⟨hboth.1.move hmove, hboth.2.move hboth.1 hmove⟩) ⟨hsharing, h⟩).2

theorem ChargesSound.passage (h : heap.ChargesSound) (hsharing : heap.SharingSound)
    (hpassage : Passage given heap after) : after.ChargesSound :=
  (hpassage.keep (p := fun heap => heap.SharingSound ∧ heap.ChargesSound)
    (fun hboth hmove => ⟨hboth.1.move hmove, hboth.2.move hboth.1 hmove⟩)
    (fun hboth => ⟨hboth.1.collected, hboth.2.collected⟩) ⟨hsharing, h⟩).2

theorem ChargesSound.next (h : heap.ChargesSound) (hsound : heap.Sound)
    (hsharing : heap.SharingSound) (request : Request) : (request.next heap).ChargesSound := by
  rcases request.next_cases hsound with
    hpassage | ⟨_, issue, hborn, hpassage, hbirth⟩ | ⟨roots, free, hroots⟩
  · exact h.passage hsharing hpassage
  · have hasked := Request.asked?_of_born? hborn
    obtain ⟨after, hallocate, hslots⟩ := Request.slots_of_born hborn
    have hcharge : (request.next heap).bytesAt issue.id.index = issue.cell.ownBytes := by
      rw [Request.ownBytes_of_asked hasked, ← bytesAt_of_allocate hsound hallocate]
      exact bytesAt_congr (by rw [hslots])
    exact (h.passage hsharing hpassage).birth (hsound.passage hpassage).slots hbirth
      (Request.shared?_of_asked hasked) hcharge
  · rw [hroots]
    exact h.of_slots_eq rfl

theorem Initial.chargesSound {heap : Heap} (h : heap.Initial) : heap.ChargesSound := by
  have hdead : ∀ id, heap.isLive id = false := by
    simp [isLive, Heap.cell?, cellAt?, slotAt?, h.slots_eq]
  refine ⟨fun id hid => by simp [hdead] at hid, fun id other object hid _ => ?_⟩
  have hlive := hid.isLive
  simp [hdead] at hlive

/-- In a reachable heap every cell is charged its own bytes, and one sharer at most
the shared object. -/
theorem Reachable.chargesSound {heap : Heap} (h : heap.Reachable) : heap.ChargesSound := by
  induction h with
  | initial hinitial => exact hinitial.chargesSound
  | request request hreachable ih => exact ih.next hreachable.sound hreachable.sharingSound request

end Heap

end ScriptLinker
