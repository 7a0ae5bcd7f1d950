import ScriptLinker.Proofs.Request
/-!
# The table of shared images

`SharingSound` says that the table of shared images and the sealed scripts on the
heap agree: its entries are the objects that live scripts share, no image has two
entries, and no number names two. So sealed scripts share one object exactly if
their images are equal. `Move.reshelves` says what a move does to the table.
-/

namespace ScriptLinker

namespace Script

theorem shared?_eq_none_of_isSealed {content : Script} (h : content.isSealed = false) :
    content.shared? = none := by
  simpa [isSealed] using h

theorem shared?_eq_some_iff (content : Script) (object : SharedImage) :
    content.shared? = some object ↔ content.image = .shared object := by
  unfold shared?
  cases content.image <;> simp

/-- Only a script that shares nothing is revised. -/
theorem Revises.shared?_eq_none {content changed : Script} (h : content.Revises changed) :
    content.shared? = none := by
  cases h with
  | grow hgrows =>
      cases hgrows with
      | things _ hmissing | atoms _ hmissing | image _ _ hmissing =>
          exact shared?_eq_none_of_isSealed ((requireMissing_eq_ok_iff _ _).1 hmissing).1
  | store hstores =>
      cases hstores with
      | thing hset => exact shared?_eq_none_of_isSealed ((setThing_eq_ok_iff _ _ _ _).1 hset).1
      | atom hset => exact shared?_eq_none_of_isSealed ((setAtom_eq_ok_iff _ _ _ _).1 hset).1
  | edit hedits =>
      cases hedits with
      | flags hset => exact shared?_eq_none_of_isSealed ((setFlags_eq_ok_iff _ _ _).1 hset).1
      | image himage _ => rw [shared?, himage]
  | publish himage => rw [shared?, himage]

theorem Grows.shared?_eq {content changed : Script} {bytes : Nat}
    (h : content.Grows bytes changed) : changed.shared? = content.shared? := by
  have hnone := Revises.shared?_eq_none (.grow h)
  cases h with
  | things _ _ => rfl
  | atoms _ _ => rfl
  | image _ _ _ => exact hnone.symm

theorem Stores.shared?_eq {content changed : Script} {ref : CellRef}
    (h : content.Stores ref changed) : changed.shared? = content.shared? := by
  cases h with
  | thing hset =>
      obtain ⟨_, _, _, _, rfl⟩ := (setThing_eq_ok_iff _ _ _ _).1 hset
      rfl
  | atom hset =>
      obtain ⟨_, _, _, _, rfl⟩ := (setAtom_eq_ok_iff _ _ _ _).1 hset
      rfl

theorem Edits.shared?_eq {content changed : Script} (h : content.Edits changed) :
    changed.shared? = content.shared? := by
  have hnone := Revises.shared?_eq_none (.edit h)
  cases h with
  | flags hset =>
      obtain ⟨_, rfl⟩ := (setFlags_eq_ok_iff _ _ _).1 hset
      rfl
  | image _ _ => exact hnone.symm

end Script

namespace Heap

variable {given : Set CellRef} {heap after : Heap}

/-- The object that the script at an address shares. -/
def objectAt? (heap : Heap) (id : CellId) : Option SharedImage :=
  (heap.cell? id).bind Cell.shared?

theorem objectAt?_eq_some_iff (heap : Heap) (id : CellId) (object : SharedImage) :
    heap.objectAt? id = some object ↔
      ∃ content, heap.cell? id = some (.script content) ∧ content.image = .shared object := by
  simp only [objectAt?, Option.bind_eq_some_iff]
  constructor
  · rintro ⟨cell, hcell, hobject⟩
    cases cell with
    | script content => exact ⟨content, hcell, (Script.shared?_eq_some_iff _ _).1 hobject⟩
    | _ => simp [Cell.shared?] at hobject
  · rintro ⟨content, hcell, himage⟩
    exact ⟨_, hcell, (Script.shared?_eq_some_iff _ _).2 himage⟩

theorem objectAt?_of_script {script : ScriptId} {content : Script}
    (h : heap.script script = .ok content) : heap.objectAt? script.id = content.shared? := by
  rw [objectAt?, (script_eq_ok_iff _ _ _).1 h]
  rfl

/-- An object is shared if a script at some address shares it. -/
theorem isShared_iff (heap : Heap) (object : SharedImage) :
    heap.isShared object = true ↔ ∃ id, heap.objectAt? id = some object := by
  simp only [isShared, Array.any_eq_true, decide_eq_true_eq]
  constructor
  · rintro ⟨index, hindex, hobject⟩
    refine ⟨⟨index, heap.slots[index].generation⟩, ?_⟩
    obtain ⟨cell, hcell, hshared⟩ := Option.bind_eq_some_iff.1 hobject
    refine Option.bind_eq_some_iff.2 ⟨cell, (cellAt?_eq_some_iff _ _ _).2 ?_, hshared⟩
    exact ⟨heap.slots[index], Array.getElem?_eq_getElem hindex, rfl, hcell⟩
  · rintro ⟨id, hobject⟩
    obtain ⟨cell, hcell, hshared⟩ := Option.bind_eq_some_iff.1 hobject
    obtain ⟨slot, hslot, _, hheld⟩ := (cellAt?_eq_some_iff _ _ _).1 hcell
    obtain ⟨hindex, rfl⟩ := Array.getElem?_eq_some_iff.1 hslot
    exact ⟨id.index, hindex, by rw [hheld]; exact hshared⟩

theorem objectAt?_setScript {script : ScriptId} {content : Script}
    (h : heap.script script = .ok content) (changed : Script) (id : CellId) :
    (heap.setScript script changed).objectAt? id =
      if id = script.id then changed.shared? else heap.objectAt? id := by
  simp only [objectAt?, cell?_setScript h]
  split <;> rfl

/-- A script that shares what it shared before leaves all objects where they were. -/
theorem objectAt?_setScript_of_eq {script : ScriptId} {content changed : Script}
    (h : heap.script script = .ok content) (hshared : changed.shared? = content.shared?)
    (id : CellId) : (heap.setScript script changed).objectAt? id = heap.objectAt? id := by
  rw [objectAt?_setScript h]
  split
  · rename_i heq
    rw [heq, hshared, objectAt?_of_script h]
  · rfl

/-- What a move does to the table of shared images: nothing, or a script that
shared nothing comes to share an entry of the table, an old one or a new one. -/
inductive Reshelves (heap after : Heap) : Prop where
  | none : after.sharedImages = heap.sharedImages → after.nextSerial = heap.nextSerial →
      (∀ id, after.objectAt? id = heap.objectAt? id) → Reshelves heap after
  | reuse {script : CellId} {object : SharedImage} : heap.objectAt? script = Option.none →
      object ∈ heap.sharedImages → after.sharedImages = heap.sharedImages →
      after.nextSerial = heap.nextSerial →
      (∀ id, after.objectAt? id = if id = script then some object else heap.objectAt? id) →
      Reshelves heap after
  | publish {script : CellId} {image : ScriptImage} : heap.objectAt? script = Option.none →
      (∀ object ∈ heap.sharedImages, object.image ≠ image) →
      after.sharedImages = { serial := heap.nextSerial, image } :: heap.sharedImages →
      after.nextSerial = heap.nextSerial + 1 →
      (∀ id, after.objectAt? id =
        if id = script then some { serial := heap.nextSerial, image } else heap.objectAt? id) →
      Reshelves heap after

theorem sharedImages_refund (id : CellId) (bytes : Nat) (heap : Heap) :
    (heap.refund id bytes).sharedImages = heap.sharedImages := by
  unfold refund
  split <;> rfl

theorem nextSerial_refund (id : CellId) (bytes : Nat) (heap : Heap) :
    (heap.refund id bytes).nextSerial = heap.nextSerial := by
  unfold refund
  split <;> rfl

theorem reshelves_share {script : ScriptId} {content : Script} {image : ScriptImage}
    (hscript : heap.script script = .ok content) (himage : content.image = .owned image) :
    Reshelves heap
      (((heap.charged script.id Charge.hold).shelved script image).2.setScript script
        { content with
          image := .shared ((heap.charged script.id Charge.hold).shelved script image).1 }) := by
  have hnone : heap.objectAt? script.id = none := by
    rw [objectAt?_of_script hscript, Script.shared?, himage]
  have hcharged : (heap.charged script.id Charge.hold).script script = .ok content :=
    (script_charged _ _ _ _).trans hscript
  have hobject : ∀ id, (((heap.charged script.id Charge.hold).shelved script image).2.setScript
      script { content with
        image := .shared ((heap.charged script.id Charge.hold).shelved script image).1 }).objectAt?
        id = if id = script.id
          then some ((heap.charged script.id Charge.hold).shelved script image).1
          else heap.objectAt? id := by
    intro id
    rw [objectAt?_setScript ((script_shelved _ _ _ _).trans hcharged)]
    simp only [objectAt?, cell?_shelved, cell?_charged]
    rfl
  have hsame : (heap.charged script.id Charge.hold).sharedImage? image = heap.sharedImage? image :=
    rfl
  cases hfound : heap.sharedImage? image with
  | some object =>
      have hshelved : (heap.charged script.id Charge.hold).shelved script image =
          (object, (heap.charged script.id Charge.hold).refund script.id
            (Charge.image image.totalLength)) := by
        rw [shelved, hsame, hfound]
      rw [hshelved] at hobject ⊢
      refine .reuse hnone (List.mem_of_find?_eq_some hfound) ?_ ?_ hobject
      · exact sharedImages_refund _ _ _
      · exact nextSerial_refund _ _ _
  | none =>
      have hshelved : (heap.charged script.id Charge.hold).shelved script image =
          ({ serial := heap.nextSerial, image },
            (heap.charged script.id Charge.hold).published image) := by
        rw [shelved, hsame, hfound]
        rfl
      rw [hshelved] at hobject ⊢
      refine .publish hnone ?_ rfl rfl hobject
      simpa using List.find?_eq_none.1 hfound

theorem Move.reshelves (h : Move given heap after) : Reshelves heap after := by
  cases h with
  | @create script content changed bytes hscript _ hgrows =>
      refine .none rfl rfl fun id => ?_
      have hcharged : (heap.charged script.id bytes).script script = .ok content :=
        (script_charged _ _ _ _).trans hscript
      rw [objectAt?_setScript_of_eq hcharged hgrows.shared?_eq, objectAt?, cell?_charged, objectAt?]
  | store _ _ hscript hstores =>
      exact .none rfl rfl (objectAt?_setScript_of_eq hscript hstores.shared?_eq)
  | edit hscript hedits =>
      exact .none rfl rfl (objectAt?_setScript_of_eq hscript hedits.shared?_eq)
  | share hscript himage _ => exact reshelves_share hscript himage
  | _ => exact .none rfl rfl fun _ => rfl

/-- The table lists the objects that live scripts share, each image and each number
once. -/
structure SharingSound (heap : Heap) : Prop where
  images_nodup : (heap.sharedImages.map SharedImage.image).Nodup
  serials_nodup : (heap.sharedImages.map SharedImage.serial).Nodup
  serial_lt : ∀ object ∈ heap.sharedImages, object.serial < heap.nextSerial
  mem_iff : ∀ object, object ∈ heap.sharedImages ↔ ∃ id, heap.objectAt? id = some object

theorem sharingSound_ofLimits (limits : HeapLimits) : (ofLimits limits).SharingSound where
  images_nodup := List.nodup_nil
  serials_nodup := List.nodup_nil
  serial_lt := by simp [ofLimits]
  mem_iff := by simp [ofLimits, objectAt?, cell?, cellAt?, slotAt?]

namespace SharingSound

/-- Scripts of one image share one object. -/
theorem eq_of_image_eq (h : heap.SharingSound) {object other : SharedImage}
    (hobject : object ∈ heap.sharedImages) (hother : other ∈ heap.sharedImages)
    (himage : object.image = other.image) : object = other :=
  List.inj_on_of_nodup_map h.images_nodup hobject hother himage

theorem eq_of_serial_eq (h : heap.SharingSound) {object other : SharedImage}
    (hobject : object ∈ heap.sharedImages) (hother : other ∈ heap.sharedImages)
    (hserial : object.serial = other.serial) : object = other :=
  List.inj_on_of_nodup_map h.serials_nodup hobject hother hserial

theorem mem_of_objectAt? (h : heap.SharingSound) {id : CellId} {object : SharedImage}
    (hid : heap.objectAt? id = some object) : object ∈ heap.sharedImages :=
  (h.mem_iff object).2 ⟨id, hid⟩

theorem mem_of_script (h : heap.SharingSound) {script : ScriptId} {content : Script}
    (hscript : heap.script script = .ok content) {object : SharedImage}
    (himage : content.image = .shared object) : object ∈ heap.sharedImages :=
  h.mem_of_objectAt? <| (objectAt?_of_script hscript).trans <|
    (Script.shared?_eq_some_iff _ _).2 himage

/-- Only the table, the next number and the objects of the scripts matter. -/
theorem congr (h : heap.SharingSound) (himages : after.sharedImages = heap.sharedImages)
    (hserial : after.nextSerial = heap.nextSerial)
    (hobjects : ∀ id, after.objectAt? id = heap.objectAt? id) : after.SharingSound where
  images_nodup := himages ▸ h.images_nodup
  serials_nodup := himages ▸ h.serials_nodup
  serial_lt := by
    rw [himages, hserial]
    exact h.serial_lt
  mem_iff := fun object => by
    simp only [himages, hobjects]
    exact h.mem_iff object

/-- A script without an object can take one up without a change to any other. -/
theorem exists_objectAt?_iff {script : CellId} {object : SharedImage}
    (hnone : heap.objectAt? script = none)
    (hobjects : ∀ id, after.objectAt? id = if id = script then some object else heap.objectAt? id)
    (other : SharedImage) :
    (∃ id, after.objectAt? id = some other) ↔
      other = object ∨ ∃ id, heap.objectAt? id = some other := by
  constructor
  · rintro ⟨id, hid⟩
    rw [hobjects] at hid
    split at hid
    · exact Or.inl (Option.some.inj hid).symm
    · exact Or.inr ⟨id, hid⟩
  · rintro (rfl | ⟨id, hid⟩)
    · exact ⟨script, by rw [hobjects, if_pos rfl]⟩
    · refine ⟨id, ?_⟩
      rw [hobjects, if_neg, hid]
      rintro rfl
      simp [hnone] at hid

theorem reshelves (h : heap.SharingSound) (hreshelves : Reshelves heap after) :
    after.SharingSound := by
  cases hreshelves with
  | none himages hserial hobjects => exact h.congr himages hserial hobjects
  | reuse hnone hmem himages hserial hobjects =>
      refine ⟨himages ▸ h.images_nodup, himages ▸ h.serials_nodup, ?_, fun other => ?_⟩
      · rw [himages, hserial]
        exact h.serial_lt
      · rw [himages, exists_objectAt?_iff hnone hobjects, ← h.mem_iff]
        constructor
        · exact Or.inr
        · rintro (rfl | hold)
          · exact hmem
          · exact hold
  | publish hnone hnew himages hserial hobjects =>
      refine ⟨?_, ?_, ?_, fun other => ?_⟩
      · rw [himages, List.map_cons, List.nodup_cons]
        refine ⟨fun hmem => ?_, h.images_nodup⟩
        obtain ⟨object, hobject, heq⟩ := List.mem_map.1 hmem
        exact hnew object hobject heq
      · rw [himages, List.map_cons, List.nodup_cons]
        refine ⟨fun hmem => ?_, h.serials_nodup⟩
        obtain ⟨object, hobject, heq⟩ := List.mem_map.1 hmem
        exact (h.serial_lt object hobject).ne heq
      · rw [himages, hserial]
        intro object hobject
        rcases List.mem_cons.1 hobject with rfl | hold
        · exact Nat.lt_succ_self _
        · exact (h.serial_lt object hold).trans (Nat.lt_succ_self _)
      · rw [himages, List.mem_cons, exists_objectAt?_iff hnone hobjects, ← h.mem_iff]

theorem move (h : heap.SharingSound) (hmove : Move given heap after) : after.SharingSound :=
  h.reshelves hmove.reshelves

theorem moves (h : heap.SharingSound) (hmoves : Moves given heap after) : after.SharingSound :=
  hmoves.keep move h

theorem collected (h : heap.SharingSound) : heap.collected.SharingSound := by
  have hsub : heap.collected.sharedImages.Sublist heap.sharedImages := List.filter_sublist
  refine ⟨h.images_nodup.sublist (hsub.map _), h.serials_nodup.sublist (hsub.map _),
    fun object hobject => h.serial_lt object (hsub.subset hobject), fun object => ?_⟩
  rw [sharedImages_collected, List.mem_filter, isShared_iff]
  refine and_iff_right_of_imp ?_
  rintro ⟨id, hid⟩
  obtain ⟨content, hcell, himage⟩ := (objectAt?_eq_some_iff _ _ _).1 hid
  exact h.mem_of_objectAt?
    ((objectAt?_eq_some_iff _ _ _).2 ⟨content, cell?_of_cell?_collected hcell, himage⟩)

theorem passage (h : heap.SharingSound) (hpassage : Passage given heap after) :
    after.SharingSound :=
  hpassage.keep move collected h

end SharingSound

theorem Places.sharing_eq {cell : Cell} {bytes : Nat} {id : CellId}
    (h : heap.Places cell bytes id after) :
    after.sharedImages = heap.sharedImages ∧ after.nextSerial = heap.nextSerial := by
  obtain ⟨index, ready, hvacancy, _, _, rfl⟩ := h
  unfold vacancy? at hvacancy
  split at hvacancy
  · obtain ⟨rfl, rfl⟩ := Prod.mk.inj (Option.some.inj hvacancy)
    exact ⟨rfl, rfl⟩
  · split at hvacancy
    · obtain ⟨rfl, rfl⟩ := Prod.mk.inj (Option.some.inj hvacancy)
      exact ⟨rfl, rfl⟩
    · simp at hvacancy

theorem Birth.sharing_eq {issue : Issue} (h : Birth heap issue after) :
    after.sharedImages = heap.sharedImages ∧ after.nextSerial = heap.nextSerial := by
  cases h with
  | plain _ hplaces => exact hplaces.sharing_eq
  | atom _ hplaces => exact hplaces.sharing_eq

/-- A new cell shares nothing. -/
theorem Birth.objectAt?_eq {issue : Issue} (h : Birth heap issue after) (hslots : heap.SlotsSound)
    (hplain : issue.cell.shared? = none) (id : CellId) :
    after.objectAt? id = heap.objectAt? id := by
  simp only [objectAt?, h.cell? hslots]
  split
  · rename_i heq
    obtain ⟨_, placed, hplaced, _⟩ := h.placed hslots
    rw [heq, hplaced.not_live]
    exact hplain
  · rfl

end Heap

namespace Request

/-- A cell that is asked for shares nothing yet. -/
theorem shared?_of_asked {request : Request} {cell : Cell} (h : request.asked? = some cell) :
    cell.shared? = none := by
  cases request with
  | perform operation =>
      cases operation with
      | atomize bytes =>
          obtain ⟨text, _, rfl⟩ := Option.map_eq_some_iff.1 h
          rfl
      | allocScope | allocScript =>
          obtain rfl := Option.some.inj h
          rfl
      | _ => simp [asked?, Operation.asked?] at h
  | pushRoot | truncateRoots => simp [asked?] at h

theorem asked?_of_born? {request : Request} {heap : Heap} {issue : Issue}
    (h : request.born? heap = some issue) : request.asked? = some issue.cell := by
  obtain ⟨cell, hasked, hplaced⟩ := Option.bind_eq_some_iff.1 h
  unfold Heap.placed? at hplaced
  split at hplaced
  · split at hplaced
    · rw [hasked, ← Option.some.inj hplaced]
    · simp at hplaced
  · simp at hplaced

end Request

namespace Heap

theorem SharingSound.next {heap : Heap} (h : heap.SharingSound) (hsound : heap.Sound)
    (request : Request) : (request.next heap).SharingSound := by
  rcases request.next_cases hsound with
    hpassage | ⟨_, _, hborn, hpassage, hbirth⟩ | ⟨roots, free, hroots⟩
  · exact h.passage hpassage
  · have hplain := Request.shared?_of_asked (Request.asked?_of_born? hborn)
    exact (h.passage hpassage).congr hbirth.sharing_eq.1 hbirth.sharing_eq.2
      (hbirth.objectAt?_eq (hsound.passage hpassage).slots hplain)
  · rw [hroots]
    exact h.congr rfl rfl fun _ => rfl

theorem Initial.sharingSound {heap : Heap} (h : heap.Initial) : heap.SharingSound := by
  cases h with
  | ofLimits limits => exact sharingSound_ofLimits limits
  | @ofSettings settings heap hsettings =>
      rw [eq_of_ofSettings? hsettings]
      exact (sharingSound_ofLimits (.ofSettings settings)).congr rfl rfl fun _ => rfl

/-- In a reachable heap the table of shared images and the sealed scripts agree. -/
theorem Reachable.sharingSound {heap : Heap} (h : heap.Reachable) : heap.SharingSound := by
  induction h with
  | initial hinitial => exact hinitial.sharingSound
  | request request hreachable ih => exact ih.next hreachable.sound request

end Heap

end ScriptLinker
