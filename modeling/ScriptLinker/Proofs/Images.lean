import ScriptLinker.Proofs.Materialization
import ScriptLinker.Proofs.Sealing
/-!
# One object for each image

On a reachable heap the table of shared images has one object for each image that a
live sealed script carries, and sealed scripts share an object exactly if their images
are equal. A script that was materialized carries the image of its descriptor for as
long as it lives, so that two of them share an object exactly if their descriptors
agree on what the image is made of.
-/

namespace ScriptLinker

namespace Heap

variable {heap after : Heap} {script left right : ScriptId} {content other : Script}

/-- A live sealed script carries the image. -/
def Carries (heap : Heap) (image : ScriptImage) : Prop :=
  ∃ script content, heap.script script = .ok content ∧ content.isSealed = true ∧
    content.image? = some image

theorem carries_iff (heap : Heap) (image : ScriptImage) :
    heap.Carries image ↔ ∃ id object, heap.objectAt? id = some object ∧ object.image = image := by
  constructor
  · rintro ⟨script, content, hscript, hsealed, himage⟩
    obtain ⟨object, hobject⟩ := (Script.isSealed_iff content).1 hsealed
    rw [Script.image?, hobject] at himage
    refine ⟨script.id, object, ?_, Option.some.inj himage⟩
    rwa [objectAt?_of_script hscript, Script.shared?_eq_some_iff]
  · rintro ⟨id, object, hid, rfl⟩
    obtain ⟨content, hcell, hobject⟩ := (objectAt?_eq_some_iff _ _ _).1 hid
    refine ⟨⟨id⟩, content, (script_eq_ok_iff _ _ _).2 hcell, ?_, ?_⟩
    · exact (Script.isSealed_iff content).2 ⟨object, hobject⟩
    · rw [Script.image?, hobject]

/-- The table lists the images that live sealed scripts carry. -/
theorem SharingSound.mem_images_iff (h : heap.SharingSound) (image : ScriptImage) :
    image ∈ heap.sharedImages.map SharedImage.image ↔ heap.Carries image := by
  simp only [carries_iff, List.mem_map, h.mem_iff]
  constructor
  · rintro ⟨object, ⟨id, hid⟩, rfl⟩
    exact ⟨id, object, hid, rfl⟩
  · rintro ⟨id, object, hid, rfl⟩
    exact ⟨object, ⟨id, hid⟩, rfl⟩

theorem SharingSound.encard_images (h : heap.SharingSound) :
    { image | heap.Carries image }.encard = heap.summary.sharedImageCount := by
  have hmem : ∀ image, image ∈ { image | heap.Carries image } ↔
      image ∈ heap.sharedImages.map SharedImage.image :=
    fun image => (h.mem_images_iff image).symm
  rw [encard_eq_length h.images_nodup hmem, List.length_map]
  rfl

/-- Live sealed scripts share an object exactly if their images are equal. -/
theorem SharingSound.shared?_eq_iff (h : heap.SharingSound) (hleft : heap.script left = .ok content)
    (hright : heap.script right = .ok other) (hsealed : content.isSealed = true)
    (hsealed' : other.isSealed = true) :
    content.shared? = other.shared? ↔ content.image? = other.image? := by
  obtain ⟨object, hobject⟩ := (Script.isSealed_iff content).1 hsealed
  obtain ⟨object', hobject'⟩ := (Script.isSealed_iff other).1 hsealed'
  have hmem := h.mem_of_script hleft hobject
  have hmem' := h.mem_of_script hright hobject'
  simp only [Script.shared?, Script.image?, hobject, hobject', Option.some_inj]
  exact ⟨congrArg _, h.eq_of_image_eq hmem hmem'⟩

/-- Comparing two sealed scripts tells whether they share an object. -/
theorem SharingSound.sameImage?_eq_iff (h : heap.SharingSound)
    (hleft : heap.script left = .ok content) (hright : heap.script right = .ok other)
    (hsealed : content.isSealed = true) (hsealed' : other.isSealed = true) :
    heap.sameImage? left right = some true ↔ content.shared? = other.shared? := by
  obtain ⟨object, hobject⟩ := (Script.isSealed_iff content).1 hsealed
  obtain ⟨object', hobject'⟩ := (Script.isSealed_iff other).1 hsealed'
  have hmem := h.mem_of_script hleft hobject
  have hmem' := h.mem_of_script hright hobject'
  rw [← Script.shared?_eq_some_iff] at hobject hobject'
  have hfound : heap.sharedObject? left = some object := by
    rw [sharedObject?, hleft]
    exact hobject
  have hfound' : heap.sharedObject? right = some object' := by
    rw [sharedObject?, hright]
    exact hobject'
  rw [sameImage?, hfound, hfound', hobject, hobject', Option.some_inj]
  refine Iff.trans ?_ ⟨h.eq_of_serial_eq hmem hmem', congrArg _⟩
  simp [bind, pure]

end Heap

/-- The image of the script that a descriptor describes. -/
def Descriptor.image (descriptor : Descriptor) : ScriptImage :=
  (Blueprint.ofDescriptor {} descriptor 0).image

/-- What the image of a descriptor is made of: the notes follow from the code, and the
slots are the fixed ones and the stack. -/
theorem Descriptor.image_eq_iff (descriptor other : Descriptor) :
    descriptor.image = other.image ↔
      descriptor.bytecode = other.bytecode ∧
        descriptor.metadata.mainOffset = other.metadata.mainOffset ∧
        descriptor.metadata.layout.maxFixedSlots = other.metadata.layout.maxFixedSlots ∧
        descriptor.metadata.layout.maximumStackDepth = other.metadata.layout.maximumStackDepth ∧
        descriptor.metadata.layout.bodyScopeIndex = other.metadata.layout.bodyScopeIndex ∧
        descriptor.metadata.layout.icEntryCount = other.metadata.layout.icEntryCount ∧
        descriptor.metadata.layout.typeSetCount = other.metadata.layout.typeSetCount := by
  simp only [image, Blueprint.ofDescriptor, ScriptImage.mk.injEq]
  constructor
  · rintro ⟨hcode, _, hmain, hfixed, hslots, hscope, hentries, htypes⟩
    rw [hfixed, UInt32.add_right_inj] at hslots
    exact ⟨hcode, hmain, hfixed, hslots, hscope, hentries, htypes⟩
  · rintro ⟨hcode, hmain, hfixed, hdepth, hscope, hentries, htypes⟩
    exact ⟨hcode, by rw [hcode], hmain, hfixed, by rw [hfixed, hdepth], hscope, hentries, htypes⟩

namespace Heap

variable {heap after : Heap} {script : ScriptId}

/-- An update that succeeds installs what the change makes of the content. -/
theorem script_of_updateScript {change : Script → Except HeapError Script} {result : Unit}
    (h : (updateScript script change).ending heap = (.ok result, after)) :
    ∃ content changed, heap.script script = .ok content ∧ change content = .ok changed ∧
      after.script script = .ok changed := by
  rw [ending_updateScript] at h
  cases hscript : heap.script script with
  | error error => simp [hscript] at h
  | ok content =>
      rw [hscript] at h
      cases hchange : change content with
      | error error => simp [hchange] at h
      | ok changed =>
          simp only [hchange] at h
          obtain rfl := (Prod.mk.inj h).2
          refine ⟨content, changed, rfl, hchange, (script_eq_ok_iff _ _ _).2 ?_⟩
          rw [cell?_setScript hscript, if_pos rfl]

/-- Sealing that succeeds leaves the script with an object of the image that it owned. -/
theorem script_of_share {result : Unit} (h : (share script).ending heap = (.ok result, after)) :
    ∃ content object, heap.script script = .ok content ∧
      content.image = .owned object.image ∧
      after.script script = .ok { content with image := .shared object } := by
  rw [ending_share] at h
  cases hscript : heap.script script with
  | error error => simp [hscript] at h
  | ok content =>
      rw [hscript] at h
      cases himage : content.ownedImage with
      | error error => simp [himage] at h
      | ok image =>
          simp only [himage] at h
          cases hreserve : (reserve Charge.hold).ending heap with
          | mk outcome ready =>
              rw [hreserve] at h
              cases outcome with
              | error error => simp at h
              | ok done =>
                  dsimp only at h
                  split at h
                  · rename_i hlive
                    obtain rfl := (Prod.mk.inj h).2
                    have hcharged := script_charged_of_reserve hreserve hscript hlive
                    refine ⟨content, ((ready.charged script.id Charge.hold).shelved script image).1,
                      rfl, ?_, (script_eq_ok_iff _ _ _).2 ?_⟩
                    · rw [image_shelved]
                      exact (Script.ownedImage_eq_ok_iff content image).1 himage
                    · rw [cell?_setScript ((script_shelved _ _ _ _).trans hcharged),
                        if_pos rfl]
                  · simp at h

/-- A script owns the image. -/
def OwnsImage (image : ScriptImage) (script : ScriptId) (heap : Heap) : Prop :=
  ∃ content, heap.script script = .ok content ∧ content.image = .owned image

/-- A script shares an object of the image. -/
def SharesImage (image : ScriptImage) (script : ScriptId) (heap : Heap) : Prop :=
  ∃ content object, heap.script script = .ok content ∧ content.image = .shared object ∧
    object.image = image

section Stages

variable {image : ScriptImage}

theorem ownsImage_of_modifyImage (script : ScriptId) (image : ScriptImage) (heap : Heap) :
    (modifyImage script fun _ => image).Ensures heap (fun _ => OwnsImage image script)
      fun _ _ => True := by
  refine Action.ensures_of_ok fun _ after hending => ?_
  obtain ⟨content, changed, _, hchange, hafter⟩ := script_of_updateScript hending
  obtain ⟨old, _, hpure⟩ := (bind_eq_ok_iff _ _ _).1 hchange
  exact ⟨changed, hafter, Except.ok.inj hpure ▸ rfl⟩

theorem OwnsImage.setFlags (h : OwnsImage image script heap) (flags : ScriptFlags) :
    (setFlags script flags).Ensures heap (fun _ => OwnsImage image script) fun _ _ => True := by
  refine Action.ensures_of_ok fun _ after hending => ?_
  obtain ⟨content, hscript, himage⟩ := h
  obtain ⟨old, changed, hold, hchange, hafter⟩ := script_of_updateScript hending
  obtain rfl := Except.ok.inj (hscript.symm.trans hold)
  obtain ⟨_, rfl⟩ := (Script.setFlags_eq_ok_iff _ _ _).1 hchange
  exact ⟨_, hafter, himage⟩

theorem OwnsImage.share (h : OwnsImage image script heap) :
    (share script).Ensures heap (fun _ => SharesImage image script) fun _ _ => True := by
  refine Action.ensures_of_ok fun _ after hending => ?_
  obtain ⟨content, hscript, himage⟩ := h
  obtain ⟨old, object, hold, howned, hafter⟩ := script_of_share hending
  obtain rfl := Except.ok.inj (hscript.symm.trans hold)
  exact ⟨_, object, hafter, rfl, ImageState.owned.inj (howned.symm.trans himage)⟩

end Stages

theorem ownsImage_of_buildImage (blueprint : Blueprint) (script : ScriptId) (heap : Heap) :
    (blueprint.buildImage script).Ensures heap (fun _ => OwnsImage blueprint.image script)
      fun _ _ => True := by
  refine (Action.ensures_any _ heap).bind fun _ created _ => Action.ensures_note_bind _ ?_
  refine (ownsImage_of_modifyImage script blueprint.image created).bind fun _ copied hcopied => ?_
  exact (hcopied.setFlags blueprint.flags).bind fun _ after hafter => Action.ensures_note _ hafter

/-- A script that was built shares an object of the image of its blueprint. The stages
before that of the image may do anything. -/
theorem sharesImage_of_build (blueprint : Blueprint) (globalScope : ScopeId) (heap : Heap) :
    (blueprint.build globalScope).Ensures heap (fun script => SharesImage blueprint.image script)
      fun _ _ => True := by
  rw [Blueprint.build_eq]
  refine ensures_withRoots ?_ (fun _ _ => id) fun _ _ => id
  refine (Action.ensures_any _ heap).bind fun script shell _ => ?_
  refine Action.ensures_modify_bind (Action.ensures_note_bind _ ?_)
  refine (Action.ensures_any _ _).bind fun _ filled _ => ?_
  refine (Action.ensures_any _ filled).bind fun _ interned _ => ?_
  refine (ownsImage_of_buildImage blueprint script interned).bind fun _ copied hcopied => ?_
  exact hcopied.share.bind fun _ after hafter => Action.ensures_note_bind _ hafter

end Heap

namespace Context

variable {context after : Context} {descriptor : Descriptor} {sourceLength : Nat}
  {script : ScriptId}

/-- A script that was materialized shares an object of the image of its descriptor. -/
theorem sharesImage_of_materialize
    (hmade : (materialize descriptor sourceLength).ending context = (.ok script, after)) :
    Heap.SharesImage descriptor.image script after.heap := by
  obtain ⟨blueprint, hblueprint, hbuilt⟩ := build_of_materialize hmade
  obtain ⟨_, rfl⟩ := (Blueprint.ofDescriptor?_eq_ok_iff _ _ _ _ _).1 hblueprint
  have hbuild := Heap.sharesImage_of_build
    (Blueprint.ofDescriptor context.options descriptor sourceLength) context.globalScope
    context.heap
  exact hbuild.of_ok hbuilt

end Context

namespace Heap

variable {heap : Heap} {script : ScriptId}

/-- The script was materialized from the descriptor and has been alive ever since,
whatever was asked of the heap in the meantime. -/
def Materialized (heap : Heap) (descriptor : Descriptor) (script : ScriptId) : Prop :=
  ∃ (context after : Context) (sourceLength : Nat) (requests : List Request),
    context.heap.Reachable ∧
      (Context.materialize descriptor sourceLength).ending context = (.ok script, after) ∧
      AliveAlong script.id requests after.heap ∧ heap = Request.nextAll requests after.heap

section Materialized

variable {context after : Context} {descriptor : Descriptor} {sourceLength : Nat}

theorem Reachable.materialize (h : context.heap.Reachable)
    (hmade : (Context.materialize descriptor sourceLength).ending context = (.ok script, after)) :
    after.heap.Reachable := by
  obtain ⟨requests, hafter⟩ :=
    Context.exists_requests_of_materialize context descriptor sourceLength
  rw [hmade] at hafter
  exact hafter ▸ h.nextAll requests

theorem Materialized.sharesImage (h : heap.Materialized descriptor script) :
    SharesImage descriptor.image script heap := by
  obtain ⟨context, after, sourceLength, requests, hreachable, hmade, halive, rfl⟩ := h
  obtain ⟨content, object, hscript, hobject, himage⟩ := Context.sharesImage_of_materialize hmade
  have hsealed := (Script.isSealed_iff content).2 ⟨object, hobject⟩
  have hkept := halive.script_eq (hreachable.materialize hmade).sound hscript hsealed
  exact ⟨content, object, hkept, hobject, himage⟩

/-- Before generations start over, a script that was materialized and is found alive has
been so ever since. -/
theorem materialized_of_isLive {requests : List Request} (h : context.heap.Reachable)
    (hmade : (Context.materialize descriptor sourceLength).ending context = (.ok script, after))
    (hruns : (Request.nextAll requests after.heap).stats.gcRuns < UInt32.size)
    (hlive : (Request.nextAll requests after.heap).isLive script.id = true) :
    (Request.nextAll requests after.heap).Materialized descriptor script := by
  obtain ⟨content, _, hscript, _⟩ := Context.sharesImage_of_materialize hmade
  exact ⟨context, after, sourceLength, requests, h, hmade,
    .of_isLive (h.materialize hmade) hruns (isLive_of_script hscript) hlive, rfl⟩

end Materialized

/-- The table of shared images of a reachable heap, and which scripts share an object.

The table has one entry for each image that a live sealed script carries, and live sealed
scripts hold the same object if their images are equal. A materialization on the heap leads
to a reachable heap again, by requests, and a script that was materialized on a reachable
heap and is found alive has not been swept, as long as no slot can have started over. Two
scripts that were materialized and live share an object exactly if their descriptors agree
on the code and its numbers. -/
theorem images_exact {heap : Heap} (h : heap.Reachable) :
    (heap.sharedImages.map SharedImage.image).Nodup ∧
    (∀ image, image ∈ heap.sharedImages.map SharedImage.image ↔ heap.Carries image) ∧
    { image | heap.Carries image }.encard = heap.summary.sharedImageCount ∧
    (∀ left right content other, heap.script left = .ok content → heap.script right = .ok other →
      content.isSealed = true → other.isSealed = true →
      (content.shared? = other.shared? ↔ content.image? = other.image?) ∧
        (heap.sameImage? left right = some true ↔ content.image? = other.image?)) ∧
    (∀ context descriptor sourceLength, context.heap = heap → ∃ requests,
      ((Context.materialize descriptor sourceLength).ending context).2.heap =
        Request.nextAll requests heap) ∧
    (∀ context descriptor sourceLength script after requests, context.heap.Reachable →
      (Context.materialize descriptor sourceLength).ending context = (.ok script, after) →
      heap = Request.nextAll requests after.heap → heap.stats.gcRuns < UInt32.size →
      heap.isLive script.id = true → heap.Materialized descriptor script) ∧
    ∀ left right descriptor other,
      heap.Materialized descriptor left → heap.Materialized other right →
      (heap.sameImage? left right = some true ↔
        descriptor.bytecode = other.bytecode ∧
          descriptor.metadata.mainOffset = other.metadata.mainOffset ∧
          descriptor.metadata.layout.maxFixedSlots = other.metadata.layout.maxFixedSlots ∧
          descriptor.metadata.layout.maximumStackDepth =
            other.metadata.layout.maximumStackDepth ∧
          descriptor.metadata.layout.bodyScopeIndex = other.metadata.layout.bodyScopeIndex ∧
          descriptor.metadata.layout.icEntryCount = other.metadata.layout.icEntryCount ∧
          descriptor.metadata.layout.typeSetCount = other.metadata.layout.typeSetCount) := by
  have hsharing := h.sharingSound
  have hsame : ∀ left right content other, heap.script left = .ok content →
      heap.script right = .ok other → content.isSealed = true → other.isSealed = true →
      (heap.sameImage? left right = some true ↔ content.image? = other.image?) :=
    fun left right content other hleft hright hsealed hsealed' =>
      (hsharing.sameImage?_eq_iff hleft hright hsealed hsealed').trans
        (hsharing.shared?_eq_iff hleft hright hsealed hsealed')
  refine ⟨hsharing.images_nodup, hsharing.mem_images_iff, hsharing.encard_images, ?_, ?_, ?_, ?_⟩
  · intro left right content other hleft hright hsealed hsealed'
    exact ⟨hsharing.shared?_eq_iff hleft hright hsealed hsealed',
      hsame left right content other hleft hright hsealed hsealed'⟩
  · rintro context descriptor sourceLength rfl
    exact context.exists_requests_of_materialize descriptor sourceLength
  · rintro context descriptor sourceLength script after requests hreachable hmade rfl hruns hlive
    exact materialized_of_isLive hreachable hmade hruns hlive
  · intro left right descriptor other hleft hright
    obtain ⟨content, object, hscript, hobject, himage⟩ := hleft.sharesImage
    obtain ⟨content', object', hscript', hobject', himage'⟩ := hright.sharesImage
    have hsealed := (Script.isSealed_iff content).2 ⟨object, hobject⟩
    have hsealed' := (Script.isSealed_iff content').2 ⟨object', hobject'⟩
    rw [hsame left right content content' hscript hscript' hsealed hsealed',
      ← Descriptor.image_eq_iff, Script.image?, Script.image?, hobject, hobject', ← himage,
      ← himage', Option.some_inj]

/-- A descriptor of one byte of code with one string. -/
def plain : Descriptor := { revision := .metadata, bytecode := [153], strings := [[120]] }

/-- One of the same code with other strings, a flag and another position. -/
def dressed : Descriptor :=
  { revision := .flags, bytecode := [153], strings := [[121], [122]],
    metadata := { lineno := 7 }, flags := { strict := true } }

/-- The context of the default configuration. -/
def opened : Context :=
  ((Context.ofConfig? {}).toOption.get
    (rfl : (Context.ofConfig? {}).toOption.isSome = true)).1

/-- What is asked of the heap after the first descriptor was materialized. -/
def rooting : List Request :=
  [.perform (.addRoot (.script ⟨⟨1, 0⟩⟩)), .perform .collect]

/-- The context in which the second descriptor is materialized. -/
def rooted : Context :=
  { opened with
    heap := Request.nextAll rooting ((Context.materialize plain 3).ending opened).2.heap }

/-- What is asked of the heap when the second descriptor is materialized. -/
def dressing : List Request :=
  [.perform (.allocScript (.ofSource 5 7 0)), .pushRoot (.script ⟨⟨3, 0⟩⟩),
    .perform (.createThings ⟨⟨3, 0⟩⟩ 1), .perform (.fillThings ⟨⟨3, 0⟩⟩ ⟨⟨0, 0⟩⟩),
    .perform (.createAtoms ⟨⟨3, 0⟩⟩ 2), .perform (.atomize [121]),
    .perform (.initAtom ⟨⟨3, 0⟩⟩ 0 ⟨⟨4, 0⟩⟩), .perform (.atomize [122]),
    .perform (.initAtom ⟨⟨3, 0⟩⟩ 1 ⟨⟨5, 0⟩⟩), .perform (.createImage ⟨⟨3, 0⟩⟩ 1 2),
    .perform (.patchImage ⟨⟨3, 0⟩⟩ (.ofImage dressed.image)),
    .perform (.setFlags ⟨⟨3, 0⟩⟩ { strict := true }), .perform (.share ⟨⟨3, 0⟩⟩), .truncateRoots 0]

/-- The first script is rooted, the heap collects, and the second script is materialized
with the object of the first. -/
theorem images_exact_twoDescriptors :
    ∃ heap : Heap, heap.Reachable ∧ heap.Materialized plain ⟨⟨1, 0⟩⟩ ∧
      heap.Materialized dressed ⟨⟨3, 0⟩⟩ ∧ plain.strings ≠ dressed.strings ∧
      plain.flags ≠ dressed.flags ∧ heap.sameImage? ⟨⟨1, 0⟩⟩ ⟨⟨3, 0⟩⟩ = some true ∧
      heap.summary.sharedImageCount = 1 := by
  have hopened : opened.heap.Reachable := (Context.reachable_of_isSome rfl).heap_reachable
  have hrooted : rooted.heap.Reachable := by
    obtain ⟨requests, hrequests⟩ := opened.exists_requests_of_materialize plain 3
    rw [rooted, hrequests]
    exact (hopened.nextAll requests).nextAll rooting
  have hmade : ((Context.materialize plain 3).ending opened).1 = .ok ⟨⟨1, 0⟩⟩ := by decide +kernel
  have hmade' : (Context.materialize dressed 5).ending rooted =
      (.ok ⟨⟨3, 0⟩⟩, { rooted with heap := Request.nextAll dressing rooted.heap }) := by
    decide +kernel
  have hplain : (Request.nextAll dressing rooted.heap).Materialized plain ⟨⟨1, 0⟩⟩ :=
    ⟨opened, _, 3, rooting ++ dressing, hopened, Prod.ext hmade rfl, by decide +kernel,
      (Request.nextAll_append rooting dressing _).symm⟩
  have hdressed : (Request.nextAll dressing rooted.heap).Materialized dressed ⟨⟨3, 0⟩⟩ :=
    ⟨rooted, _, 5, [], hrooted, hmade', by decide +kernel, (Request.nextAll_nil _).symm⟩
  have hreachable := hrooted.nextAll dressing
  obtain ⟨_, _, _, _, _, _, hsame⟩ := images_exact hreachable
  exact ⟨_, hreachable, hplain, hdressed, by decide, by decide,
    (hsame _ _ _ _ hplain hdressed).2 (by decide), by decide +kernel⟩

end Heap

end ScriptLinker
