import ScriptLinker.Proofs.Charges
/-!
# The ledger balances

Every slot records what its cell is charged, and the bytes in use are the sum. Sizes
are added with saturation and taken off as far as they go, which would hide a slip in
the accounts; below the largest size neither ever happens. The ledger is written in
four places: `fill` and `charge` add what `reserve` has just found room for, `refund`
takes back the image of a script that is being sealed, and `sweep` what the swept
cells were charged. A write into an image is none of them. It may replace the image as a
whole, but has to keep the length that was charged: `unaccounted_of_replacedImage` is a
write that does not.
-/

namespace ScriptLinker

/-- A slot records the charge of its cell, and that of a sealed script may include the
object that it shares. -/
def Slot.Accounted (slot : Slot) : Prop :=
  match slot.cell with
  | none => slot.bytes = 0
  | some (.atom text) => slot.bytes = Charge.atom text
  | some (.scope _) => slot.bytes = Charge.scope
  | some (.script content) => slot.bytes = content.ownBytes ∨
      ∃ object, content.image = .shared object ∧ slot.bytes = content.ownBytes + object.bytes

/-- The slot of a script records what the script is charged by itself at least. -/
theorem Slot.Accounted.ownBytes_le {slot : Slot} {content : Script} (h : slot.Accounted)
    (hcell : slot.cell = some (.script content)) : content.ownBytes ≤ slot.bytes := by
  rw [Slot.Accounted, hcell] at h
  rcases h with hown | ⟨object, _, hpaid⟩
  · exact hown.ge
  · exact hpaid ▸ Nat.le_add_right _ _

namespace Heap

variable {heap ready after : Heap} {script : ScriptId} {content : Script} {id : CellId}
  {bytes index : Nat}

/-- The heaps that requests lead to from an empty one, and writes of any kind into the images
that scripts own, as long as they keep the length of the image. -/
inductive Written : Heap → Prop where
  | initial {heap : Heap} : heap.Initial → Written heap
  | request {heap : Heap} (request : Request) : Written heap → Written (request.next heap)
  | modifyImage {heap : Heap} {script : ScriptId} {change : ScriptImage → ScriptImage} :
      (∀ image, heap.ownedImage script = .ok image →
        (change image).totalLength = image.totalLength) →
      Written heap → Written ((Heap.modifyImage script change).ending heap).2

namespace Written

theorem nextAll (h : heap.Written) (requests : List Request) :
    (Request.nextAll requests heap).Written := by
  induction requests generalizing heap with
  | nil => exact h
  | cons request rest ih => exact ih (.request request h)

/-- A write moves nothing but the image, as a request could. -/
theorem invariants (h : heap.Written) :
    heap.Sound ∧ heap.SharingSound ∧ heap.ChargesSound := by
  induction h with
  | initial hinitial => exact ⟨hinitial.sound, hinitial.sharingSound, hinitial.chargesSound⟩
  | request request _ ih =>
      obtain ⟨hsound, hsharing, hcharges⟩ := ih
      exact ⟨Request.sound_next hsound request, hsharing.next hsound request,
        hcharges.next hsound hsharing request⟩
  | @modifyImage heap script change hlength _ ih =>
      obtain ⟨hsound, hsharing, hcharges⟩ := ih
      have hpassage : Passage ∅ heap ((Heap.modifyImage script change).ending heap).2 :=
        passage_modifyImage hlength
      exact ⟨hsound.passage hpassage, hsharing.passage hpassage,
        hcharges.passage hsharing hpassage⟩

theorem sound (h : heap.Written) : heap.Sound :=
  h.invariants.1

theorem sharingSound (h : heap.Written) : heap.SharingSound :=
  h.invariants.2.1

theorem chargesSound (h : heap.Written) : heap.ChargesSound :=
  h.invariants.2.2

end Written

theorem Written.accounted (h : heap.Written) {slot : Slot}
    (hslot : heap.slots[index]? = some slot) : slot.Accounted := by
  unfold Slot.Accounted
  cases hheld : slot.cell with
  | none => exact h.sound.slots.bytes_of_empty index slot hslot hheld
  | some cell =>
      have hgeneration : slot.generation = (heap.addressOf index).generation := by
        simp [addressOf, Array.getD_eq_getD_getElem?, hslot]
      have hcell : heap.cell? (heap.addressOf index) = some cell :=
        (cellAt?_eq_some_iff _ _ _).2 ⟨slot, hslot, hgeneration, hheld⟩
      have hown : heap.ownBytesAt (heap.addressOf index) = cell.ownBytes := by
        rw [ownBytesAt, hcell]
        rfl
      have hbytes : heap.bytesAt (heap.addressOf index).index = slot.bytes :=
        bytesAt_of_getElem? hslot
      by_cases hpayer : ∃ object, heap.Pays (heap.addressOf index) object
      · obtain ⟨object, hpays⟩ := hpayer
        obtain ⟨content, hscript, himage⟩ := (objectAt?_eq_some_iff _ _ _).1 hpays.shares
        obtain rfl := Option.some.inj (hcell.symm.trans hscript)
        have hcharged := hpays.charged
        rw [hbytes, hown] at hcharged
        exact Or.inr ⟨object, himage, hcharged⟩
      · have hexact := h.chargesSound.exact _ ((isLive_iff _ _).2 ⟨cell, hcell⟩)
          fun object hpays => hpayer ⟨object, hpays⟩
        rw [hbytes, hown] at hexact
        cases cell with
        | atom text => exact hexact
        | scope content => exact hexact
        | script content => exact Or.inl hexact

theorem Sound.bytesAt_le_usedBytes (h : heap.Sound) (hlimit : heap.limits.maxBytes < maxSize)
    (index : Nat) : heap.bytesAt index ≤ heap.usedBytes := by
  rw [h.ledger.usedBytes_eq hlimit]
  exact bytesAt_le_totalBytes heap index

/-- A comparison with the hard limit comes out as if sizes had no end. -/
theorem hasRoom_iff (hlimit : heap.limits.maxBytes < maxSize) (bytes : Nat) :
    heap.HasRoom bytes ↔ heap.usedBytes + bytes ≤ heap.limits.maxBytes := by
  unfold HasRoom satAdd
  omega

/-- So does a comparison with the threshold. -/
theorem LedgerSound.mustCollect_iff (h : heap.LedgerSound)
    (hlimit : heap.limits.maxBytes < maxSize) (bytes : Nat) :
    heap.mustCollect bytes ↔
      heap.zeal = true ∨ heap.nextThreshold < heap.usedBytes + bytes := by
  have hle := h.nextThreshold_le
  unfold mustCollect satAdd
  refine or_congr_right ?_
  omega

/-- What the heap keeps until a request has found room. -/
theorem Written.reserve (h : heap.Written)
    (hreserve : (reserve bytes).ending heap = (.ok (), ready)) :
    ready.Sound ∧ ready.ChargesSound ∧ ready.HasRoom bytes ∧ ready.limits = heap.limits := by
  have hpassage : Passage ∅ heap ready := passage_of_reserve hreserve
  obtain ⟨_, hready, hroom⟩ := (reserve_eq_ok_iff _ _ _).1 hreserve
  refine ⟨h.sound.passage hpassage, h.chargesSound.passage h.sharingSound hpassage, hroom, ?_⟩
  rw [hready, readied]
  split <;> rfl

theorem bytesAt_charged (hlive : heap.isLive id = true) (bytes : Nat) :
    (heap.charged id bytes).bytesAt id.index = heap.bytesAt id.index + bytes := by
  obtain ⟨slot, hslot, _⟩ := (isLive_iff_slot heap id).1 hlive
  have hcharged : (heap.charged id bytes).slots[id.index]? =
      some { slot with bytes := slot.bytes + bytes } := by
    simp [charged, modifySlot, Array.getElem?_modify, hslot]
  rw [bytesAt_of_getElem? hcharged, bytesAt_of_getElem? hslot]

/-- A new cell is charged in full. -/
theorem Written.allocate_exact (h : heap.Written) (hlimit : heap.limits.maxBytes < maxSize)
    {cell : Cell} (hending : (allocate cell bytes).ending heap = (.ok id, after)) :
    ∃ ready, (Heap.reserve bytes).ending heap = (.ok (), ready) ∧
      after.usedBytes = ready.usedBytes + bytes ∧ after.bytesAt id.index = bytes ∧
      after.usedBytes ≤ heap.limits.maxBytes := by
  obtain ⟨ready, hreserve, hplaces⟩ := places_of_allocate hending
  obtain ⟨hready, _, hroom, hlimits⟩ := h.reserve hreserve
  have hplaced := hplaces.placed hready.slots
  have hused := hplaced.usedBytes
  rw [satAdd_of_hasRoom hroom (hlimits ▸ hlimit)] at hused
  refine ⟨ready, hreserve, hused, bytesAt_of_getElem? hplaced.slot, ?_⟩
  rwa [hused, ← hlimits, ← hasRoom_iff (hlimits ▸ hlimit)]

/-- What a cell is charged more it is charged in full. -/
theorem Written.charge_exact (h : heap.Written) (hlimit : heap.limits.maxBytes < maxSize)
    (hending : (charge id bytes).ending heap = (.ok (), after)) :
    ∃ ready, (Heap.reserve bytes).ending heap = (.ok (), ready) ∧
      after.usedBytes = ready.usedBytes + bytes ∧
      after.bytesAt id.index = ready.bytesAt id.index + bytes ∧
      after.bytesAt id.index ≤ after.usedBytes ∧ after.usedBytes ≤ heap.limits.maxBytes := by
  rw [ending_charge] at hending
  cases hreserve : (Heap.reserve bytes).ending heap with
  | mk result ready =>
      rw [hreserve] at hending
      cases result with
      | error error => simp at hending
      | ok done =>
          dsimp only at hending
          split at hending
          · rename_i hlive
            obtain rfl := (Prod.mk.inj hending).2
            obtain ⟨hready, _, hroom, hlimits⟩ := h.reserve hreserve
            have hbelow : ready.limits.maxBytes < maxSize := hlimits ▸ hlimit
            have hused : (ready.charged id bytes).usedBytes = ready.usedBytes + bytes :=
              satAdd_of_hasRoom hroom hbelow
            have hbytes := bytesAt_charged hlive bytes
            have hle := hready.bytesAt_le_usedBytes hbelow id.index
            have hfits := (hasRoom_iff hbelow bytes).1 hroom
            rw [hlimits] at hfits
            exact ⟨ready, rfl, hused, hbytes, by omega, by omega⟩
          · simp at hending

/-- An image that is given back was charged to its script. -/
theorem Written.refund_exact (h : heap.Written) (hlimit : heap.limits.maxBytes < maxSize)
    (hscript : heap.script script = .ok content) {image : ScriptImage}
    (himage : content.image = .owned image)
    (hending : (charge script.id Charge.hold).ending heap = (.ok (), after)) :
    Charge.image image.totalLength ≤ after.bytesAt script.id.index ∧
      after.bytesAt script.id.index ≤ after.usedBytes := by
  obtain ⟨ready, hreserve, _, hbytes, hle, _⟩ := h.charge_exact hlimit hending
  refine ⟨?_, hle⟩
  have hlive : ready.isLive script.id = true := by
    rw [ending_charge, hreserve] at hending
    by_contra hnot
    simp [hnot] at hending
  obtain ⟨_, hcharges, _, _⟩ := h.reserve hreserve
  have hready := script_of_reserve hreserve hscript hlive
  rw [hbytes, hcharges.bytesAt_script hready (by rw [Script.shared?, himage])]
  simp only [Script.ownBytes, himage]
  omega

/-- The slots that a collection empties, up to any one of them, are charged no more
than what is in use. -/
theorem Sound.sweep_exact (h : heap.Sound) (hlimit : heap.limits.maxBytes < maxSize)
    {marking : Marking} {before rest : List Nat}
    (hgarbage : heap.garbage marking = before ++ index :: rest) :
    heap.bytesAt index ≤
      before.foldl (fun used index => used - heap.bytesAt index) heap.usedBytes := by
  have hfirst : before ++ [index] <+: heap.garbage marking := ⟨rest, by simp [hgarbage]⟩
  have hnodup : (before ++ [index]).Nodup := (nodup_garbage heap marking).sublist hfirst.sublist
  have hsubset : (before ++ [index]).toFinset ⊆ Finset.range heap.slots.size := by
    intro other hother
    obtain ⟨slot, hslot, _⟩ := (mem_garbage_iff heap marking other).1
      (hfirst.subset (List.mem_toFinset.1 hother))
    exact Finset.mem_range.2 (Array.getElem?_eq_some_iff.1 hslot).1
  have hsum : ((before ++ [index]).map heap.bytesAt).sum ≤ heap.usedBytes := by
    rw [h.ledger.usedBytes_eq hlimit, ← List.sum_toFinset _ hnodup]
    exact Finset.sum_le_sum_of_subset hsubset
  rw [foldl_sub_bytesAt]
  rw [List.map_append, List.sum_append, List.map_singleton, List.sum_singleton] at hsum
  omega

/-- The ledger of a heap whose hard limit is not the largest size, after any requests and any
writes that keep the length of an image.

The bytes in use are what the slots record, and stay under the hard limit. Every slot records
the charge of its cell, and one sharer at most pays for an object. Charges are added in full,
to the slot and to the bytes in use. They are taken off in full: from a script that gives its
image back when it is sealed, and from the swept cells, one after the other; a request counts
itself before it collects, which leaves the slots and the bytes in use alone. The comparisons
of a request come out as if sizes had no end, and where the sum of the one with the hard limit
saturates the request is refused. -/
theorem ledger_exact {heap : Heap} (h : heap.Written)
    (hlimit : heap.limits.maxBytes < maxSize) :
    heap.usedBytes = ∑ index ∈ Finset.range heap.slots.size, heap.bytesAt index ∧
    heap.usedBytes ≤ heap.limits.maxBytes ∧
    (∀ (index : Nat) (slot : Slot), heap.slots[index]? = some slot → slot.Accounted) ∧
    (∀ id other object, heap.Pays id object → heap.Pays other object → id = other) ∧
    (∀ cell bytes id after, (allocate cell bytes).ending heap = (.ok id, after) →
      ∃ ready, (reserve bytes).ending heap = (.ok (), ready) ∧
        after.usedBytes = ready.usedBytes + bytes ∧ after.bytesAt id.index = bytes ∧
        after.usedBytes ≤ heap.limits.maxBytes) ∧
    (∀ id bytes after, (charge id bytes).ending heap = (.ok (), after) →
      ∃ ready, (reserve bytes).ending heap = (.ok (), ready) ∧
        after.usedBytes = ready.usedBytes + bytes ∧
        after.bytesAt id.index = ready.bytesAt id.index + bytes ∧
        after.bytesAt id.index ≤ after.usedBytes ∧ after.usedBytes ≤ heap.limits.maxBytes) ∧
    (∀ (script : ScriptId) (content : Script) (image : ScriptImage) (after : Heap),
      heap.script script = .ok content → content.image = .owned image →
      (charge script.id Charge.hold).ending heap = (.ok (), after) →
      Charge.image image.totalLength ≤ after.bytesAt script.id.index ∧
        after.bytesAt script.id.index ≤ after.usedBytes) ∧
    (∀ marking before index rest, heap.garbage marking = before ++ index :: rest →
      heap.bytesAt index ≤
        before.foldl (fun used index => used - heap.bytesAt index) heap.usedBytes) ∧
    (∀ bytes, heap.mustCollect bytes ↔
      heap.zeal = true ∨ heap.nextThreshold < heap.usedBytes + bytes) ∧
    (∀ bytes, heap.HasRoom bytes ↔ heap.usedBytes + bytes ≤ heap.limits.maxBytes) ∧
    ∀ bytes ready, (reserve bytes).ending heap = (.ok (), ready) →
      satAdd ready.usedBytes bytes = ready.usedBytes + bytes := by
  refine ⟨h.sound.ledger.usedBytes_eq hlimit, h.sound.ledger.usedBytes_le,
    fun _ _ => h.accounted, h.chargesSound.payer_unique,
    fun _ _ _ _ => h.allocate_exact hlimit, fun _ _ _ => h.charge_exact hlimit,
    fun _ _ _ _ hscript himage => h.refund_exact hlimit hscript himage,
    fun _ _ _ _ => h.sound.sweep_exact hlimit,
    h.sound.ledger.mustCollect_iff hlimit, hasRoom_iff hlimit, fun bytes ready hreserve => ?_⟩
  obtain ⟨_, _, hroom, hlimits⟩ := h.reserve hreserve
  exact satAdd_of_hasRoom hroom (hlimits ▸ hlimit)

/-- A rooted script is sealed, and another one gets an image of the same size. -/
def secondSharer : List Request :=
  [.perform (.allocScript {}), .perform (.addRoot (.script ⟨⟨0, 0⟩⟩)),
    .perform (.createImage ⟨⟨0, 0⟩⟩ 100 0), .perform (.share ⟨⟨0, 0⟩⟩),
    .perform (.allocScript {}), .perform (.createImage ⟨⟨1, 0⟩⟩ 100 0)]

/-- The heap where that image has been replaced by one with more notes and less code. -/
def replacedImage : Heap :=
  ((modifyImage ⟨⟨1, 0⟩⟩ fun _ => .blank 60 40).ending
    (Request.nextAll secondSharer (ofLimits ⟨488, 488⟩))).2

/-- The second of two scripts is charged to be sealed with an image of the same length as the
one that it was given, in a heap that a script of the largest size could not enter. -/
theorem ledger_exact_secondSharer :
    replacedImage.Written ∧ replacedImage.limits.maxBytes < maxSize ∧
      replacedImage.usedBytes =
        ∑ index ∈ Finset.range replacedImage.slots.size, replacedImage.bytesAt index ∧
      (∃ slot, replacedImage.slots[1]? = some slot ∧ slot.bytes = 236 ∧ slot.Accounted) ∧
      (∃ after, (charge ⟨1, 0⟩ Charge.hold).ending replacedImage = (.ok (), after) ∧
        Charge.image 100 ≤ after.bytesAt 1 ∧ after.bytesAt 1 ≤ after.usedBytes) ∧
      ¬ replacedImage.HasRoom maxSize := by
  have hempty : (ofLimits ⟨488, 488⟩).Written := .initial (.ofLimits _)
  have howned : (Request.nextAll secondSharer (ofLimits ⟨488, 488⟩)).ownedImage ⟨⟨1, 0⟩⟩ =
      .ok (.blank 100 0) := by decide +kernel
  have hwritten : replacedImage.Written := by
    refine .modifyImage (fun image himage => ?_) (hempty.nextAll secondSharer)
    obtain rfl := Except.ok.inj (howned.symm.trans himage)
    decide +kernel
  have hlimit : replacedImage.limits.maxBytes < maxSize := by decide +kernel
  obtain ⟨hused, _, hslots, _, _, _, hrefund, _, _, hroom, _⟩ := ledger_exact hwritten hlimit
  refine ⟨hwritten, hlimit, hused, ⟨_, rfl, rfl, hslots 1 _ rfl⟩, ⟨_, rfl, ?_⟩, ?_⟩
  · exact hrefund ⟨⟨1, 0⟩⟩ { extent := {}, image := .owned (.blank 60 40) } (.blank 60 40) _
      (by decide +kernel) rfl rfl
  · exact fun hfits => absurd ((hroom _).1 hfits) (by decide +kernel)

/-- A rooted script is sealed, and another one gets an image without code and notes. -/
def blankBesideSealed : List Request :=
  [.perform (.allocScript {}), .perform (.addRoot (.script ⟨⟨0, 0⟩⟩)),
    .perform (.createImage ⟨⟨0, 0⟩⟩ 400 0), .perform (.share ⟨⟨0, 0⟩⟩),
    .perform (.allocScript {}), .perform (.createImage ⟨⟨1, 0⟩⟩ 0 0)]

/-- A write that changes the length is not charged. Where a copy of the sealed image takes
the place of the other one, the slot records less than its script is due, and when that script
is sealed the refund of 448 bytes is cut to the 144 that are there: a sealed script is left
that nothing is recorded for. -/
theorem unaccounted_of_replacedImage :
    let heap := Request.nextAll blankBesideSealed (ofLimits ⟨1000, 1000⟩)
    let copied := (modifyImage ⟨⟨1, 0⟩⟩ fun _ => .blank 400 0).ending heap
    let charged := (charge ⟨1, 0⟩ Charge.hold).ending copied.2
    let shared := (share ⟨⟨1, 0⟩⟩).ending copied.2
    heap.Reachable ∧ heap.limits.maxBytes < maxSize ∧
    (heap.script ⟨⟨0, 0⟩⟩).map Script.image? = .ok (some (.blank 400 0)) ∧
    copied.1 = .ok () ∧ (∃ slot, copied.2.slots[1]? = some slot ∧ ¬ slot.Accounted) ∧
    charged.1 = .ok () ∧ charged.2.bytesAt 1 = 144 ∧
    Charge.image (ScriptImage.blank 400 0).totalLength = 448 ∧
    shared.1 = .ok () ∧ ∃ slot, shared.2.slots[1]? = some slot ∧ slot.bytes = 0 ∧
      ¬ slot.Accounted := by
  have hempty : (ofLimits ⟨1000, 1000⟩).Reachable := .initial (.ofLimits _)
  refine ⟨hempty.nextAll blankBesideSealed, by decide +kernel, by decide +kernel,
    by decide +kernel, ⟨⟨some (.script { extent := {}, image := .owned (.blank 400 0) }), 0, 136⟩,
      by decide +kernel, fun h => ?_⟩, by decide +kernel, by decide +kernel, by decide +kernel,
    by decide +kernel,
    ⟨some (.script { extent := {}, image := .shared ⟨0, .blank 400 0⟩ }), 0, 0⟩,
    by decide +kernel, rfl, fun h => ?_⟩
  · exact absurd (h.ownBytes_le rfl) (by decide +kernel)
  · exact absurd (h.ownBytes_le rfl) (by decide +kernel)

end Heap

end ScriptLinker
