import ScriptLinker.Proofs.Charges
/-!
# The storage that a heap holds

The storage of a heap is what its cells take up, each with what belongs to it
alone, and every shared image once. The bytes in use fall short of it by the
shared images that nobody pays for. There is none as long as no collection
sweeps the payer of an image that another script goes on sharing; where one
does, the image is held from then on without being charged, and the storage can
pass the hard limit.
-/

namespace ScriptLinker.Heap

variable {given : Set CellRef} {heap after : Heap}

/-- What a heap holds: the live cells with what belongs to them alone, and every
shared image once. -/
def storage (heap : Heap) : Nat :=
  ∑ id ∈ heap.liveIds, heap.ownBytesAt id + ∑ object ∈ heap.sharedImages.toFinset, object.bytes

/-- The shared images that no script pays for. -/
def unpaid (heap : Heap) : Finset SharedImage :=
  heap.sharedImages.toFinset.filter fun object => ∀ id ∈ heap.liveIds, ¬ heap.Pays id object

theorem mem_unpaid (heap : Heap) (object : SharedImage) :
    object ∈ heap.unpaid ↔ object ∈ heap.sharedImages ∧ ∀ id, ¬ heap.Pays id object := by
  rw [unpaid, Finset.mem_filter, List.mem_toFinset]
  refine and_congr_right fun _ => ⟨fun h id hpays => ?_, fun h id _ => h id⟩
  exact h id ((mem_liveIds _ _).2 hpays.isLive) hpays

/-- A live cell is charged its own bytes and those of the object that it pays for. -/
theorem ChargesSound.bytesAt_eq (h : heap.ChargesSound) (hsharing : heap.SharingSound)
    {id : CellId} (hlive : heap.isLive id = true) :
    heap.bytesAt id.index = heap.ownBytesAt id +
      ∑ object ∈ heap.sharedImages.toFinset,
        if heap.Pays id object then object.bytes else 0 := by
  by_cases hpayer : ∃ object, heap.Pays id object
  · obtain ⟨object, hpays⟩ := hpayer
    rw [Finset.sum_eq_single object, if_pos hpays, hpays.charged]
    · intro other _ hne
      refine if_neg fun hother => hne ?_
      exact Option.some.inj (hother.shares.symm.trans hpays.shares)
    · exact fun habsent => absurd (List.mem_toFinset.2
        (hsharing.mem_of_objectAt? hpays.shares)) habsent
  · have hnot : ∀ object, ¬ heap.Pays id object := fun object hpays => hpayer ⟨object, hpays⟩
    simp [h.exact id hlive hnot, hnot]

/-- An object is paid for once, or not at all. -/
theorem ChargesSound.sum_payers (h : heap.ChargesSound) (object : SharedImage) :
    ∑ id ∈ heap.liveIds, (if heap.Pays id object then object.bytes else 0) =
      if ∀ id ∈ heap.liveIds, ¬ heap.Pays id object then 0 else object.bytes := by
  split
  · rename_i hnot
    exact Finset.sum_eq_zero fun id hid => if_neg (hnot id hid)
  · rename_i hpayer
    push Not at hpayer
    obtain ⟨id, hid, hpays⟩ := hpayer
    rw [Finset.sum_eq_single id, if_pos hpays]
    · exact fun other _ hne =>
        if_neg fun hother => hne (h.payer_unique other id object hother hpays)
    · exact fun habsent => absurd hid habsent

/-- What the live cells are charged falls short of the storage by what nobody pays for. -/
theorem ChargesSound.storage_eq (h : heap.ChargesSound) (hsharing : heap.SharingSound) :
    heap.bytesOf heap.liveIds + ∑ object ∈ heap.unpaid, object.bytes = heap.storage := by
  have hcells : heap.bytesOf heap.liveIds = ∑ id ∈ heap.liveIds, heap.ownBytesAt id +
      ∑ id ∈ heap.liveIds, ∑ object ∈ heap.sharedImages.toFinset,
        if heap.Pays id object then object.bytes else 0 := by
    rw [bytesOf, ← Finset.sum_add_distrib]
    exact Finset.sum_congr rfl fun id hid => h.bytesAt_eq hsharing ((mem_liveIds _ _).1 hid)
  have hpaid : ∑ object ∈ heap.sharedImages.toFinset,
      (if ∀ id ∈ heap.liveIds, ¬ heap.Pays id object then 0 else object.bytes) +
        ∑ object ∈ heap.unpaid, object.bytes =
      ∑ object ∈ heap.sharedImages.toFinset, object.bytes := by
    rw [unpaid, Finset.sum_filter, ← Finset.sum_add_distrib]
    refine Finset.sum_congr rfl fun object _ => ?_
    split <;> simp
  rw [hcells, Finset.sum_comm, Finset.sum_congr rfl fun object _ => h.sum_payers object, storage,
    ← hpaid, add_assoc]

theorem Moves.pays (hmoves : Moves given heap after) {id : CellId} {object : SharedImage}
    (h : heap.Pays id object) : after.Pays id object :=
  hmoves.keep (fun hpays hmove => hmove.pays hpays) h

theorem Moves.isLive_eq (hmoves : Moves given heap after) (id : CellId) :
    after.isLive id = heap.isLive id :=
  hmoves.keep (fun hsame hmove => (hmove.isLive_eq id).trans hsame) rfl

/-- An object that moves enter into the table is paid for. -/
theorem Moves.mem_or_paid (hmoves : Moves given heap after) (h : heap.ChargesSound)
    (hsharing : heap.SharingSound) {object : SharedImage} (hobject : object ∈ after.sharedImages) :
    object ∈ heap.sharedImages ∨ ∃ id, after.Pays id object := by
  induction hmoves with
  | refl => exact Or.inl hobject
  | tail hbefore hmove ih =>
      rcases hmove.mem_or_paid (h.moves hsharing hbefore) (hsharing.moves hbefore) hobject with
        hold | hpaid
      · rcases ih hold with hfirst | ⟨id, hpays⟩
        · exact Or.inl hfirst
        · exact Or.inr ⟨id, hmove.pays hpays⟩
      · exact Or.inr hpaid

/-- Where nobody pays for an object after a passage, it was in the table before,
and whoever paid for it then is gone. -/
theorem Passage.unpaid (hpassage : Passage given heap after) (h : heap.ChargesSound)
    (hsharing : heap.SharingSound) {object : SharedImage} (hobject : object ∈ after.unpaid) :
    object ∈ heap.sharedImages ∧
      ∀ id, heap.Pays id object → after.objectAt? id ≠ some object := by
  obtain ⟨hmem, hnot⟩ := (mem_unpaid _ _).1 hobject
  obtain ⟨before, between, ⟨hbefore, hslots, himages, _⟩, hcollect, hafter⟩ := hpassage
  have hcharges := h.moves hsharing hbefore
  have hshelf := hsharing.moves hbefore
  rcases hcollect with rfl | rfl
  · have hold := (hafter.mem_or_paid hcharges hshelf hmem).resolve_right fun ⟨id, hpays⟩ =>
      hnot id hpays
    exact ⟨himages ▸ hold, fun id hpays => absurd (hafter.pays (hbefore.pays hpays)) (hnot id)⟩
  · have hkept := (hafter.mem_or_paid hcharges.collected hshelf.collected hmem).resolve_right
      fun ⟨id, hpays⟩ => hnot id hpays
    have hold : object ∈ before.sharedImages := List.filter_sublist.subset hkept
    refine ⟨himages ▸ hold, fun id hpays hshares => hnot id ?_⟩
    obtain ⟨_, hcell, _⟩ := (objectAt?_eq_some_iff _ _ _).1 hshares
    have hlive := (isLive_iff after id).2 ⟨_, hcell⟩
    rw [hafter.isLive_eq, isLive_collected_iff] at hlive
    exact hafter.pays ((pays_collected_iff _ _ _).2 ⟨hlive, hbefore.pays hpays⟩)

/-- An object comes to be unpaid only by a request that sweeps its payer. -/
theorem unpaid_next (hsound : heap.Sound) (h : heap.ChargesSound) (hsharing : heap.SharingSound)
    (request : Request) {object : SharedImage} (hobject : object ∈ (request.next heap).unpaid) :
    object ∈ heap.sharedImages ∧
      ∀ id, heap.Pays id object → (request.next heap).objectAt? id ≠ some object := by
  rcases request.next_cases hsound with
    hpassage | ⟨between, issue, hborn, hpassage, hbirth⟩ | ⟨roots, free, hroots⟩
  · exact hpassage.unpaid h hsharing hobject
  · have hslots := (hsound.passage hpassage).slots
    have hplain := Request.shared?_of_asked (Request.asked?_of_born? hborn)
    have hbetween : object ∈ between.unpaid := by
      obtain ⟨hmem, hnot⟩ := (mem_unpaid _ _).1 hobject
      rw [hbirth.sharing_eq.1] at hmem
      exact (mem_unpaid _ _).2 ⟨hmem, fun id hpays =>
        hnot id ((hbirth.pays_iff hslots hplain id object).2 hpays)⟩
    obtain ⟨hold, hgone⟩ := hpassage.unpaid h hsharing hbetween
    refine ⟨hold, fun id hpays => ?_⟩
    rw [hbirth.objectAt?_eq hslots hplain]
    exact hgone id hpays
  · rw [hroots] at hobject
    obtain ⟨hmem, hnot⟩ := (mem_unpaid _ _).1 hobject
    exact ⟨hmem, fun id hpays => (hnot id ((pays_congr (by rfl) object).2 hpays)).elim⟩

/-- Whoever pays for an object that stays in the table goes on sharing it. -/
def KeepsPayers (heap after : Heap) : Prop :=
  ∀ id object, heap.Pays id object → object ∈ after.sharedImages →
    after.objectAt? id = some object

instance (heap after : Heap) : Decidable (heap.KeepsPayers after) :=
  decidable_of_iff (∀ id ∈ heap.liveIds, ∀ object ∈ after.sharedImages, heap.Pays id object →
    after.objectAt? id = some object)
    ⟨fun h id object hpays hmem => h id ((mem_liveIds _ _).2 hpays.isLive) object hmem hpays,
      fun h id _ object hmem hpays => h id object hpays hmem⟩

/-- The heaps that requests lead to from an empty one without ever sweeping the
payer of an object that another script goes on sharing. -/
inductive Funded : Heap → Prop where
  | initial {heap : Heap} : heap.Initial → Funded heap
  | request {heap : Heap} (request : Request) : Funded heap →
      heap.KeepsPayers (request.next heap) → Funded (request.next heap)

theorem Funded.reachable (h : heap.Funded) : heap.Reachable := by
  induction h with
  | initial hinitial => exact .initial hinitial
  | request request _ _ ih => exact .request request ih

/-- Whether requests keep the payers one after the other. -/
def KeepsPayersAll : List Request → Heap → Prop
  | [], _ => True
  | request :: rest, heap =>
    heap.KeepsPayers (request.next heap) ∧ KeepsPayersAll rest (request.next heap)

instance decidableKeepsPayersAll : (requests : List Request) → (heap : Heap) →
    Decidable (KeepsPayersAll requests heap)
  | [], _ => .isTrue trivial
  | request :: rest, heap =>
    have := decidableKeepsPayersAll rest (request.next heap)
    inferInstanceAs (Decidable (_ ∧ _))

theorem Funded.nextAll {requests : List Request} (h : heap.Funded)
    (hkeeps : KeepsPayersAll requests heap) : (Request.nextAll requests heap).Funded := by
  induction requests generalizing heap with
  | nil => exact h
  | cons request rest ih => exact ih (.request request h hkeeps.1) hkeeps.2

theorem Initial.sharedImages_eq (h : heap.Initial) : heap.sharedImages = [] := by
  rw [List.eq_nil_iff_forall_not_mem]
  intro object hobject
  obtain ⟨id, hid⟩ := (h.sharingSound.mem_iff object).1 hobject
  simp [objectAt?, cell?, cellAt?, slotAt?, h.slots_eq] at hid

/-- In a funded heap every shared image is paid for. -/
theorem Funded.unpaid_eq (h : heap.Funded) : heap.unpaid = ∅ := by
  induction h with
  | initial hinitial => simp [unpaid, hinitial.sharedImages_eq]
  | @request heap request hfunded hkeeps ih =>
      have hreachable := hfunded.reachable
      rw [Finset.eq_empty_iff_forall_notMem]
      intro object hobject
      obtain ⟨hold, hgone⟩ := unpaid_next hreachable.sound hreachable.chargesSound
        hreachable.sharingSound request hobject
      have hpayer : ∃ id, heap.Pays id object := by
        by_contra hnone
        have hmem : object ∈ heap.unpaid :=
          (mem_unpaid _ _).2 ⟨hold, fun id hpays => hnone ⟨id, hpays⟩⟩
        simp [ih] at hmem
      obtain ⟨id, hpays⟩ := hpayer
      exact hgone id hpays (hkeeps id object hpays ((mem_unpaid _ _).1 hobject).1)

/-- What is charged and what is held, in a reachable heap whose hard limit is not the
largest size.

A cell is charged its own bytes, or those and an object that no other cell pays for. The
bytes in use fall short of the storage by the objects that nobody pays for, and an object
comes to be one of them only by a request that sweeps its payer. Without such a request
there are none: every object is charged to one live script, and the storage is what is in
use. -/
theorem storage_accounted {heap : Heap} (h : heap.Reachable)
    (hlimit : heap.limits.maxBytes < maxSize) :
    (∀ id, heap.isLive id = true → (∀ object, ¬ heap.Pays id object) →
      heap.bytesAt id.index = heap.ownBytesAt id) ∧
    (∀ id other object, heap.Pays id object → heap.Pays other object → id = other) ∧
    heap.usedBytes + ∑ object ∈ heap.unpaid, object.bytes = heap.storage ∧
    heap.usedBytes ≤ heap.limits.maxBytes ∧
    (∀ request : Request, ∀ object ∈ (request.next heap).unpaid, object ∈ heap.unpaid ∨
      ∃ payer, heap.Pays payer object ∧ (request.next heap).objectAt? payer ≠ some object) ∧
    (heap.Funded → (∀ object ∈ heap.sharedImages, ∃! id, heap.Pays id object) ∧
      heap.usedBytes = heap.storage ∧ heap.storage ≤ heap.limits.maxBytes) := by
  have hcharges := h.chargesSound
  have hused : heap.usedBytes + ∑ object ∈ heap.unpaid, object.bytes = heap.storage := by
    rw [h.sound.usedBytes_eq hlimit]
    exact hcharges.storage_eq h.sharingSound
  refine ⟨hcharges.exact, hcharges.payer_unique, hused, h.sound.ledger.usedBytes_le, ?_, ?_⟩
  · intro request object hobject
    obtain ⟨hold, hgone⟩ := unpaid_next h.sound hcharges h.sharingSound request hobject
    by_cases hpayer : ∃ id, heap.Pays id object
    · obtain ⟨id, hpays⟩ := hpayer
      exact Or.inr ⟨id, hpays, hgone id hpays⟩
    · exact Or.inl ((mem_unpaid _ _).2 ⟨hold, fun id hpays => hpayer ⟨id, hpays⟩⟩)
  · intro hfunded
    have hnone := hfunded.unpaid_eq
    rw [hnone, Finset.sum_empty, add_zero] at hused
    refine ⟨fun object hobject => ?_, hused, hused ▸ h.sound.ledger.usedBytes_le⟩
    by_contra hnot
    have hmem : object ∈ heap.unpaid := by
      refine (mem_unpaid _ _).2 ⟨hobject, fun id hpays => hnot ⟨id, hpays, fun other hother => ?_⟩⟩
      exact hcharges.payer_unique other id object hother hpays
    simp [hnone] at hmem

/-- Two rooted scripts come to share an image of a hundred bytes. -/
def twoSharers : List Request :=
  [.perform (.allocScript {}), .perform (.addRoot (.script ⟨⟨0, 0⟩⟩)),
    .perform (.createImage ⟨⟨0, 0⟩⟩ 100 0), .perform (.share ⟨⟨0, 0⟩⟩),
    .perform (.allocScript {}), .perform (.addRoot (.script ⟨⟨1, 0⟩⟩)),
    .perform (.createImage ⟨⟨1, 0⟩⟩ 100 0), .perform (.share ⟨⟨1, 0⟩⟩)]

/-- While both scripts live, the storage is what is in use. Once the first of them
is swept, an image is held that is not charged. -/
theorem storage_accounted_twoSharers :
    ∃ heap : Heap, heap.Funded ∧ heap.limits.maxBytes < maxSize ∧
      heap.objectAt? ⟨0, 0⟩ = some ⟨0, .blank 100 0⟩ ∧
      heap.objectAt? ⟨1, 0⟩ = some ⟨0, .blank 100 0⟩ ∧
      (∃! id, heap.Pays id ⟨0, .blank 100 0⟩) ∧ heap.usedBytes = heap.storage ∧
      ∃ swept : Heap, swept.Reachable ∧ swept.limits.maxBytes < maxSize ∧
        swept = Request.nextAll [.perform (.removeRoot ⟨0⟩), .perform .collect] heap ∧
        swept.objectAt? ⟨1, 0⟩ = some ⟨0, .blank 100 0⟩ ∧ swept.usedBytes = 96 ∧
        swept.usedBytes + ∑ object ∈ swept.unpaid, object.bytes = swept.storage := by
  have hfunded : (Request.nextAll twoSharers (ofLimits ⟨488, 488⟩)).Funded :=
    Funded.nextAll (.initial (.ofLimits _)) (by decide +kernel)
  have hlimit : (Request.nextAll twoSharers (ofLimits ⟨488, 488⟩)).limits.maxBytes < maxSize := by
    decide +kernel
  obtain ⟨_, _, _, _, _, hpaid⟩ := storage_accounted hfunded.reachable hlimit
  obtain ⟨hpayers, hstorage, _⟩ := hpaid hfunded
  have hswept := hfunded.reachable.nextAll [.perform (.removeRoot ⟨0⟩), .perform .collect]
  have hlimit' : (Request.nextAll [.perform (.removeRoot ⟨0⟩), .perform .collect]
      (Request.nextAll twoSharers (ofLimits ⟨488, 488⟩))).limits.maxBytes < maxSize := by
    decide +kernel
  obtain ⟨_, _, hshort, _⟩ := storage_accounted hswept hlimit'
  exact ⟨_, hfunded, hlimit, by decide +kernel, by decide +kernel,
    hpayers _ (by decide +kernel), hstorage, _, hswept, hlimit', rfl, by decide +kernel,
    by decide +kernel, hshort⟩

/-- A shared image that no live script is charged for, in a heap that holds more than
its hard limit allows: the first of two sharers has been swept, and three scripts
have taken the room that its charge left. -/
theorem storage_past_limit :
    ∃ heap : Heap, heap.Reachable ∧ heap.limits.maxBytes = 488 ∧
      (∃ object ∈ heap.sharedImages, heap.objectAt? ⟨1, 0⟩ = some object ∧
        ∀ id, ¬ heap.Pays id object) ∧
      heap.usedBytes = 360 ∧ heap.storage = 508 := by
  have hempty : (ofLimits ⟨488, 488⟩).Reachable := .initial (.ofLimits _)
  refine ⟨_, hempty.nextAll (twoSharers ++ [.perform (.removeRoot ⟨0⟩), .perform .collect,
    .perform (.allocScript {}), .perform (.allocScript {}), .perform (.allocScript {})]),
    by decide +kernel, ⟨⟨0, .blank 100 0⟩, by decide +kernel, by decide +kernel, fun id => ?_⟩,
    by decide +kernel, by decide +kernel⟩
  exact ((mem_unpaid _ _).1 (by decide +kernel)).2 id

end ScriptLinker.Heap
