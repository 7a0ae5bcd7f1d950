import ScriptLinker.Proofs.Collection
/-!
# Addresses and the cells they were issued for

`Coherent issued heap` ties a heap to the list of all cells ever placed on it:
no address occurs twice, an address of the current generation of its slot names
what has become of its cell, every live address is in the list, and so is every
reference that the heap holds. Moves, births and changes of the roots keep the
tie, and so does a collection by which no generation wraps.
-/

namespace ScriptLinker

/-- What can become of a cell that stays in its place: atoms and scopes are as
they were, scripts are revised. -/
inductive Cell.Continues : Cell → Cell → Prop where
  | atom (text : String) : Continues (.atom text) (.atom text)
  | scope (content : Scope) : Continues (.scope content) (.scope content)
  | script {content changed : Script} : Relation.ReflTransGen Script.Revises content changed →
      Continues (.script content) (.script changed)

namespace Cell

theorem Continues.refl (cell : Cell) : cell.Continues cell := by
  cases cell with
  | atom text => exact .atom text
  | scope content => exact .scope content
  | script content => exact .script .refl

theorem Continues.kind_eq {first last : Cell} (h : first.Continues last) :
    last.kind = first.kind := by
  cases h <;> rfl

theorem Continues.revises {first : Cell} {content changed : Script}
    (h : first.Continues (.script content)) (hrevises : content.Revises changed) :
    first.Continues (.script changed) := by
  cases h with
  | script hrun => exact .script (hrun.tail hrevises)

end Cell

/-- The references that cells were handed out as. -/
def Issue.refs (issued : List Issue) : Set CellRef :=
  { ref | ∃ issue ∈ issued, issue.ref = ref }

namespace Heap

/-- Whether the heap holds a reference: in a root, in a cell or in the store
buffer. -/
def Holds (heap : Heap) (ref : CellRef) : Prop :=
  ref ∈ heap.roots ∨ (∃ id, heap.Edge id ref) ∨ ∃ owner, (owner, ref) ∈ heap.storeBuffer

/-- The generation of a slot. -/
def generationAt (heap : Heap) (index : Nat) : Nat :=
  (heap.addressOf index).generation

theorem generationAt_of_getElem? {heap : Heap} {index : Nat} {slot : Slot}
    (h : heap.slots[index]? = some slot) : heap.generationAt index = slot.generation := by
  simp [generationAt, addressOf, Array.getD_eq_getD_getElem?, h]

theorem generationAt_congr {heap other : Heap} {index : Nat}
    (h : other.slots[index]? = heap.slots[index]?) :
    other.generationAt index = heap.generationAt index := by
  simp only [generationAt, addressOf, Array.getD_eq_getD_getElem?, h]

theorem generationAt_of_isLive {heap : Heap} {id : CellId} (h : heap.isLive id = true) :
    heap.generationAt id.index = id.generation := by
  rw [generationAt, addressOf_index h]

theorem SlotChange.size_eq {heap after : Heap} (h : SlotChange heap after) :
    after.slots.size = heap.slots.size := by
  cases h with
  | none hslots _ => rw [hslots]
  | rewrite changed recharge _ _ hslots _ _ => rw [hslots, Array.size_modify]

theorem SlotChange.generationAt_eq {heap after : Heap} (h : SlotChange heap after)
    (index : Nat) : after.generationAt index = heap.generationAt index := by
  cases h with
  | none hslots _ => exact generationAt_congr (by rw [hslots])
  | @rewrite script content changed recharge _ _ hslots _ _ =>
      simp only [generationAt, addressOf, Array.getD_eq_getD_getElem?, hslots,
        Array.getElem?_modify]
      split
      · cases heap.slots[index]? <;> rfl
      · rfl

theorem Moves.generationAt_eq {given : Set CellRef} {heap after : Heap}
    (h : Moves given heap after) (index : Nat) :
    after.generationAt index = heap.generationAt index :=
  h.keep (fun hsame hmove => (hmove.slotChange.generationAt_eq index).trans hsame) rfl

theorem Placed.generation_eq {heap after : Heap} {cell : Cell} {bytes : Nat} {id : CellId}
    (h : heap.Placed cell bytes id after) : heap.generationAt id.index = id.generation := by
  cases hslot : heap.slots[id.index]? with
  | none => simp [generationAt, addressOf, Array.getD_eq_getD_getElem?, hslot, (h.fresh hslot).2]
  | some slot => rw [generationAt_of_getElem? hslot, (h.vacant slot hslot).2.1]

theorem Placed.generationAt_eq {heap after : Heap} {cell : Cell} {bytes : Nat} {id : CellId}
    (h : heap.Placed cell bytes id after) (index : Nat) :
    after.generationAt index = heap.generationAt index := by
  by_cases hindex : index = id.index
  · rw [hindex, h.generation_eq, generationAt_of_getElem? h.slot]
  · exact generationAt_congr (h.others index hindex)

theorem Move.rootStack_cases {given : Set CellRef} {heap after : Heap} (h : Move given heap after)
    {ref : CellRef} (href : ref ∈ after.rootStack) : ref ∈ heap.rootStack ∨ ref ∈ given := by
  cases h with
  | pushRoot hgiven =>
      rcases List.mem_append.1 href with hold | hnew
      · exact Or.inl hold
      · exact Or.inr (List.mem_singleton.1 hnew ▸ hgiven)
  | truncateRoots count => exact Or.inl (List.mem_of_mem_take href)
  | share _ _ _ => exact Or.inl (by simpa [setScript, modifySlot, rootStack_shelved, charged]
      using href)
  | _ => exact Or.inl href

theorem Move.storeBuffer_cases {given : Set CellRef} {heap after : Heap}
    (h : Move given heap after) {owner : CellId} {ref : CellRef}
    (href : (owner, ref) ∈ after.storeBuffer) :
    (owner, ref) ∈ heap.storeBuffer ∨ ref ∈ given := by
  cases h with
  | barrier _ hgiven =>
      rcases Array.mem_push.1 href with hold | hnew
      · exact Or.inl hold
      · exact Or.inr ((Prod.mk.inj hnew).2 ▸ hgiven)
  | store hgiven _ _ _ =>
      rcases Array.mem_push.1 href with hold | hnew
      · exact Or.inl hold
      · exact Or.inr ((Prod.mk.inj hnew).2 ▸ hgiven)
  | share _ _ _ => exact Or.inl (by simpa [setScript, modifySlot, storeBuffer_shelved, charged]
      using href)
  | _ => exact Or.inl href

/-- A move makes the heap hold given references only. -/
theorem Move.holds_cases {given : Set CellRef} {heap after : Heap} (h : Move given heap after)
    {ref : CellRef} (href : after.Holds ref) : heap.Holds ref ∨ ref ∈ given := by
  rcases href with hroot | ⟨id, hedge⟩ | ⟨owner, hstore⟩
  · rw [roots, List.mem_append, h.frame.persistentRoots] at hroot
    rcases hroot with hstack | hpersistent
    · rcases h.rootStack_cases hstack with hold | hgiven
      · exact Or.inl (Or.inl (List.mem_append_left _ hold))
      · exact Or.inr hgiven
    · exact Or.inl (Or.inl (List.mem_append_right _ hpersistent))
  · obtain ⟨cell, hcell, hreference⟩ := (edge_iff after id ref).1 hedge
    rcases h.cell?_cases with hsame | ⟨script, content, changed, hscript, _, hrefs, hcells⟩
    · exact Or.inl (Or.inr (Or.inl ⟨id, (edge_iff heap id ref).2 ⟨cell, hsame id ▸ hcell,
        hreference⟩⟩))
    · rw [hcells] at hcell
      split at hcell
      · obtain rfl := Option.some.inj hcell
        refine (hrefs ref hreference).imp_left fun hold => Or.inr (Or.inl ⟨script.id, ?_⟩)
        exact (edge_iff heap _ _).2 ⟨_, (script_eq_ok_iff _ _ _).1 hscript, hold⟩
      · exact Or.inl (Or.inr (Or.inl ⟨id, (edge_iff heap id ref).2 ⟨cell, hcell, hreference⟩⟩))
  · exact (h.storeBuffer_cases hstore).imp_left fun hold => Or.inr (Or.inr ⟨owner, hold⟩)

/-- A collection makes the heap hold nothing new. -/
theorem holds_of_holds_collected {heap : Heap} {ref : CellRef} (h : heap.collected.Holds ref) :
    heap.Holds ref := by
  rcases h with hroot | ⟨id, hedge⟩ | ⟨owner, hstore⟩
  · exact Or.inl hroot
  · obtain ⟨cell, hcell, href⟩ := (edge_iff _ id ref).1 hedge
    have hedge' := (edge_iff heap id ref).2 ⟨cell, cell?_of_cell?_collected hcell, href⟩
    exact Or.inr (Or.inl ⟨id, hedge'⟩)
  · simp at hstore

/-- A passage makes the heap hold given references only. -/
theorem Passage.holds_cases {given : Set CellRef} {heap after : Heap}
    (h : Passage given heap after) {ref : CellRef}
    (href : after.Holds ref) : heap.Holds ref ∨ ref ∈ given := by
  refine h.keep (p := fun between => ∀ ref, between.Holds ref → heap.Holds ref ∨ ref ∈ given)
    ?_ ?_ (fun _ => Or.inl) ref href
  · exact fun hbetween hmove ref href => (hmove.holds_cases href).elim (hbetween ref) Or.inr
  · exact fun hbetween ref href => hbetween ref (holds_of_holds_collected href)

/-- A birth makes the heap hold what the new cell holds. -/
theorem Birth.holds_cases {heap after : Heap} {issue : Issue} (h : Birth heap issue after)
    (hslots : heap.SlotsSound) {ref : CellRef} (href : after.Holds ref) :
    heap.Holds ref ∨ ref ∈ issue.cell.references := by
  rcases href with hroot | ⟨id, hedge⟩ | ⟨owner, hstore⟩
  · obtain ⟨bytes, placed, hplaced, hafter⟩ := h.placed hslots
    rw [hafter] at hroot
    simp only [roots, hplaced.rootStack, hplaced.persistentRoots] at hroot
    exact Or.inl (Or.inl hroot)
  · obtain ⟨cell, hcell, hreference⟩ := (edge_iff after id ref).1 hedge
    rw [h.cell? hslots] at hcell
    split at hcell
    · exact Or.inr (Option.some.inj hcell ▸ hreference)
    · exact Or.inl (Or.inr (Or.inl ⟨id, (edge_iff heap id ref).2 ⟨cell, hcell, hreference⟩⟩))
  · obtain ⟨bytes, placed, hplaced, hafter⟩ := h.placed hslots
    rw [hafter] at hstore
    exact Or.inl (Or.inr (Or.inr ⟨owner, hplaced.storeBuffer ▸ hstore⟩))

theorem mem_roots_addRoot {heap : Heap} {added ref : CellRef}
    (h : ref ∈ (heap.addRoot added).2.roots) : ref ∈ heap.roots ∨ ref = added := by
  unfold addRoot at h
  split at h
  · rename_i index rest hfree
    simp only [roots, List.mem_append, List.mem_filterMap, id_eq, Array.toList_setIfInBounds,
      exists_eq_right] at h ⊢
    rcases h with hstack | hpersistent
    · exact Or.inl (Or.inl hstack)
    · rcases List.mem_or_eq_of_mem_set hpersistent with hold | hnew
      · exact Or.inl (Or.inr hold)
      · exact Or.inr (Option.some.inj hnew)
  · simp only [roots, List.mem_append, List.mem_filterMap, id_eq, Array.toList_push,
      exists_eq_right, List.mem_singleton, Option.some.injEq] at h ⊢
    exact or_assoc.2 h

theorem mem_roots_removeRoot {heap : Heap} {root : RootId} {ref : CellRef}
    (h : ref ∈ (heap.removeRoot root).roots) : ref ∈ heap.roots := by
  unfold removeRoot at h
  split at h
  · exact h
  · simp only [roots, List.mem_append, List.mem_filterMap, id_eq, Array.toList_setIfInBounds,
      exists_eq_right] at h ⊢
    refine h.imp_right fun hpersistent => ?_
    exact (List.mem_or_eq_of_mem_set hpersistent).resolve_right (by simp)

/-- New persistent roots make the heap hold what they hold. -/
theorem Rerooted.holds_cases {given : Set CellRef} {heap after : Heap} (h : heap.Rerooted after)
    (hroots : ∀ ref ∈ after.roots, ref ∈ heap.roots ∨ ref ∈ given) {ref : CellRef}
    (href : after.Holds ref) : heap.Holds ref ∨ ref ∈ given := by
  obtain ⟨roots, free, rfl⟩ := h
  rcases href with hroot | ⟨id, hedge⟩ | hstore
  · exact (hroots ref hroot).imp_left Or.inl
  · rw [edge_iff] at hedge
    exact Or.inl (Or.inr (Or.inl ⟨id, (edge_iff _ id ref).2 hedge⟩))
  · exact Or.inl (Or.inr (Or.inr hstore))

/-- A generation that does not fall when it moves on rises. -/
theorem lt_of_le_succ_mod {generation : Nat}
    (h : generation ≤ (generation + 1) % UInt32.size) :
    generation < (generation + 1) % UInt32.size := by
  have hsize : UInt32.size = 4294967296 := rfl
  rw [hsize] at h ⊢
  omega

/-- The heap and the cells placed on it agree about addresses. -/
structure Coherent (issued : List Issue) (heap : Heap) : Prop where
  ids_nodup : (issued.map Issue.id).Nodup
  index_lt : ∀ issue ∈ issued, issue.id.index < heap.slots.size
  generation_le : ∀ issue ∈ issued, issue.id.generation ≤ heap.generationAt issue.id.index
  cell_of_current : ∀ issue ∈ issued,
    issue.id.generation = heap.generationAt issue.id.index →
    ∃ cell, heap.cell? issue.id = some cell ∧ issue.cell.Continues cell
  live_issued : ∀ id, heap.isLive id = true → ∃ issue ∈ issued, issue.id = id
  held_issued : ∀ ref, heap.Holds ref → ref ∈ Issue.refs issued

namespace Coherent

variable {issued : List Issue} {heap after : Heap}

/-- A change of the roots and the store buffer only. -/
theorem of_slots_eq (h : heap.Coherent issued) (hslots : after.slots = heap.slots)
    (hheld : ∀ ref, after.Holds ref → heap.Holds ref ∨ ref ∈ Issue.refs issued) :
    after.Coherent issued := by
  obtain ⟨h₁, h₂, h₃, h₄, h₅, h₆⟩ := h
  simp only [generationAt, addressOf, isLive, Heap.cell?, ← hslots] at h₂ h₃ h₄ h₅
  exact ⟨h₁, h₂, h₃, h₄, h₅, fun ref href => (hheld ref href).elim (h₆ ref) id⟩

/-- An address that names nothing never names anything again, as long as the generation
of its slot does not start over. -/
theorem not_live_of_stale (h : heap.Coherent issued) {issue : Issue} (hissue : issue ∈ issued)
    (hstale : ¬ heap.isLive issue.id = true)
    (hle : heap.generationAt issue.id.index ≤ after.generationAt issue.id.index) :
    ¬ after.isLive issue.id = true := by
  intro hlive
  have hlt : issue.id.generation < heap.generationAt issue.id.index := by
    refine lt_of_le_of_ne (h.generation_le issue hissue) fun hcurrent => hstale ?_
    obtain ⟨cell, hcell, _⟩ := h.cell_of_current issue hissue hcurrent
    exact (isLive_iff _ _).2 ⟨cell, hcell⟩
  rw [generationAt_of_isLive hlive] at hle
  omega

/-- A live address names what has become of the cell it was issued for. -/
theorem issue_of_cell? (h : heap.Coherent issued) {id : CellId} {cell : Cell}
    (hcell : heap.cell? id = some cell) :
    ∃ issue ∈ issued, issue.id = id ∧ issue.cell.Continues cell := by
  have hlive := (isLive_iff heap id).2 ⟨cell, hcell⟩
  obtain ⟨issue, hissue, rfl⟩ := h.live_issued id hlive
  obtain ⟨found, hfound, hcontinues⟩ :=
    h.cell_of_current issue hissue (generationAt_of_isLive hlive).symm
  obtain rfl := Option.some.inj (hcell.symm.trans hfound)
  exact ⟨issue, hissue, rfl, hcontinues⟩

theorem move {given : Set CellRef} (h : heap.Coherent issued) (hgiven : given ⊆ Issue.refs issued)
    (hmove : Move given heap after) : after.Coherent issued := by
  have hgeneration := hmove.slotChange.generationAt_eq
  have hlive := hmove.isLive_eq
  refine ⟨h.ids_nodup, ?_, ?_, ?_, fun id hid => h.live_issued id (hlive id ▸ hid), ?_⟩
  · intro issue hissue
    rw [hmove.slotChange.size_eq]
    exact h.index_lt issue hissue
  · intro issue hissue
    rw [hgeneration]
    exact h.generation_le issue hissue
  · intro issue hissue hcurrent
    rw [hgeneration] at hcurrent
    obtain ⟨cell, hcell, hcontinues⟩ := h.cell_of_current issue hissue hcurrent
    rcases hmove.cell?_cases with hsame | ⟨script, content, changed, hscript, hrevises, _, hcells⟩
    · exact ⟨cell, (hsame _).trans hcell, hcontinues⟩
    · rw [hcells]
      split
      · rename_i heq
        rw [heq, (script_eq_ok_iff heap script content).1 hscript] at hcell
        obtain rfl := Option.some.inj hcell
        exact ⟨_, rfl, hcontinues.revises hrevises⟩
      · exact ⟨cell, hcell, hcontinues⟩
  · intro ref href
    exact (hmove.holds_cases href).elim (h.held_issued ref) fun hmem => hgiven hmem

theorem moves {given : Set CellRef} (h : heap.Coherent issued)
    (hgiven : given ⊆ Issue.refs issued) (hmoves : Moves given heap after) :
    after.Coherent issued :=
  hmoves.keep (fun hcoherent hmove => hcoherent.move hgiven hmove) h

/-- A collection keeps the tie if it wraps no generation: the slot of a cell it
sweeps then moves past every address issued for it. -/
theorem collected (h : heap.Coherent issued)
    (hwrap : ∀ index, heap.generationAt index ≤ heap.collected.generationAt index) :
    heap.collected.Coherent issued := by
  have hgone : ∀ issue ∈ issued, ¬ heap.Reaches issue.id →
      issue.id.generation < heap.collected.generationAt issue.id.index := by
    intro issue hissue hnot
    have hle := hwrap issue.id.index
    by_cases hlive : heap.isLive issue.id = true
    · have hslot := slot_collected_of_swept ((mem_swept heap _).2 ⟨hlive, hnot⟩)
      rw [generationAt_of_isLive hlive, generationAt_of_getElem? hslot] at hle
      rw [generationAt_of_getElem? hslot]
      exact lt_of_le_succ_mod hle
    · refine lt_of_lt_of_le (lt_of_le_of_ne (h.generation_le issue hissue) fun hcurrent => ?_) hle
      obtain ⟨cell, hcell, _⟩ := h.cell_of_current issue hissue hcurrent
      exact hlive ((isLive_iff heap _).2 ⟨cell, hcell⟩)
  refine ⟨h.ids_nodup, ?_, ?_, ?_, ?_, ?_⟩
  · intro issue hissue
    rw [size_slots_collected]
    exact h.index_lt issue hissue
  · exact fun issue hissue => (h.generation_le issue hissue).trans (hwrap _)
  · intro issue hissue hcurrent
    by_cases hreached : heap.Reaches issue.id
    · rw [generationAt_congr (slot_collected_of_reaches hreached)] at hcurrent
      rw [cell?_collected_of_reaches hreached]
      exact h.cell_of_current issue hissue hcurrent
    · exact absurd hcurrent (hgone issue hissue hreached).ne
  · exact fun id hid => h.live_issued id ((isLive_collected_iff heap id).1 hid).isLive
  · exact fun ref href => h.held_issued ref (holds_of_holds_collected href)

/-- The next address of an empty slot was never issued. -/
theorem not_issued_of_current (h : heap.Coherent issued) {id : CellId}
    (hcurrent : id.generation = heap.generationAt id.index) (hdead : heap.cell? id = none) :
    ∀ issue ∈ issued, issue.id ≠ id := by
  rintro issue hissue rfl
  obtain ⟨cell, hcell, _⟩ := h.cell_of_current issue hissue hcurrent
  rw [hdead] at hcell
  simp at hcell

/-- A birth extends the list by a cell whose address is new. -/
theorem birth {issue : Issue} (h : heap.Coherent issued) (hslots : heap.SlotsSound)
    (hbirth : Birth heap issue after)
    (hrefs : ∀ ref ∈ issue.cell.references, ref ∈ Issue.refs issued) :
    after.Coherent (issue :: issued) := by
  obtain ⟨bytes, placed, hplaced, hafter⟩ := hbirth.placed hslots
  have hgeneration : ∀ index, after.generationAt index = heap.generationAt index := by
    rw [hafter]
    exact hplaced.generationAt_eq
  have hsize : heap.slots.size ≤ after.slots.size := hafter ▸ hplaced.size_le
  have hindex : issue.id.index < after.slots.size := by
    rw [hafter]
    exact (Array.getElem?_eq_some_iff.1 hplaced.slot).1
  have hfresh : ∀ other ∈ issued, other.id ≠ issue.id :=
    h.not_issued_of_current hplaced.generation_eq.symm hplaced.not_live
  refine ⟨?_, ?_, ?_, ?_, ?_, ?_⟩
  · rw [List.map_cons, List.nodup_cons]
    refine ⟨fun hmem => ?_, h.ids_nodup⟩
    obtain ⟨other, hother, heq⟩ := List.mem_map.1 hmem
    exact hfresh other hother heq
  · intro other hother
    rcases List.mem_cons.1 hother with rfl | hother
    · exact hindex
    · exact (h.index_lt other hother).trans_le hsize
  · intro other hother
    rw [hgeneration]
    rcases List.mem_cons.1 hother with rfl | hother
    · exact hplaced.generation_eq.ge
    · exact h.generation_le other hother
  · intro other hother hcurrent
    rw [hgeneration] at hcurrent
    rw [hbirth.cell? hslots]
    rcases List.mem_cons.1 hother with rfl | hother
    · exact ⟨_, if_pos rfl, .refl _⟩
    · rw [if_neg (hfresh other hother)]
      exact h.cell_of_current other hother hcurrent
  · intro id hid
    rw [isLive, hbirth.cell? hslots] at hid
    split at hid
    · rename_i heq
      exact ⟨issue, List.mem_cons_self, heq.symm⟩
    · obtain ⟨other, hother, heq⟩ := h.live_issued id hid
      exact ⟨other, List.mem_cons_of_mem _ hother, heq⟩
  · intro ref href
    have hknown : ref ∈ Issue.refs issued :=
      (hbirth.holds_cases hslots href).elim (h.held_issued ref) (hrefs ref)
    obtain ⟨other, hother, heq⟩ := hknown
    exact ⟨other, List.mem_cons_of_mem _ hother, heq⟩

/-- A change of the persistent roots that adds issued references only. -/
theorem rerooted (h : heap.Coherent issued) (hrerooted : heap.Rerooted after)
    (hroots : ∀ ref ∈ after.roots, ref ∈ heap.roots ∨ ref ∈ Issue.refs issued) :
    after.Coherent issued := by
  have hheld : ∀ ref, after.Holds ref → heap.Holds ref ∨ ref ∈ Issue.refs issued :=
    fun ref => hrerooted.holds_cases hroots
  obtain ⟨roots, free, rfl⟩ := hrerooted
  exact h.of_slots_eq rfl hheld

theorem addRoot (h : heap.Coherent issued) {ref : CellRef} (href : ref ∈ Issue.refs issued) :
    (heap.addRoot ref).2.Coherent issued := by
  refine h.rerooted (rerooted_addRoot ref heap) fun other hother => ?_
  exact (mem_roots_addRoot hother).imp_right fun (heq : other = ref) => heq ▸ href

theorem removeRoot (h : heap.Coherent issued) (root : RootId) :
    (heap.removeRoot root).Coherent issued :=
  h.rerooted (rerooted_removeRoot root heap) fun _ hother => Or.inl (mem_roots_removeRoot hother)

end Coherent

end Heap

namespace Request

/-- The cells placed after a request, when those before it are given. -/
def issuedAfter (request : Request) (heap : Heap) (issued : List Issue) : List Issue :=
  (request.born? heap).toList ++ issued

variable {heap : Heap} {issued : List Issue} {request : Request}

theorem refs_subset_issuedAfter {ref : CellRef} (href : ref ∈ Issue.refs issued) :
    ref ∈ Issue.refs (request.issuedAfter heap issued) := by
  obtain ⟨issue, hissue, heq⟩ := href
  exact ⟨issue, List.mem_append_right _ hissue, heq⟩

/-- A request makes a heap hold only the references that it passes. -/
theorem holds_cases (hsound : heap.Sound) {ref : CellRef} (href : (request.next heap).Holds ref) :
    heap.Holds ref ∨ ref ∈ request.refs := by
  have heffect := effect hsound request
  generalize request.next heap = after at heffect href
  generalize request.born? heap = born at heffect
  cases heffect with
  | passage hpassage => exact hpassage.holds_cases href
  | birth hpassage hbirth hknown =>
      rcases hbirth.holds_cases (hsound.passage hpassage).slots href with hold | hnew
      · exact hpassage.holds_cases hold
      · exact Or.inr (hknown ref hnew)
  | @addRoot added heq =>
      have hadded : ∀ ref ∈ (heap.addRoot added).2.roots, ref ∈ heap.roots ∨ ref ∈ request.given :=
        fun ref hroot => (Heap.mem_roots_addRoot hroot).imp_right fun hnew => by
          simp [given, heq, hnew, refs, Operation.refs]
      exact (Heap.rerooted_addRoot added heap).holds_cases hadded href
  | @removeRoot root _ =>
      have hleft : ∀ ref ∈ (heap.removeRoot root).roots, ref ∈ heap.roots ∨ ref ∈ request.given :=
        fun ref hroot => Or.inl (Heap.mem_roots_removeRoot hroot)
      exact (Heap.rerooted_removeRoot root heap).holds_cases hleft href

/-- A request keeps the tie between a heap and the cells placed on it. -/
theorem coherent_next (hsound : heap.Sound) (h : heap.Coherent issued)
    (hrefs : ∀ ref ∈ request.refs, ref ∈ Issue.refs issued)
    (hwrap : ∀ index, heap.generationAt index ≤ (request.next heap).generationAt index) :
    (request.next heap).Coherent (request.issuedAfter heap issued) := by
  have heffect := effect hsound request
  have hpassage : ∀ {between : Heap}, Heap.Passage request.given heap between →
      (∀ index, between.generationAt index = (request.next heap).generationAt index) →
      between.Coherent issued := by
    rintro between ⟨first, second, ⟨hfirst, _⟩, hcollect, hsecond⟩ hend
    have hcoherent := h.moves hrefs hfirst
    rcases hcollect with rfl | rfl
    · exact hcoherent.moves hrefs hsecond
    · refine (hcoherent.collected fun index => ?_).moves hrefs hsecond
      rw [Heap.Moves.generationAt_eq hfirst, ← Heap.Moves.generationAt_eq hsecond, hend]
      exact hwrap index
  unfold issuedAfter
  generalize request.next heap = after at *
  generalize request.born? heap = born at *
  cases heffect with
  | passage hmoves => exact hpassage hmoves fun _ => rfl
  | birth hmoves hbirth hknown =>
      have hslots := (hsound.passage hmoves).slots
      refine (hpassage hmoves fun index => ?_).birth hslots hbirth fun ref href =>
        hrefs ref (hknown ref href)
      obtain ⟨bytes, placed, hplaced, hafter⟩ := hbirth.placed hslots
      rw [hafter]
      exact (hplaced.generationAt_eq index).symm
  | addRoot heq => exact h.addRoot (hrefs _ (by simp [heq, refs, Operation.refs]))
  | removeRoot _ => exact h.removeRoot _

end Request

end ScriptLinker
