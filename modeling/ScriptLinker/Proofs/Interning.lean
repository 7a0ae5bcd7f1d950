import ScriptLinker.Heap.Atom
import ScriptLinker.Proofs.Slots
/-!
# The table of atoms

`AtomsSound` says that the table of atoms and the atoms on the heap are the same
thing: every entry names a live atom of its text, every live atom has an entry,
no text has two, and the slot of an atom records the charge of its text. So a
look-up in the table finds an atom exactly if one of that text is alive.
-/

namespace ScriptLinker.Keyed

/-- In a list without two values under one key, a look-up finds what is there. -/
theorem lookup_eq_some_iff_mem {κ α : Type} [BEq κ] [LawfulBEq κ] {pairs : List (κ × α)}
    (h : (pairs.map Prod.fst).Nodup) (key : κ) (value : α) :
    pairs.lookup key = some value ↔ (key, value) ∈ pairs := by
  induction pairs with
  | nil => simp
  | cons pair rest ih =>
      obtain ⟨name, held⟩ := pair
      obtain ⟨hname, hrest⟩ := List.nodup_cons.1 h
      by_cases hkey : key = name
      · subst hkey
        have habsent : (key, value) ∉ rest := fun hmem =>
          hname (List.mem_map.2 ⟨(key, value), hmem, rfl⟩)
        simp [habsent, eq_comm]
      · rw [List.lookup_cons, beq_eq_false_iff_ne.2 hkey]
        simp [ih hrest, hkey]

end ScriptLinker.Keyed

namespace ScriptLinker.Heap

/-- The table of atoms lists the live atoms, each under its own text, and their
slots record their charge. -/
structure AtomsSound (heap : Heap) : Prop where
  entry_live : ∀ text atom, (text, atom) ∈ heap.atoms →
    heap.cell? atom.id = some (.atom text)
  keys_nodup : (heap.atoms.map Prod.fst).Nodup
  live_entered : ∀ id text, heap.cell? id = some (.atom text) → (text, ⟨id⟩) ∈ heap.atoms
  charge_eq : ∀ (index : Nat) (slot : Slot) (text : String), heap.slots[index]? = some slot →
    slot.cell = some (.atom text) → slot.bytes = Charge.atom text

theorem atomsSound_ofLimits (limits : HeapLimits) : (ofLimits limits).AtomsSound where
  entry_live := by simp [ofLimits]
  keys_nodup := List.nodup_nil
  live_entered := by simp [ofLimits, cell?, cellAt?, slotAt?]
  charge_eq := by simp [ofLimits]

/-- The table finds an atom for a text exactly if the atom is alive and has that
text. -/
theorem AtomsSound.internedAtom?_eq_some_iff {heap : Heap} (h : heap.AtomsSound)
    (text : String) (atom : AtomId) :
    heap.internedAtom? text = some atom ↔ heap.cell? atom.id = some (.atom text) := by
  rw [internedAtom?, Keyed.lookup_eq_some_iff_mem h.keys_nodup]
  exact ⟨h.entry_live text atom, h.live_entered atom.id text⟩

/-- What the table finds is alive, so that interning need not ask. -/
theorem AtomsSound.filter_internedAtom? {heap : Heap} (h : heap.AtomsSound) (text : String) :
    ((heap.internedAtom? text).filter fun atom => heap.isLive atom.id) =
      heap.internedAtom? text := by
  cases hatom : heap.internedAtom? text with
  | none => rfl
  | some atom =>
      have hcell := (h.internedAtom?_eq_some_iff text atom).1 hatom
      simp [Option.filter, isLive, hcell]

theorem AtomsSound.eq_of_text {heap : Heap} (h : heap.AtomsSound) {id other : CellId}
    {text : String} (hid : heap.cell? id = some (.atom text))
    (hother : heap.cell? other = some (.atom text)) : id = other := by
  have hfound := (h.internedAtom?_eq_some_iff text ⟨id⟩).2 hid
  have hfound' := (h.internedAtom?_eq_some_iff text ⟨other⟩).2 hother
  exact congrArg AtomId.id (Option.some.inj (hfound.symm.trans hfound'))

theorem AtomsSound.move {given : Set CellRef} {heap after : Heap} (h : heap.AtomsSound)
    (hmove : Move given heap after) : after.AtomsSound := by
  have hatoms := hmove.frame.atoms
  have hcell : ∀ id text, after.cell? id = some (.atom text) ↔
      heap.cell? id = some (.atom text) := by
    intro id text
    rcases hmove.cell?_cases with hsame | ⟨script, content, changed, hscript, _, _, hcells⟩
    · rw [hsame]
    · rw [hcells]
      split
      · rename_i heq
        simp [heq, (script_eq_ok_iff heap script content).1 hscript]
      · rfl
  refine ⟨fun text atom hmem => ?_, hatoms ▸ h.keys_nodup, fun id text hid => ?_, ?_⟩
  · exact (hcell _ _).2 (h.entry_live text atom (hatoms ▸ hmem))
  · rw [hatoms]
    exact h.live_entered id text ((hcell _ _).1 hid)
  · intro index slot text hslot htext
    refine h.charge_eq index slot text (hmove.slotChange.slot_of_not_script hslot ?_) htext
    simp [htext]

theorem AtomsSound.collected {heap : Heap} (h : heap.AtomsSound) :
    heap.collected.AtomsSound := by
  have hsub : heap.collected.atoms.Sublist heap.atoms := List.filter_sublist
  refine ⟨fun text atom hmem => ?_, ?_, fun id text hid => ?_, ?_⟩
  · rw [atoms_collected] at hmem
    obtain ⟨hold, hlive⟩ := List.mem_filter.1 hmem
    rw [cell?_collected_of_reaches ((isLive_collected_iff heap _).1 hlive)]
    exact h.entry_live text atom hold
  · exact h.keys_nodup.sublist (hsub.map Prod.fst)
  · rw [atoms_collected, List.mem_filter]
    exact ⟨h.live_entered id text (cell?_of_cell?_collected hid), by simp [isLive, hid]⟩
  · intro index slot text hslot htext
    rw [getElem?_slots_collected] at hslot
    obtain ⟨old, hold, rfl⟩ := Option.map_eq_some_iff.1 hslot
    split at htext
    · simp at htext
    · rename_i hkept
      rw [if_neg hkept]
      exact h.charge_eq index old text hold htext

/-- Placing a cell that is no atom leaves the table sound. -/
theorem AtomsSound.placed {heap after : Heap} {cell : Cell} {bytes : Nat} {id : CellId}
    (h : heap.AtomsSound) (hplaced : heap.Placed cell bytes id after)
    (hcell : ∀ text, cell ≠ .atom text) : after.AtomsSound := by
  have hsame : ∀ other text, after.cell? other = some (.atom text) ↔
      heap.cell? other = some (.atom text) := by
    intro other text
    rw [hplaced.cell?]
    split
    · rename_i heq
      simp [heq, hplaced.not_live, hcell text]
    · rfl
  refine ⟨fun text atom hmem => ?_, hplaced.atoms ▸ h.keys_nodup, fun other text hother => ?_, ?_⟩
  · exact (hsame _ _).2 (h.entry_live text atom (hplaced.atoms ▸ hmem))
  · rw [hplaced.atoms]
    exact h.live_entered other text ((hsame _ _).1 hother)
  · intro index slot text hslot htext
    by_cases hindex : index = id.index
    · subst hindex
      rw [hplaced.slot] at hslot
      obtain rfl := Option.some.inj hslot
      exact absurd (Option.some.inj htext) (hcell text)
    · exact h.charge_eq index slot text (hplaced.others index hindex ▸ hslot) htext

/-- Placing an atom of a text that the table lacks, and entering it. -/
theorem AtomsSound.placed_atom {heap after : Heap} {text : String} {id : CellId}
    (h : heap.AtomsSound) (habsent : heap.internedAtom? text = none)
    (hplaced : heap.Placed (.atom text) (Charge.atom text) id after) :
    (after.enterAtom text ⟨id⟩).AtomsSound := by
  have habsent' : ∀ pair ∈ heap.atoms, pair.1 ≠ text := by
    intro pair hpair heq
    have := List.lookup_eq_none_iff.1 habsent pair hpair
    simp [heq] at this
  have herase : Keyed.erase text heap.atoms = heap.atoms := by
    rw [Keyed.erase, List.filter_eq_self]
    exact fun pair hpair => by simpa using habsent' pair hpair
  have hatoms : (after.enterAtom text ⟨id⟩).atoms = (text, ⟨id⟩) :: heap.atoms := by
    rw [enterAtom, hplaced.atoms, Keyed.put, herase]
  have hcell : ∀ other, (after.enterAtom text ⟨id⟩).cell? other =
      if other = id then some (.atom text) else heap.cell? other := hplaced.cell?
  refine ⟨fun other atom hmem => ?_, ?_, fun other found hother => ?_, ?_⟩
  · rw [hatoms] at hmem
    rw [hcell]
    rcases List.mem_cons.1 hmem with heq | hmem
    · obtain ⟨rfl, rfl⟩ := Prod.mk.inj heq
      simp
    · have hold := h.entry_live other atom hmem
      have hne : atom.id ≠ id := by
        rintro rfl
        simp [hplaced.not_live] at hold
      rw [if_neg hne, hold]
  · rw [hatoms, List.map_cons, List.nodup_cons]
    refine ⟨fun hmem => ?_, h.keys_nodup⟩
    obtain ⟨pair, hpair, heq⟩ := List.mem_map.1 hmem
    exact habsent' pair hpair heq
  · rw [hcell] at hother
    rw [hatoms]
    split at hother
    · rename_i heq
      cases hother
      simp [heq]
    · exact List.mem_cons_of_mem _ (h.live_entered other found hother)
  · intro index slot found hslot hfound
    by_cases hindex : index = id.index
    · subst hindex
      have hslot' := hplaced.slot.symm.trans hslot
      obtain rfl := Option.some.inj hslot'
      cases hfound
      rfl
    · exact h.charge_eq index slot found ((hplaced.others index hindex).symm.trans hslot) hfound

end ScriptLinker.Heap
