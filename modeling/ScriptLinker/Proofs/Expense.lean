import ScriptLinker.Proofs.Draft
/-!
# What a construction is charged

A draft reaches what the roots of its base reached, its script, and the atoms
stored in it. The strings among the stored ones that no reached atom of the base
had are new, and each counts once, however often it was stored and whether an
atom of it was left as garbage or has been allocated. `Draft.reachedBytes_eq`
adds this up; with it `Draft.ensures_reserve` says when a draft gets room.
-/

namespace ScriptLinker.Heap

/-- Whether the roots reach an atom of a string. -/
def HoldsAtom (heap : Heap) (string : Bytes) : Prop :=
  ∃ id ∈ heap.reached, heap.cell? id = (Utf8.decode? string).map Cell.atom

instance (heap : Heap) (string : Bytes) : Decidable (heap.HoldsAtom string) :=
  inferInstanceAs (Decidable (∃ id ∈ heap.reached, _))

/-- The strings of a list whose atoms the roots do not reach, each once. -/
def newStrings (heap : Heap) (strings : List Bytes) : Finset Bytes :=
  strings.toFinset.filter fun string => ¬ heap.HoldsAtom string

theorem mem_newStrings (heap : Heap) (strings : List Bytes) (string : Bytes) :
    string ∈ heap.newStrings strings ↔ string ∈ strings ∧ ¬ heap.HoldsAtom string := by
  rw [newStrings, Finset.mem_filter, List.mem_toFinset]

/-- The charge of the atoms that the strings of a list need. -/
def newBytes (heap : Heap) (strings : List Bytes) : Nat :=
  ∑ string ∈ heap.newStrings strings, (16 + string.length)

theorem newBytes_le {heap : Heap} {some all : List Bytes} (h : some ⊆ all) :
    heap.newBytes some ≤ heap.newBytes all := by
  refine Finset.sum_le_sum_of_subset fun string hstring => ?_
  rw [mem_newStrings] at hstring ⊢
  exact ⟨h hstring.1, hstring.2⟩

/-- A string that is not among the earlier ones and has no reached atom adds its
charge. -/
theorem newBytes_concat {heap : Heap} {strings : List Bytes} {string : Bytes}
    (habsent : string ∉ strings) (hnew : ¬ heap.HoldsAtom string) :
    heap.newBytes (strings ++ [string]) = heap.newBytes strings + (16 + string.length) := by
  have hinsert : heap.newStrings (strings ++ [string]) =
      insert string (heap.newStrings strings) := by
    ext other
    rw [mem_newStrings, Finset.mem_insert, mem_newStrings, List.mem_append, List.mem_singleton]
    constructor
    · rintro ⟨hold | rfl, hother⟩
      · exact Or.inr ⟨hold, hother⟩
      · exact Or.inl rfl
    · rintro (rfl | ⟨hold, hother⟩)
      · exact ⟨Or.inr rfl, hnew⟩
      · exact ⟨Or.inl hold, hother⟩
  have hnot : string ∉ heap.newStrings strings := fun hmem =>
    habsent ((mem_newStrings _ _ _).1 hmem).1
  rw [newBytes, hinsert, Finset.sum_insert hnot, newBytes, Nat.add_comm]

theorem charge_atom_of_decode? {string : Bytes} {text : String}
    (h : Utf8.decode? string = some text) : Charge.atom text = 16 + string.length := by
  rw [Utf8.decode?_eq_some_iff.1 h, Utf8.length_encode]
  rfl

/-- The bytes of the text of an atom. -/
def stringOf (heap : Heap) (id : CellId) : Bytes :=
  match heap.cell? id with
  | some (.atom text) => Utf8.encode text
  | _ => []

theorem stringOf_of_cell? {heap : Heap} {id : CellId} {string : Bytes} {text : String}
    (hcell : heap.cell? id = some (.atom text)) (hdecode : Utf8.decode? string = some text) :
    heap.stringOf id = string := by
  rw [stringOf, hcell, Utf8.decode?_eq_some_iff.1 hdecode]

theorem AtomsSound.bytesAt_eq {heap : Heap} (h : heap.AtomsSound) {id : CellId} {text : String}
    (hcell : heap.cell? id = some (.atom text)) : heap.bytesAt id.index = Charge.atom text := by
  obtain ⟨slot, hslot, _, htext⟩ := (cellAt?_eq_some_iff _ _ _).1 hcell
  rw [bytesAt_of_getElem? hslot, h.charge_eq _ slot text hslot htext]

namespace Draft

variable {base heap : Heap} {script : ScriptId} {content : Script} {bytes : Nat}
  {stored : List Bytes}

/-- The cells that a draft reaches and its base did not, but for the script. -/
theorem mem_added_iff (h : Draft base script content bytes stored ∅ heap) (id : CellId) :
    id ∈ (heap.reached \ base.reached).erase script.id ↔
      ¬ base.Reaches id ∧ ∃ atom, some atom ∈ content.atomSlots ∧ atom.id = id := by
  rw [Finset.mem_erase, Finset.mem_sdiff, mem_reached, mem_reached]
  constructor
  · rintro ⟨hne, hid, hbase⟩
    rcases h.reached_cases id hid with hold | hscript | hatom | hloose
    · exact absurd hold hbase
    · exact absurd hscript hne
    · exact ⟨hbase, hatom⟩
    · exact absurd hloose (Set.notMem_empty id)
  · rintro ⟨hbase, atom, hatom, rfl⟩
    refine ⟨fun heq => ?_, h.reaches_atom hatom, hbase⟩
    obtain ⟨_, _, text, _, hcell⟩ := h.fits.atom_of_mem hatom
    rw [heq, h.cell?_script] at hcell
    simp at hcell

/-- An atom of a string that the base reaches is still the atom of that string. -/
theorem holdsAtom_iff (h : Draft base script content bytes stored ∅ heap) {id : CellId}
    {string : Bytes} {text : String} (hcell : heap.cell? id = some (.atom text))
    (hdecode : Utf8.decode? string = some text) :
    base.HoldsAtom string ↔ base.Reaches id := by
  rw [HoldsAtom, hdecode, Option.map_some]
  constructor
  · rintro ⟨other, hother, hfound⟩
    rw [mem_reached] at hother
    obtain rfl := h.sound.atoms.eq_of_text hcell ((h.toIntact.cell? hother).trans hfound)
    exact hother
  · exact fun hid => ⟨id, (mem_reached _ _).2 hid, (h.toIntact.cell? hid).symm.trans hcell⟩

/-- What the atoms are charged that a draft has added to its base. -/
theorem bytesOf_added (h : Draft base script content bytes stored ∅ heap) :
    heap.bytesOf ((heap.reached \ base.reached).erase script.id) = base.newBytes stored := by
  refine Finset.sum_nbij heap.stringOf ?_ ?_ ?_ ?_
  · intro id hid
    obtain ⟨hbase, atom, hatom, rfl⟩ := (h.mem_added_iff id).1 hid
    obtain ⟨string, hstring, text, hdecode, hcell⟩ := h.fits.atom_of_mem hatom
    rw [stringOf_of_cell? hcell hdecode, mem_newStrings, h.holdsAtom_iff hcell hdecode]
    exact ⟨hstring, hbase⟩
  · intro id hid other hother heq
    obtain ⟨_, atom, hatom, rfl⟩ := (h.mem_added_iff id).1 hid
    obtain ⟨_, atom', hatom', rfl⟩ := (h.mem_added_iff other).1 hother
    obtain ⟨string, _, text, hdecode, hcell⟩ := h.fits.atom_of_mem hatom
    obtain ⟨string', _, text', hdecode', hcell'⟩ := h.fits.atom_of_mem hatom'
    rw [stringOf_of_cell? hcell hdecode, stringOf_of_cell? hcell' hdecode'] at heq
    rw [heq, hdecode'] at hdecode
    exact h.sound.atoms.eq_of_text hcell (Option.some.inj hdecode ▸ hcell')
  · intro string hstring
    obtain ⟨hmem, hnew⟩ := (mem_newStrings _ _ _).1 hstring
    obtain ⟨index, hindex⟩ := List.mem_iff_getElem?.1 hmem
    obtain ⟨atom, text, hatom, hdecode, hcell⟩ := h.fits.entry index string hindex
    refine ⟨atom.id, (h.mem_added_iff _).2 ⟨?_, atom, ?_, rfl⟩, stringOf_of_cell? hcell hdecode⟩
    · rwa [← h.holdsAtom_iff hcell hdecode]
    · exact List.mem_iff_getElem?.2 ⟨index, hatom⟩
  · intro id hid
    obtain ⟨_, atom, hatom, rfl⟩ := (h.mem_added_iff id).1 hid
    obtain ⟨string, _, text, hdecode, hcell⟩ := h.fits.atom_of_mem hatom
    rw [stringOf_of_cell? hcell hdecode, h.sound.atoms.bytesAt_eq hcell,
      charge_atom_of_decode? hdecode]

/-- The cells that a draft reaches are charged what those of its base were, what
the script is, and what the new strings need. -/
theorem reachedBytes_eq (h : Draft base script content bytes stored ∅ heap) :
    heap.reachedBytes = base.reachedBytes + bytes + base.newBytes stored := by
  have hsubset : base.reached ⊆ heap.reached := by
    intro id hid
    exact (mem_reached _ _).2 (h.reached_of_base id ((mem_reached _ _).1 hid))
  have hscript : script.id ∈ heap.reached \ base.reached := by
    rw [Finset.mem_sdiff, mem_reached, mem_reached]
    exact ⟨h.reaches_script, h.fresh⟩
  have hbase : heap.bytesOf base.reached = base.reachedBytes :=
    bytesOf_congr fun id hid => h.slots id ((mem_reached _ _).1 hid)
  have hadded := h.bytesOf_added
  rw [bytesOf] at hbase hadded
  rw [reachedBytes, bytesOf, ← Finset.sum_sdiff hsubset, ← Finset.add_sum_erase _ _ hscript, hbase,
    hadded, h.bytes_eq]
  omega

end Draft

end ScriptLinker.Heap
