import ScriptLinker.Proofs.Room
/-!
# A script under construction

`Draft base script content bytes stored loose heap` describes a heap on which a
script is built that has not been on the heap `base`: what the roots of `base`
reach is as it was, the script is rooted and holds `content`, the first entries
of its atom table are the atoms of `stored`, and nothing else is reached but for
the addresses in `loose`. Making room keeps a draft, rewriting the script
advances it, and `Draft.reachedBytes_eq` says what its cells are charged.
-/

namespace ScriptLinker.Heap

/-- The slot of one script is rewritten and the rest of the heap is left alone,
but for the bytes in use and the shared images. -/
structure Rewrites (heap : Heap) (script : ScriptId) (changed : Script)
    (recharge : Nat → Nat) (after : Heap) : Prop where
  slots : after.slots = heap.slots.modify script.id.index fun slot =>
    { slot with cell := some (.script changed), bytes := recharge slot.bytes }
  rootStack : after.rootStack = heap.rootStack
  persistentRoots : after.persistentRoots = heap.persistentRoots
  freeRoots : after.freeRoots = heap.freeRoots
  limits : after.limits = heap.limits
  failureCountdown : after.failureCountdown = heap.failureCountdown

theorem rewrites_create (heap : Heap) (script : ScriptId) (changed : Script) (bytes : Nat) :
    heap.Rewrites script changed (· + bytes)
      ((heap.charged script.id bytes).setScript script changed) := by
  refine ⟨?_, rfl, rfl, rfl, rfl, rfl⟩
  simp only [slots_setScript, charged, modifySlot, modify_modify]

theorem rewrites_setScript (heap : Heap) (script : ScriptId) (changed : Script) :
    heap.Rewrites script changed id (heap.setScript script changed) :=
  ⟨rfl, rfl, rfl, rfl, rfl, rfl⟩

theorem rewrites_store (heap : Heap) (script : ScriptId) (changed : Script) (ref : CellRef) :
    heap.Rewrites script changed id
      ((heap.setScript script changed).recordStore script.id ref) :=
  ⟨rfl, rfl, rfl, rfl, rfl, rfl⟩

theorem rewrites_share {heap : Heap} {script : ScriptId} {content : Script}
    (hscript : heap.script script = .ok content) (image : ScriptImage) (changed : Script) :
    heap.Rewrites script changed (heap.sealedBytes image)
      (((heap.charged script.id Charge.hold).shelved script image).2.setScript script changed) := by
  obtain ⟨held, hheld, _⟩ := slot_of_script hscript
  have hframe := frame_shelved script image (heap.charged script.id Charge.hold)
  refine ⟨slots_share hheld image changed, ?_, hframe.persistentRoots, hframe.freeRoots,
    hframe.limits, ?_⟩
  · exact rootStack_shelved script image (heap.charged script.id Charge.hold)
  · exact failureCountdown_shelved script image (heap.charged script.id Charge.hold)

namespace Rewrites

variable {heap after : Heap} {script : ScriptId} {content changed : Script}
  {recharge : Nat → Nat}

theorem others (h : heap.Rewrites script changed recharge after) {index : Nat}
    (hindex : index ≠ script.id.index) : after.slots[index]? = heap.slots[index]? := by
  rw [h.slots, Array.getElem?_modify, if_neg hindex.symm]

theorem cell? (h : heap.Rewrites script changed recharge after)
    (hscript : heap.script script = .ok content) (id : CellId) :
    after.cell? id = if id = script.id then some (.script changed) else heap.cell? id := by
  rw [← cell?_setScript hscript changed id]
  by_cases hindex : id.index = script.id.index
  · obtain ⟨held, hheld, _, _⟩ := slot_of_script hscript
    simp only [Heap.cell?, cellAt?, slotAt?, h.slots, slots_setScript, Array.getElem?_modify,
      hindex, if_pos, hheld, Option.map_some]
    by_cases hgeneration : held.generation = id.generation <;>
      simp [Option.filter, hgeneration]
  · simp only [Heap.cell?, cellAt?, slotAt?, h.others hindex, slots_setScript,
      Array.getElem?_modify, if_neg (Ne.symm hindex)]

theorem bytesAt_eq (h : heap.Rewrites script changed recharge after)
    (hscript : heap.script script = .ok content) :
    after.bytesAt script.id.index = recharge (heap.bytesAt script.id.index) := by
  obtain ⟨held, hheld, _, _⟩ := slot_of_script hscript
  simp [bytesAt, Array.getD_eq_getD_getElem?, h.slots, Array.getElem?_modify, hheld]

theorem roots_eq (h : heap.Rewrites script changed recharge after) : after.roots = heap.roots := by
  simp only [roots, h.rootStack, h.persistentRoots]

/-- The address of the script stays alive, and so does every other. -/
theorem isLive_eq (h : heap.Rewrites script changed recharge after)
    (hscript : heap.script script = .ok content) (id : CellId) :
    after.isLive id = heap.isLive id := by
  rw [isLive, h.cell? hscript, isLive]
  split
  · rename_i heq
    rw [heq, (script_eq_ok_iff heap script content).1 hscript]
    rfl
  · rfl

/-- Atoms are left alone. -/
theorem cell?_atom (h : heap.Rewrites script changed recharge after)
    (hscript : heap.script script = .ok content) {id : CellId} {text : String}
    (hatom : heap.cell? id = some (.atom text)) : after.cell? id = some (.atom text) := by
  rw [h.cell? hscript, if_neg, hatom]
  rintro rfl
  rw [(script_eq_ok_iff heap script content).1 hscript] at hatom
  simp at hatom

end Rewrites

/-- What was reached before a cell is placed is reached after it. -/
theorem Placed.reaches {heap after : Heap} {cell : Cell} {bytes : Nat} {id : CellId}
    (h : heap.Placed cell bytes id after) {other : CellId} (hother : heap.Reaches other) :
    after.Reaches other := by
  refine hother.of_embedding (fun ref href => ?_) fun source found _ hfound => ?_
  · simpa only [roots, h.rootStack, h.persistentRoots] using href
  · refine ⟨found, ?_, fun _ href => href⟩
    rw [h.cell?, if_neg, hfound]
    rintro rfl
    simp [h.not_live] at hfound

/-- A new cell without references adds at most itself to what is reached; it may
do so, through a root or an edge that was stale. -/
theorem Placed.reaches_cases {heap after : Heap} {cell : Cell} {bytes : Nat} {id : CellId}
    (h : heap.Placed cell bytes id after) (hleaf : cell.references = []) {other : CellId}
    (hother : after.Reaches other) : heap.Reaches other ∨ other = id := by
  have hlive : ∀ {target : CellId}, after.isLive target = true → target ≠ id →
      heap.isLive target = true := by
    intro target htarget hne
    rwa [isLive, h.cell?, if_neg hne] at htarget
  refine Reaches.of_closed (P := fun other => heap.Reaches other ∨ other = id) ?_ ?_ hother
  · intro ref href hrefLive
    by_cases hne : ref.id = id
    · exact Or.inr hne
    · refine Or.inl (.of_root ?_ (hlive hrefLive hne))
      simpa only [roots, h.rootStack, h.persistentRoots] using href
  · intro source ref hsource hedge hrefLive
    obtain ⟨found, hfound, href⟩ := (edge_iff after source ref).1 hedge
    rw [h.cell?] at hfound
    split at hfound
    · rw [← Option.some.inj hfound, hleaf] at href
      simp at href
    · rename_i hold
      by_cases hne : ref.id = id
      · exact Or.inr hne
      · refine Or.inl (.edge (hsource.resolve_right hold) ?_ (hlive hrefLive hne))
        exact (edge_iff heap source ref).2 ⟨found, hfound, href⟩

theorem reaches_pushRoot {heap : Heap} {id : CellId} (h : heap.Reaches id) (ref : CellRef) :
    (heap.pushRoot ref).Reaches id := by
  refine h.of_embedding (fun root hroot => ?_) fun source cell _ hcell => ?_
  · simp only [roots, rootStack_pushRoot, List.mem_append] at hroot ⊢
    exact hroot.imp_left Or.inl
  · exact ⟨cell, hcell, fun _ hmem => hmem⟩

/-- A root to a cell without references adds that cell to what is reached. -/
theorem reaches_pushRoot_cases {heap : Heap} {ref : CellRef} {cell : Cell}
    (hcell : heap.cell? ref.id = some cell) (hleaf : cell.references = []) {id : CellId}
    (h : (heap.pushRoot ref).Reaches id) : heap.Reaches id ∨ id = ref.id := by
  refine Reaches.of_closed (P := fun id => heap.Reaches id ∨ id = ref.id) ?_ ?_ h
  · intro root hroot hlive
    simp only [roots, rootStack_pushRoot, List.mem_append, List.mem_singleton] at hroot
    rcases hroot with (hstack | rfl) | hpersistent
    · exact Or.inl (.of_root (List.mem_append_left _ hstack) hlive)
    · exact Or.inr rfl
    · exact Or.inl (.of_root (List.mem_append_right _ hpersistent) hlive)
  · intro source target hsource hedge hlive
    obtain ⟨found, hfound, htarget⟩ := (edge_iff (heap.pushRoot ref) source target).1 hedge
    rcases hsource with hreached | rfl
    · exact Or.inl (.edge hreached ((edge_iff heap source target).2 ⟨found, hfound, htarget⟩) hlive)
    · obtain rfl := Option.some.inj (hcell.symm.trans hfound)
      simp [hleaf] at htarget

/-- The part of a heap that a construction leaves as it found it. -/
structure Intact (base heap : Heap) : Prop where
  sound : heap.Sound
  slots : ∀ id, base.Reaches id → heap.slots[id.index]? = base.slots[id.index]?
  persistentRoots : heap.persistentRoots = base.persistentRoots
  freeRoots : heap.freeRoots = base.freeRoots
  limits : heap.limits = base.limits

theorem Intact.cell? {base heap : Heap} (h : base.Intact heap) {id : CellId}
    (hid : base.Reaches id) : heap.cell? id = base.cell? id :=
  cell?_congr (h.slots id hid)

/-- What the slots of a script hold: things that were reached before, and the
atoms of the strings stored so far. -/
structure Fits (base heap : Heap) (stored : List Bytes) (content : Script) : Prop where
  things_reached : ∀ ref, some ref ∈ content.thingSlots → base.Reaches ref.id
  entry : ∀ (index : Nat) (string : Bytes), stored[index]? = some string →
    ∃ atom text, content.atomSlots[index]? = some (some atom) ∧
      Utf8.decode? string = some text ∧ heap.cell? atom.id = some (.atom text)
  entry_lt : ∀ (index : Nat) (atom : AtomId), content.atomSlots[index]? = some (some atom) →
    index < stored.length

/-- Every entry of the atom table is the atom of a stored string. -/
theorem Fits.atom_of_mem {base heap : Heap} {stored : List Bytes} {content : Script}
    (h : Fits base heap stored content) {atom : AtomId} (hatom : some atom ∈ content.atomSlots) :
    ∃ string ∈ stored, ∃ text, Utf8.decode? string = some text ∧
      heap.cell? atom.id = some (.atom text) := by
  obtain ⟨index, hindex⟩ := List.mem_iff_getElem?.1 hatom
  have hlt := h.entry_lt index atom hindex
  have hstring := List.getElem?_eq_getElem hlt
  obtain ⟨found, text, hfound, hdecode, hcell⟩ := h.entry index _ hstring
  obtain rfl := Option.some.inj (Option.some.inj (hindex.symm.trans hfound))
  exact ⟨_, List.getElem_mem hlt, text, hdecode, hcell⟩

theorem Fits.congr {base heap after : Heap} {stored : List Bytes} {content : Script}
    (h : Fits base heap stored content)
    (hcells : ∀ atom, some atom ∈ content.atomSlots → after.cell? atom.id = heap.cell? atom.id) :
    Fits base after stored content := by
  refine ⟨h.things_reached, fun index string hstring => ?_, h.entry_lt⟩
  obtain ⟨atom, text, hatom, hdecode, hcell⟩ := h.entry index string hstring
  exact ⟨atom, text, hatom, hdecode,
    (hcells atom (List.mem_iff_getElem?.2 ⟨index, hatom⟩)).trans hcell⟩

/-- A heap on which a script is under construction. -/
structure Draft (base : Heap) (script : ScriptId) (content : Script) (bytes : Nat)
    (stored : List Bytes) (loose : Set CellId) (heap : Heap) : Prop extends Intact base heap where
  fits : Fits base heap stored content
  script_eq : heap.script script = .ok content
  bytes_eq : heap.bytesAt script.id.index = bytes
  fresh : ¬ base.Reaches script.id
  rootStack : heap.rootStack = base.rootStack ++ [.script script]
  countdown_eq_none : base.failureCountdown = none → heap.failureCountdown = none
  reached_of_base : ∀ id, base.Reaches id → heap.Reaches id
  reached_cases : ∀ id, heap.Reaches id → base.Reaches id ∨ id = script.id ∨
    (∃ atom, some atom ∈ content.atomSlots ∧ atom.id = id) ∨ id ∈ loose

namespace Draft

variable {base heap after : Heap} {script : ScriptId} {content changed : Script}
  {bytes : Nat} {stored stored' : List Bytes} {loose : Set CellId}

theorem cell?_script (h : Draft base script content bytes stored loose heap) :
    heap.cell? script.id = some (.script content) :=
  (script_eq_ok_iff heap script content).1 h.script_eq

/-- The script is rooted. -/
theorem reaches_script (h : Draft base script content bytes stored loose heap) :
    heap.Reaches script.id := by
  have hroot : CellRef.script script ∈ heap.rootStack := by simp [h.rootStack]
  exact .stackRoot hroot ((isLive_iff heap _).2 ⟨_, h.cell?_script⟩)

/-- The script holds the atoms in its table. -/
theorem reaches_atom (h : Draft base script content bytes stored loose heap) {atom : AtomId}
    (hatom : some atom ∈ content.atomSlots) : heap.Reaches atom.id := by
  obtain ⟨_, _, text, _, hcell⟩ := h.fits.atom_of_mem hatom
  have hedge : heap.Edge script.id (.atom atom) :=
    (edge_iff heap _ _).2 ⟨_, h.cell?_script, Cell.mem_references_of_atom hatom⟩
  exact .edge h.reaches_script hedge ((isLive_iff heap _).2 ⟨_, hcell⟩)

/-- Making room keeps a draft. -/
theorem keeps (h : Draft base script content bytes stored loose heap) (hkeeps : heap.Keeps after)
    (hsound : after.Sound) : Draft base script content bytes stored loose after where
  sound := hsound
  slots := fun id hid => (hkeeps.slots id (h.reached_of_base id hid)).trans (h.slots id hid)
  persistentRoots := hkeeps.persistentRoots.trans h.persistentRoots
  freeRoots := hkeeps.freeRoots.trans h.freeRoots
  limits := hkeeps.limits.trans h.limits
  fits := h.fits.congr fun _ hatom => hkeeps.cell? (h.reaches_atom hatom)
  script_eq := (script_congr (hkeeps.cell? h.reaches_script)).trans h.script_eq
  bytes_eq := (bytesAt_congr (hkeeps.slots _ h.reaches_script)).trans h.bytes_eq
  fresh := h.fresh
  rootStack := hkeeps.rootStack.trans h.rootStack
  countdown_eq_none := fun hnone => hkeeps.countdown_eq_none (h.countdown_eq_none hnone)
  reached_of_base := fun id hid => (hkeeps.reaches_iff id).2 (h.reached_of_base id hid)
  reached_cases := fun id hid => h.reached_cases id ((hkeeps.reaches_iff id).1 hid)

/-- What is reached before the script was is not the script. -/
theorem ne_of_reaches (h : Draft base script content bytes stored loose heap) {id : CellId}
    (hid : base.Reaches id) : id ≠ script.id := by
  rintro rfl
  exact h.fresh hid

/-- Whatever a draft reaches has its place in a script that holds what it held and
takes up what was loose. -/
theorem reached_cases_of_refs (h : Draft base script content bytes stored loose heap)
    (hrefs : ∀ ref ∈ (Cell.script content).references, ref ∈ (Cell.script changed).references)
    (hfits : Fits base heap stored' changed)
    (hloose : ∀ id ∈ loose, ∃ atom, some atom ∈ changed.atomSlots ∧ atom.id = id) {id : CellId}
    (hid : heap.Reaches id) :
    base.Reaches id ∨ id = script.id ∨ ∃ atom, some atom ∈ changed.atomSlots ∧ atom.id = id := by
  rcases h.reached_cases id hid with hbase | hscript | ⟨atom, hatom, rfl⟩ | hmem
  · exact Or.inl hbase
  · exact Or.inr (Or.inl hscript)
  · have hold := (Cell.mem_references_script content (.atom atom)).2 (Or.inr ⟨atom, hatom, rfl⟩)
    have href := hrefs (.atom atom) hold
    rcases (Cell.mem_references_script _ _).1 href with hthing | ⟨other, hmem, heq⟩
    · exact Or.inl (hfits.things_reached _ hthing)
    · exact Or.inr (Or.inr ⟨other, hmem, by rw [CellRef.atom.inj heq]⟩)
  · exact Or.inr (Or.inr (hloose id hmem))

/-- The base stays reached when the script is rewritten. -/
theorem reaches_rewrite {recharge : Nat → Nat}
    (h : Draft base script content bytes stored loose heap)
    (hrewrites : heap.Rewrites script changed recharge after)
    (hrefs : ∀ ref ∈ (Cell.script content).references, ref ∈ (Cell.script changed).references)
    {id : CellId} (hid : base.Reaches id) : after.Reaches id := by
  have hcells := hrewrites.cell? h.script_eq
  refine (h.reached_of_base id hid).of_embedding (fun ref href => hrewrites.roots_eq ▸ href) ?_
  intro source cell _ hcell
  by_cases hsource : source = script.id
  · rw [hsource, h.cell?_script] at hcell
    obtain rfl := Option.some.inj hcell
    exact ⟨_, by rw [hcells, if_pos hsource], hrefs⟩
  · exact ⟨cell, by rw [hcells, if_neg hsource, hcell], fun _ href => href⟩

/-- Nothing is reached after the script is rewritten but the base, the script and
the atoms it holds then. -/
theorem reached_cases_rewrite {recharge : Nat → Nat}
    (h : Draft base script content bytes stored loose heap)
    (hrewrites : heap.Rewrites script changed recharge after)
    (hrefs : ∀ ref ∈ (Cell.script content).references, ref ∈ (Cell.script changed).references)
    (hfits : Fits base heap stored' changed)
    (hloose : ∀ id ∈ loose, ∃ atom, some atom ∈ changed.atomSlots ∧ atom.id = id) {id : CellId}
    (hid : after.Reaches id) :
    base.Reaches id ∨ id = script.id ∨ ∃ atom, some atom ∈ changed.atomSlots ∧ atom.id = id := by
  have hcells := hrewrites.cell? h.script_eq
  have hlive := hrewrites.isLive_eq h.script_eq
  refine Reaches.of_closed (P := fun id => base.Reaches id ∨ id = script.id ∨
    ∃ atom, some atom ∈ changed.atomSlots ∧ atom.id = id) ?_ ?_ hid
  · intro ref href hrefLive
    exact h.reached_cases_of_refs hrefs hfits hloose
      (.of_root (hrewrites.roots_eq ▸ href) (hlive _ ▸ hrefLive))
  · intro source ref hsource hedge hrefLive
    obtain ⟨cell, hcell, href⟩ := (edge_iff after source ref).1 hedge
    rcases hsource with hbase | rfl | ⟨atom, hatom, rfl⟩
    · rw [hcells, if_neg (h.ne_of_reaches hbase)] at hcell
      have hold : heap.Edge source ref := (edge_iff heap source ref).2 ⟨cell, hcell, href⟩
      exact h.reached_cases_of_refs hrefs hfits hloose
        (.edge (h.reached_of_base source hbase) hold (hlive _ ▸ hrefLive))
    · rw [hcells, if_pos rfl] at hcell
      obtain rfl := Option.some.inj hcell
      rcases (Cell.mem_references_script _ _).1 href with hthing | ⟨atom, hatom, rfl⟩
      · exact Or.inl (hfits.things_reached _ hthing)
      · exact Or.inr (Or.inr ⟨atom, hatom, rfl⟩)
    · obtain ⟨_, _, text, _, htext⟩ := hfits.atom_of_mem hatom
      rw [hrewrites.cell?_atom h.script_eq htext] at hcell
      obtain rfl := Option.some.inj hcell
      simp [Cell.references] at href

/-- Rewriting the script advances a draft: it may gain references, to what was
reached before and to atoms, and it has to take up what was loose. -/
theorem rewrite {recharge : Nat → Nat} (h : Draft base script content bytes stored loose heap)
    (hrewrites : heap.Rewrites script changed recharge after) (hsound : after.Sound)
    (hrefs : ∀ ref ∈ (Cell.script content).references, ref ∈ (Cell.script changed).references)
    (hfits : Fits base heap stored' changed)
    (hloose : ∀ id ∈ loose, ∃ atom, some atom ∈ changed.atomSlots ∧ atom.id = id) :
    Draft base script changed (recharge bytes) stored' ∅ after where
  sound := hsound
  slots := by
    intro id hid
    have hindex : id.index ≠ script.id.index := fun heq =>
      h.ne_of_reaches hid (eq_of_isLive_of_index_eq (h.reached_of_base id hid).isLive
        h.reaches_script.isLive heq)
    rw [hrewrites.others hindex, h.slots id hid]
  persistentRoots := hrewrites.persistentRoots.trans h.persistentRoots
  freeRoots := hrewrites.freeRoots.trans h.freeRoots
  limits := hrewrites.limits.trans h.limits
  fits := by
    refine hfits.congr fun atom hatom => ?_
    obtain ⟨_, _, text, _, hcell⟩ := hfits.atom_of_mem hatom
    rw [hrewrites.cell?_atom h.script_eq hcell, hcell]
  script_eq := by rw [script_eq_ok_iff, hrewrites.cell? h.script_eq, if_pos rfl]
  bytes_eq := by rw [hrewrites.bytesAt_eq h.script_eq, h.bytes_eq]
  fresh := h.fresh
  rootStack := hrewrites.rootStack.trans h.rootStack
  countdown_eq_none := fun hnone => hrewrites.failureCountdown.trans (h.countdown_eq_none hnone)
  reached_of_base := fun id hid => h.reaches_rewrite hrewrites hrefs hid
  reached_cases := by
    intro id hid
    rcases h.reached_cases_rewrite hrewrites hrefs hfits hloose hid with hbase | hscript | hatom
    · exact Or.inl hbase
    · exact Or.inr (Or.inl hscript)
    · exact Or.inr (Or.inr (Or.inl hatom))

/-- A new atom may be loose for a while. -/
theorem placed_atom {text : String} {id : CellId}
    (h : Draft base script content bytes stored ∅ heap)
    (habsent : heap.internedAtom? text = none)
    (hplaces : heap.Places (.atom text) (Charge.atom text) id after) :
    Draft base script content bytes stored {id} (after.enterAtom text ⟨id⟩) := by
  have hplaced := hplaces.placed h.sound.slots
  have hsound := h.sound.birth (.atom habsent hplaces)
  have hslots : ∀ other, heap.isLive other = true →
      (after.enterAtom text ⟨id⟩).slots[other.index]? = heap.slots[other.index]? :=
    fun _ => hplaced.slot_of_isLive
  have hcells : ∀ other, heap.isLive other = true →
      (after.enterAtom text ⟨id⟩).cell? other = heap.cell? other :=
    fun other hlive => cell?_congr (hslots other hlive)
  have hreaches : ∀ other, (after.enterAtom text ⟨id⟩).Reaches other ↔ after.Reaches other :=
    reaches_congr rfl fun _ => rfl
  refine ⟨⟨hsound, ?_, ?_, ?_, ?_⟩, ?_, ?_, ?_, h.fresh, ?_, ?_, ?_, ?_⟩
  · exact fun other hother => (hslots other (h.reached_of_base other hother).isLive).trans
      (h.slots other hother)
  · exact hplaced.persistentRoots.trans h.persistentRoots
  · exact hplaced.freeRoots.trans h.freeRoots
  · exact hplaced.limits.trans h.limits
  · exact h.fits.congr fun atom hatom => hcells _ (h.reaches_atom hatom).isLive
  · exact (script_congr (hcells _ h.reaches_script.isLive)).trans h.script_eq
  · exact (bytesAt_congr (hslots _ h.reaches_script.isLive)).trans h.bytes_eq
  · exact hplaced.rootStack.trans h.rootStack
  · exact fun hnone => hplaced.failureCountdown.trans (h.countdown_eq_none hnone)
  · exact fun other hother => (hreaches other).2 (hplaced.reaches (h.reached_of_base other hother))
  · intro other hother
    rcases hplaced.reaches_cases rfl ((hreaches other).1 hother) with hold | rfl
    · rcases h.reached_cases other hold with hbase | hscript | hatom | hloose
      · exact Or.inl hbase
      · exact Or.inr (Or.inl hscript)
      · exact Or.inr (Or.inr (Or.inl hatom))
      · exact absurd hloose (Set.notMem_empty other)
    · exact Or.inr (Or.inr (Or.inr rfl))

end Draft

end ScriptLinker.Heap
