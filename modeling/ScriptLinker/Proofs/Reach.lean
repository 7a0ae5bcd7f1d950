import Mathlib.Data.Finset.Image
import ScriptLinker.Heap.Root
import ScriptLinker.Proofs.Revision
/-!
# What the roots reach

`heap.Reaches id` says that a chain of edges with live ends leads from a stack
root or a persistent root to the cell at `id`. The edges are read off the
contents of scopes and scripts, not off the order in which a collection follows
them; `edge_iff` ties the two together. Two heaps are compared by what their
roots reach with `Reaches.of_embedding` and `Reaches.of_closed`.
-/

namespace ScriptLinker.Heap

/-- The references that live cells hold: the enclosing scope of a scope, the
things and the atoms of a script. -/
inductive Edge (heap : Heap) : CellId → CellRef → Prop where
  | enclosing {id : CellId} {content : Scope} {outer : ScopeId} :
      heap.cell? id = some (.scope content) → content.enclosing = some outer →
      Edge heap id (.scope outer)
  | thing {id : CellId} {content : Script} {slots : List (Option CellRef)} {ref : CellRef} :
      heap.cell? id = some (.script content) → content.things = some slots →
      some ref ∈ slots → Edge heap id ref
  | atom {id : CellId} {content : Script} {slots : List (Option AtomId)} {atom : AtomId} :
      heap.cell? id = some (.script content) → content.atoms = some slots →
      some atom ∈ slots → Edge heap id (.atom atom)

/-- The cells that the roots reach over edges with live ends. -/
inductive Reaches (heap : Heap) : CellId → Prop where
  | stackRoot {ref : CellRef} :
      ref ∈ heap.rootStack → heap.isLive ref.id = true → Reaches heap ref.id
  | persistentRoot {root : RootId} {ref : CellRef} :
      heap.root? root = some ref → heap.isLive ref.id = true → Reaches heap ref.id
  | edge {source : CellId} {ref : CellRef} :
      Reaches heap source → heap.Edge source ref → heap.isLive ref.id = true →
      Reaches heap ref.id

/-- The edges out of a cell are the references a collection follows. -/
theorem edge_iff (heap : Heap) (id : CellId) (ref : CellRef) :
    heap.Edge id ref ↔ ∃ cell, heap.cell? id = some cell ∧ ref ∈ cell.references := by
  constructor
  · intro h
    cases h with
    | enclosing hcell houter =>
        exact ⟨_, hcell, by simp [Cell.references, houter]⟩
    | thing hcell hthings hslot =>
        refine ⟨_, hcell, (Cell.mem_references_script _ _).2 (Or.inl ?_)⟩
        simpa [Script.thingSlots, hthings] using hslot
    | atom hcell hatoms hslot =>
        refine ⟨_, hcell, (Cell.mem_references_script _ _).2 (Or.inr ⟨_, ?_, rfl⟩)⟩
        simpa [Script.atomSlots, hatoms] using hslot
  · rintro ⟨cell, hcell, href⟩
    cases cell with
    | atom text => simp [Cell.references] at href
    | scope content =>
        obtain ⟨outer, houter, rfl⟩ := Option.map_eq_some_iff.1 (Option.mem_toList.1 href)
        exact .enclosing hcell houter
    | script content =>
        rcases (Cell.mem_references_script content ref).1 href with hslot | ⟨atom, hslot, rfl⟩
        · cases hthings : content.things with
          | none => simp [Script.thingSlots, hthings] at hslot
          | some slots =>
              exact .thing hcell hthings (by simpa [Script.thingSlots, hthings] using hslot)
        · cases hatoms : content.atoms with
          | none => simp [Script.atomSlots, hatoms] at hslot
          | some slots =>
              exact .atom hcell hatoms (by simpa [Script.atomSlots, hatoms] using hslot)

theorem mem_roots_iff (heap : Heap) (ref : CellRef) :
    ref ∈ heap.roots ↔ ref ∈ heap.rootStack ∨ ∃ root, heap.root? root = some ref := by
  simp only [roots, List.mem_append, List.mem_filterMap, id_eq, root?, Option.join_eq_some_iff]
  apply or_congr Iff.rfl
  constructor
  · rintro ⟨slot, hslot, rfl⟩
    obtain ⟨index, hindex⟩ := List.mem_iff_getElem?.1 hslot
    exact ⟨⟨index⟩, by simpa using hindex⟩
  · rintro ⟨root, hroot⟩
    exact ⟨some ref, List.mem_iff_getElem?.2 ⟨root.index, by simpa using hroot⟩, rfl⟩

theorem Reaches.of_root {heap : Heap} {ref : CellRef} (href : ref ∈ heap.roots)
    (hlive : heap.isLive ref.id = true) : heap.Reaches ref.id := by
  rcases (mem_roots_iff heap ref).1 href with hstack | ⟨root, hroot⟩
  · exact .stackRoot hstack hlive
  · exact .persistentRoot hroot hlive

theorem Reaches.isLive {heap : Heap} {id : CellId} (h : heap.Reaches id) :
    heap.isLive id = true := by
  cases h with
  | stackRoot _ hlive => exact hlive
  | persistentRoot _ hlive => exact hlive
  | edge _ _ hlive => exact hlive

/-- A set of cells that holds the live roots and is closed under edges to live
cells holds all that is reached. -/
theorem Reaches.of_closed {heap : Heap} {P : CellId → Prop}
    (hroots : ∀ ref ∈ heap.roots, heap.isLive ref.id = true → P ref.id)
    (hclosed : ∀ id ref, P id → heap.Edge id ref → heap.isLive ref.id = true → P ref.id)
    {id : CellId} (h : heap.Reaches id) : P id := by
  induction h with
  | stackRoot href hlive => exact hroots _ ((mem_roots_iff _ _).2 (Or.inl href)) hlive
  | persistentRoot hroot hlive =>
      exact hroots _ ((mem_roots_iff _ _).2 (Or.inr ⟨_, hroot⟩)) hlive
  | edge _ hedge hlive ih => exact hclosed _ _ ih hedge hlive

/-- What one heap reaches another one reaches too, if it has the same roots or
more and every reached cell holds the same references there or more. -/
theorem Reaches.of_embedding {heap other : Heap}
    (hroots : ∀ ref ∈ heap.roots, ref ∈ other.roots)
    (hcells : ∀ id cell, heap.Reaches id → heap.cell? id = some cell →
      ∃ cell', other.cell? id = some cell' ∧ ∀ ref ∈ cell.references, ref ∈ cell'.references)
    {id : CellId} (h : heap.Reaches id) : other.Reaches id := by
  have hlive : ∀ {id : CellId}, heap.Reaches id → other.isLive id = true := by
    intro id hid
    obtain ⟨cell, hcell⟩ := (isLive_iff heap id).1 hid.isLive
    obtain ⟨cell', hcell', _⟩ := hcells id cell hid hcell
    exact (isLive_iff other id).2 ⟨cell', hcell'⟩
  induction h with
  | stackRoot href hroot =>
      have hmem := (mem_roots_iff heap _).2 (Or.inl href)
      exact .of_root (hroots _ hmem) (hlive (.stackRoot href hroot))
  | persistentRoot href hroot =>
      have hmem := (mem_roots_iff heap _).2 (Or.inr ⟨_, href⟩)
      exact .of_root (hroots _ hmem) (hlive (.persistentRoot href hroot))
  | edge hsource hedge htarget ih =>
      obtain ⟨cell, hcell, href⟩ := (edge_iff heap _ _).1 hedge
      obtain ⟨cell', hcell', hsub⟩ := hcells _ cell hsource hcell
      exact .edge ih ((edge_iff other _ _).2 ⟨cell', hcell', hsub _ href⟩)
        (hlive (.edge hsource hedge htarget))

/-- Heaps with the same roots whose cells hold the same references reach the
same cells. -/
theorem reaches_congr {heap other : Heap} (hroots : other.roots = heap.roots)
    (hcells : ∀ id, (other.cell? id).map Cell.references =
      (heap.cell? id).map Cell.references) (id : CellId) :
    other.Reaches id ↔ heap.Reaches id := by
  constructor
  · refine Reaches.of_embedding (fun ref href => hroots ▸ href) fun id cell _ hcell => ?_
    have hsame := hcells id
    rw [hcell] at hsame
    obtain ⟨cell', hcell', heq⟩ := Option.map_eq_some_iff.1 hsame.symm
    exact ⟨cell', hcell', fun ref href => heq ▸ href⟩
  · refine Reaches.of_embedding (fun ref href => hroots ▸ href) fun id cell _ hcell => ?_
    have hsame := hcells id
    rw [hcell] at hsame
    obtain ⟨cell', hcell', heq⟩ := Option.map_eq_some_iff.1 hsame
    exact ⟨cell', hcell', fun ref href => heq ▸ href⟩

/-- What an address names is read off its slot. -/
theorem cell?_congr {heap after : Heap} {id : CellId}
    (h : after.slots[id.index]? = heap.slots[id.index]?) : after.cell? id = heap.cell? id := by
  simp only [cell?, cellAt?, slotAt?, h]

/-- An address that names a cell carries the current generation of its slot. -/
theorem isLive_iff_slot (heap : Heap) (id : CellId) :
    heap.isLive id = true ↔
      ∃ slot, heap.slots[id.index]? = some slot ∧ slot.generation = id.generation ∧
        slot.cell.isSome = true := by
  simp only [isLive_iff, cell?, cellAt?_eq_some_iff, Option.isSome_iff_exists]
  constructor
  · rintro ⟨cell, slot, hslot, hgeneration, hcell⟩
    exact ⟨slot, hslot, hgeneration, cell, hcell⟩
  · rintro ⟨slot, hslot, hgeneration, cell, hcell⟩
    exact ⟨cell, slot, hslot, hgeneration, hcell⟩

/-- A slot holds at most one live address. -/
theorem eq_of_isLive_of_index_eq {heap : Heap} {id other : CellId}
    (hid : heap.isLive id = true) (hother : heap.isLive other = true)
    (hindex : id.index = other.index) : id = other := by
  obtain ⟨slot, hslot, hgeneration, _⟩ := (isLive_iff_slot heap id).1 hid
  obtain ⟨slot', hslot', hgeneration', _⟩ := (isLive_iff_slot heap other).1 hother
  rw [hindex, hslot'] at hslot
  cases id
  cases other
  simp_all

end ScriptLinker.Heap
