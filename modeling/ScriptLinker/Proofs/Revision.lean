import Mathlib.Tactic.Basic
import ScriptLinker.Heap.Script
/-!
# How a script is built

A script is revised in small steps: a part is created, a reference stored, the
flags or the owned image replaced, the image published. The equations below say
when each of them succeeds and what it leaves; only a store adds a reference.
-/

namespace ScriptLinker

/-- Two steps succeed if both do. -/
theorem bind_eq_ok_iff {ε α β : Type} (first : Except ε α) (next : α → Except ε β) (value : β) :
    (first >>= next) = .ok value ↔ ∃ middle, first = .ok middle ∧ next middle = .ok value := by
  cases first <;> simp [bind, Except.bind]

theorem Cell.mem_references_script (content : Script) (ref : CellRef) :
    ref ∈ (Cell.script content).references ↔
      some ref ∈ content.thingSlots ∨
        ∃ atom, some atom ∈ content.atomSlots ∧ ref = .atom atom := by
  simp only [Cell.references, List.mem_append, List.mem_filterMap]
  constructor
  · rintro (⟨slot, hslot, hsome⟩ | ⟨slot, hslot, hsome⟩)
    · exact Or.inl (by simpa [id_eq] using hsome ▸ hslot)
    · obtain ⟨atom, rfl, rfl⟩ := Option.map_eq_some_iff.1 hsome
      exact Or.inr ⟨atom, hslot, rfl⟩
  · rintro (hslot | ⟨atom, hslot, rfl⟩)
    · exact Or.inl ⟨some ref, hslot, rfl⟩
    · exact Or.inr ⟨some atom, hslot, rfl⟩

theorem Cell.mem_references_of_atom {content : Script} {atom : AtomId}
    (hatom : some atom ∈ content.atomSlots) : .atom atom ∈ (Cell.script content).references :=
  (Cell.mem_references_script _ _).2 (Or.inr ⟨atom, hatom, rfl⟩)

namespace Script

/-- A part is created in a script that lacks it, for that many bytes. -/
inductive Grows (content : Script) : Nat → Script → Prop where
  | things (count : Nat) : content.requireMissing .things = .ok () →
      Grows content (Charge.things count)
        { content with things := some (List.replicate count none) }
  | atoms (count : Nat) : content.requireMissing .atoms = .ok () →
      Grows content (Charge.atoms count)
        { content with atoms := some (List.replicate count none) }
  | image (codeLength noteLength : Nat) : content.requireMissing .image = .ok () →
      Grows content (Charge.image (codeLength + noteLength))
        { content with image := .owned (.blank codeLength noteLength) }

/-- A reference is put into a slot of a script. -/
inductive Stores (content : Script) : CellRef → Script → Prop where
  | thing {index : Nat} {ref : CellRef} {changed : Script} :
      content.setThing index ref = .ok changed → Stores content ref changed
  | atom {index : Nat} {atom : AtomId} {changed : Script} :
      content.setAtom index atom = .ok changed → Stores content (.atom atom) changed

/-- The flags of a script are replaced, or the image it owns is, by one of the
same length. -/
inductive Edits (content : Script) : Script → Prop where
  | flags {flags : ScriptFlags} {changed : Script} :
      content.setFlags flags = .ok changed → Edits content changed
  | image {image changed : ScriptImage} :
      content.image = .owned image → changed.totalLength = image.totalLength →
      Edits content { content with image := .owned changed }

/-- One step in the building of a script. -/
inductive Revises (content : Script) : Script → Prop where
  | grow {bytes : Nat} {changed : Script} : content.Grows bytes changed → Revises content changed
  | store {ref : CellRef} {changed : Script} :
      content.Stores ref changed → Revises content changed
  | edit {changed : Script} : content.Edits changed → Revises content changed
  | publish {object : SharedImage} : content.image = .owned object.image →
      Revises content { content with image := .shared object }

theorem requireMissing_eq_ok_iff (content : Script) (part : ScriptPart) :
    content.requireMissing part = .ok () ↔ content.isSealed = false ∧ content.has part = false := by
  unfold requireMissing requireUnsealed
  cases content.isSealed <;> cases content.has part <;> simp [bind, Except.bind]

theorem setThing_eq_ok_iff (content changed : Script) (index : Nat) (ref : CellRef) :
    content.setThing index ref = .ok changed ↔ content.isSealed = false ∧
      ∃ slots, content.things = some slots ∧ index < slots.length ∧
        changed = { content with things := some (slots.set index (some ref)) } := by
  unfold setThing requireUnsealed setSlot
  cases content.isSealed with
  | true => simp [bind, Except.bind]
  | false =>
      cases content.things with
      | none => simp [bind, Except.bind]
      | some slots =>
          by_cases hindex : index < slots.length <;>
            simp [bind, Except.bind, pure, Except.pure, hindex, eq_comm]

theorem setAtom_eq_ok_iff (content changed : Script) (index : Nat) (atom : AtomId) :
    content.setAtom index atom = .ok changed ↔ content.isSealed = false ∧
      ∃ slots, content.atoms = some slots ∧ index < slots.length ∧
        changed = { content with atoms := some (slots.set index (some atom)) } := by
  unfold setAtom requireUnsealed setSlot
  cases content.isSealed with
  | true => simp [bind, Except.bind]
  | false =>
      cases content.atoms with
      | none => simp [bind, Except.bind]
      | some slots =>
          by_cases hindex : index < slots.length <;>
            simp [bind, Except.bind, pure, Except.pure, hindex, eq_comm]

theorem setFlags_eq_ok_iff (content changed : Script) (flags : ScriptFlags) :
    content.setFlags flags = .ok changed ↔
      content.isSealed = false ∧ changed = { content with flags } := by
  unfold setFlags requireUnsealed
  cases content.isSealed <;> simp [bind, Except.bind, pure, Except.pure, eq_comm]

theorem ownedImage_eq_ok_iff (content : Script) (image : ScriptImage) :
    content.ownedImage = .ok image ↔ content.image = .owned image := by
  unfold ownedImage
  cases content.image <;> simp

/-- A new part holds no references. -/
theorem Grows.references_eq {content changed : Script} {bytes : Nat}
    (h : content.Grows bytes changed) :
    (Cell.script changed).references = (Cell.script content).references := by
  cases h with
  | things count hmissing =>
      have hnone : content.things = none := by
        simpa [has] using ((requireMissing_eq_ok_iff _ _).1 hmissing).2
      simp [Cell.references, thingSlots, atomSlots, hnone]
  | atoms count hmissing =>
      have hnone : content.atoms = none := by
        simpa [has] using ((requireMissing_eq_ok_iff _ _).1 hmissing).2
      simp [Cell.references, thingSlots, atomSlots, hnone]
  | image codeLength noteLength _ => rfl

/-- Storing a reference adds no other. -/
theorem Stores.references {content changed : Script} {stored : CellRef}
    (h : content.Stores stored changed) {ref : CellRef}
    (href : ref ∈ (Cell.script changed).references) :
    ref ∈ (Cell.script content).references ∨ ref = stored := by
  rw [Cell.mem_references_script] at href ⊢
  cases h with
  | @thing index _ _ hset =>
      obtain ⟨_, slots, hslots, _, rfl⟩ := (setThing_eq_ok_iff _ _ _ _).1 hset
      rcases href with hthing | hatom
      · rcases List.mem_or_eq_of_mem_set hthing with hold | hnew
        · exact Or.inl (Or.inl (by simpa [thingSlots, hslots] using hold))
        · exact Or.inr (Option.some.inj hnew)
      · exact Or.inl (Or.inr hatom)
  | @atom index stored _ hset =>
      obtain ⟨_, slots, hslots, _, rfl⟩ := (setAtom_eq_ok_iff _ _ _ _).1 hset
      rcases href with hthing | ⟨atom, hatom, rfl⟩
      · exact Or.inl (Or.inl hthing)
      · rcases List.mem_or_eq_of_mem_set hatom with hold | hnew
        · exact Or.inl (Or.inr ⟨atom, by simpa [atomSlots, hslots] using hold, rfl⟩)
        · exact Or.inr (by rw [Option.some.inj hnew])

theorem Edits.references {content changed : Script} (h : content.Edits changed) :
    (Cell.script changed).references = (Cell.script content).references := by
  cases h with
  | flags hset =>
      obtain ⟨_, rfl⟩ := (setFlags_eq_ok_iff _ _ _).1 hset
      rfl
  | image _ _ => rfl

end Script

end ScriptLinker
