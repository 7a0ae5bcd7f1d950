import ScriptLinker.Proofs.Interning
import ScriptLinker.Proofs.Ledger
/-!
# Sound heaps

A heap is `Sound` if its slot table, its ledger and its table of atoms are. An
empty heap is, and moves, collections, births and changes of the persistent
roots keep it so. Every operation of a heap is made of these.
-/

namespace ScriptLinker

/-- A cell with the address it was placed under. -/
structure Issue where
  id : CellId
  cell : Cell
  deriving DecidableEq, Inhabited

/-- The reference that the address of a cell is handed out as. -/
def Issue.ref (issue : Issue) : CellRef :=
  .ofKind issue.cell.kind issue.id

@[simp] theorem Issue.id_ref (issue : Issue) : issue.ref.id = issue.id :=
  CellRef.id_ofKind _ _

theorem Issue.id_eq_of_ref {issue : Issue} {ref : CellRef} (h : issue.ref = ref) :
    issue.id = ref.id :=
  issue.id_ref.symm.trans (congrArg CellRef.id h)

@[simp] theorem Issue.kind_ref (issue : Issue) : issue.ref.kind = issue.cell.kind :=
  CellRef.kind_ofKind _ _

namespace Heap

/-- A cell is placed. An atom is one of a text that the table lacks, and is
entered in it. -/
inductive Birth (heap : Heap) : Issue → Heap → Prop where
  | plain {cell : Cell} {bytes : Nat} {id : CellId} {after : Heap} :
      (∀ text, cell ≠ .atom text) → heap.Places cell bytes id after →
      Birth heap ⟨id, cell⟩ after
  | atom {text : String} {id : CellId} {placed : Heap} :
      heap.internedAtom? text = none →
      heap.Places (.atom text) (Charge.atom text) id placed →
      Birth heap ⟨id, .atom text⟩ (placed.enterAtom text ⟨id⟩)

/-- But for the table of atoms, a birth is a placing. -/
theorem Birth.placed {heap after : Heap} {issue : Issue} (h : Birth heap issue after)
    (hslots : heap.SlotsSound) :
    ∃ bytes placed, heap.Placed issue.cell bytes issue.id placed ∧
      after = { placed with atoms := after.atoms } := by
  cases h with
  | plain _ hplaces => exact ⟨_, _, hplaces.placed hslots, rfl⟩
  | atom _ hplaces => exact ⟨_, _, hplaces.placed hslots, rfl⟩

/-- A birth makes the new address name the new cell and affects no other. -/
theorem Birth.cell? {heap after : Heap} {issue : Issue} (h : Birth heap issue after)
    (hslots : heap.SlotsSound) (id : CellId) :
    after.cell? id = if id = issue.id then some issue.cell else heap.cell? id := by
  obtain ⟨bytes, placed, hplaced, hafter⟩ := h.placed hslots
  rw [hafter]
  exact hplaced.cell? id

/-- What holds of the parts of every heap. -/
structure Sound (heap : Heap) : Prop where
  slots : heap.SlotsSound
  ledger : heap.LedgerSound
  atoms : heap.AtomsSound

theorem sound_ofLimits (limits : HeapLimits) : (ofLimits limits).Sound :=
  ⟨slotsSound_ofLimits limits, ledgerSound_ofLimits limits, atomsSound_ofLimits limits⟩

/-- Soundness does not depend on the roots, the flags and the counters. -/
theorem Sound.congr {heap other : Heap} (h : heap.Sound) (hslots : other.slots = heap.slots)
    (hfree : other.freeSlots = heap.freeSlots) (hused : other.usedBytes = heap.usedBytes)
    (hlimits : other.limits = heap.limits) (hthreshold : other.nextThreshold = heap.nextThreshold)
    (hatoms : other.atoms = heap.atoms) : other.Sound := by
  obtain ⟨⟨h₁, h₂, h₃⟩, ⟨h₄, h₅, h₆, h₇⟩, ⟨h₈, h₉, h₁₀, h₁₁⟩⟩ := h
  simp only [totalBytes, bytesAt, Heap.cell?, ← hslots, ← hfree, ← hused, ← hlimits, ← hthreshold,
    ← hatoms] at h₁ h₂ h₃ h₄ h₅ h₆ h₇ h₈ h₉ h₁₀ h₁₁
  exact ⟨⟨h₁, h₂, h₃⟩, ⟨h₄, h₅, h₆, h₇⟩, ⟨h₈, h₉, h₁₀, h₁₁⟩⟩

/-- Settings that are not refused only add their zeal to an empty heap. -/
theorem eq_of_ofSettings? {settings : HeapSettings} {heap : Heap}
    (h : ofSettings? settings = .ok heap) :
    heap = { ofLimits (.ofSettings settings) with zeal := settings.gcZeal } := by
  unfold ofSettings? at h
  cases hvalid : (HeapLimits.ofSettings settings).validate with
  | error error => simp [hvalid, bind, Except.bind] at h
  | ok done =>
      rw [hvalid] at h
      exact (Except.ok.inj h).symm

theorem sound_ofSettings? {settings : HeapSettings} {heap : Heap}
    (h : ofSettings? settings = .ok heap) : heap.Sound := by
  rw [eq_of_ofSettings? h]
  exact (sound_ofLimits _).congr rfl rfl rfl rfl rfl rfl

theorem Sound.move {given : Set CellRef} {heap after : Heap} (h : heap.Sound)
    (hmove : Move given heap after) : after.Sound :=
  ⟨h.slots.move hmove, h.ledger.move hmove, h.atoms.move hmove⟩

theorem Sound.collected {heap : Heap} (h : heap.Sound) : heap.collected.Sound :=
  ⟨h.slots.collected, h.ledger.collected, h.atoms.collected⟩

theorem Sound.passage {given : Set CellRef} {heap after : Heap} (h : heap.Sound)
    (hpassage : Passage given heap after) : after.Sound :=
  hpassage.keep Sound.move Sound.collected h

theorem Sound.reserve {bytes : Nat} {heap after : Heap} {result : Except HeapError Unit}
    (h : heap.Sound) (hreserve : (reserve bytes).ending heap = (result, after)) : after.Sound :=
  h.passage (passage_of_reserve hreserve : Passage ∅ heap after)

theorem Sound.birth {heap after : Heap} {issue : Issue} (h : heap.Sound)
    (hbirth : Birth heap issue after) : after.Sound := by
  cases hbirth with
  | plain hcell hplaces =>
      have hplaced := hplaces.placed h.slots
      exact ⟨h.slots.placed hplaced, h.ledger.placed hplaced, h.atoms.placed hplaced hcell⟩
  | atom habsent hplaces =>
      have hplaced := hplaces.placed h.slots
      obtain ⟨h₁, h₂, h₃⟩ := h.slots.placed hplaced
      obtain ⟨h₄, h₅, h₆, h₇⟩ := h.ledger.placed hplaced
      exact ⟨⟨h₁, h₂, h₃⟩, ⟨h₄, h₅, h₆, h₇⟩, h.atoms.placed_atom habsent hplaced⟩

theorem Sound.rerooted {heap after : Heap} (h : heap.Sound) (hroots : heap.Rerooted after) :
    after.Sound := by
  obtain ⟨roots, free, rfl⟩ := hroots
  exact h.congr rfl rfl rfl rfl rfl rfl

end Heap

end ScriptLinker
