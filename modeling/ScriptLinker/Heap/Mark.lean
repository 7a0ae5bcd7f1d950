import ScriptLinker.Heap.Basic
/-!
# Marking

A marking knows which slots it has reached, which of them it has still to
follow, and which references it met that name no cell. `visit` reaches one
reference, `drain` follows what is pending. Every slot is pending at most once,
so as many rounds as there are slots are enough.
-/

namespace ScriptLinker.Heap

structure Marking where
  /-- For each slot, whether it has been reached. -/
  marks : Array Bool
  /-- Reached cells whose references are still to follow, the next one first. -/
  pending : List CellId := []
  /-- References to cells that are gone, in the order they were met. -/
  skipped : List CellId := []
  deriving DecidableEq, Inhabited

namespace Marking

/-- No slot reached yet: the marks of the collection before are taken back. -/
def start (slots : Array Slot) : Marking where
  marks := Array.replicate slots.size false

def isMarked (marking : Marking) (index : Nat) : Bool :=
  marking.marks.getD index false

/-- Reaches the cell a reference names. -/
def visit (slots : Array Slot) (marking : Marking) (ref : CellRef) : Marking :=
  match cellAt? slots ref.id with
  | none => { marking with skipped := marking.skipped ++ [ref.id] }
  | some _ =>
    if marking.isMarked ref.id.index then
      marking
    else
      { marking with
        marks := marking.marks.setIfInBounds ref.id.index true
        pending := ref.id :: marking.pending }

def visitAll (slots : Array Slot) (marking : Marking) (refs : List CellRef) : Marking :=
  refs.foldl (visit slots) marking

@[simp] theorem visitAll_nil (slots : Array Slot) (marking : Marking) :
    visitAll slots marking [] = marking := rfl

theorem visitAll_cons (slots : Array Slot) (marking : Marking) (ref : CellRef)
    (refs : List CellRef) :
    visitAll slots marking (ref :: refs) = visitAll slots (visit slots marking ref) refs := rfl

@[simp] theorem size_marks_visit (slots : Array Slot) (marking : Marking) (ref : CellRef) :
    (visit slots marking ref).marks.size = marking.marks.size := by
  unfold visit
  split
  · rfl
  · split <;> simp

@[simp] theorem size_marks_visitAll (slots : Array Slot) (marking : Marking)
    (refs : List CellRef) :
    (visitAll slots marking refs).marks.size = marking.marks.size := by
  induction refs generalizing marking with
  | nil => rfl
  | cons ref refs ih => rw [visitAll_cons, ih, size_marks_visit]

def referencesAt (slots : Array Slot) (id : CellId) : List CellRef :=
  match slots[id.index]?.bind Slot.cell with
  | some cell => cell.references
  | none => []

/-- Follows the references of pending cells, for at most `rounds` cells. -/
def drain (slots : Array Slot) : Nat → Marking → Marking
  | 0, marking => marking
  | rounds + 1, marking =>
    match marking.pending with
    | [] => marking
    | id :: rest =>
      drain slots rounds
        (visitAll slots { marking with pending := rest } (referencesAt slots id))

@[simp] theorem size_marks_drain (slots : Array Slot) (rounds : Nat) (marking : Marking) :
    (drain slots rounds marking).marks.size = marking.marks.size := by
  induction rounds generalizing marking with
  | zero => rfl
  | succ rounds ih =>
    unfold drain
    split
    · rfl
    · rw [ih, size_marks_visitAll]

end Marking

/-- The references that keep cells alive: the stack roots, then the persistent
ones. -/
def roots (heap : Heap) : List CellRef :=
  heap.rootStack ++ heap.persistentRoots.toList.filterMap id

/-- Marks everything reachable from the roots. -/
def mark (heap : Heap) : Marking :=
  Marking.drain heap.slots heap.slots.size
    (Marking.visitAll heap.slots (.start heap.slots) heap.roots)

@[simp] theorem size_marks_mark (heap : Heap) : heap.mark.marks.size = heap.slots.size := by
  simp [mark, Marking.start]

end ScriptLinker.Heap
