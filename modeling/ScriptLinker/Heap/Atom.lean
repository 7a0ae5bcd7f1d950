import ScriptLinker.Heap.Allocate
import ScriptLinker.Keyed
/-!
# Interned texts

Equal texts share one atom while it is alive. The table of atoms is weak: a
collection drops the entries whose atom it frees.
-/

namespace ScriptLinker.Heap

def internedAtom? (heap : Heap) (text : String) : Option AtomId :=
  heap.atoms.lookup text

/-- Enters an atom for a text in place of an earlier one. -/
def enterAtom (text : String) (atom : AtomId) (heap : Heap) : Heap :=
  { heap with atoms := Keyed.put text atom heap.atoms }

@[simp] theorem internedAtom?_enterAtom_self (text : String) (atom : AtomId) (heap : Heap) :
    (heap.enterAtom text atom).internedAtom? text = some atom :=
  Keyed.lookup_put_self text atom heap.atoms

theorem internedAtom?_enterAtom_of_ne {text other : String} (h : other ≠ text) (atom : AtomId)
    (heap : Heap) :
    (heap.enterAtom text atom).internedAtom? other = heap.internedAtom? other :=
  Keyed.lookup_put_of_ne h atom heap.atoms

/-- The atom of a text, allocated if no live one holds it. -/
def intern (text : String) : Action Heap HeapError AtomId := do
  let heap ← Action.get
  match (heap.internedAtom? text).filter fun atom => heap.isLive atom.id with
  | some atom => pure atom
  | none =>
    let id ← allocate (.atom text) (Charge.atom text)
    Action.modify (enterAtom text ⟨id⟩)
    Action.note (.atomInterned text ⟨id⟩)
    pure ⟨id⟩

def atomize (bytes : Bytes) : Action Heap HeapError AtomId :=
  match Utf8.decode? bytes with
  | some text => intern text
  | none => Action.fail .invalidUtf8

end ScriptLinker.Heap
