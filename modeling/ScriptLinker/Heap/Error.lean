import ScriptLinker.Heap.Id
/-!
# Errors of the heap

Each error names its cause; `message` is the one place that words it.
-/

namespace ScriptLinker

/-- The parts a script is built from, one after the other. -/
inductive ScriptPart where
  | things
  | atoms
  | image
  deriving DecidableEq, Inhabited

def ScriptPart.name : ScriptPart → String
  | .things => "private script data"
  | .atoms => "atom table"
  | .image => "immutable script data"

/-- The tables of a script that are filled by index. -/
inductive SlotTable where
  | things
  | atoms
  deriving DecidableEq, Inhabited

def SlotTable.name : SlotTable → String
  | .things => "gcthings"
  | .atoms => "atom table"

inductive HeapError where
  | outOfMemory
  | invalidLimits (gcThreshold maxBytes : Nat)
  /-- The reference outlived its cell. -/
  | staleReference (id : CellId)
  | wrongCellKind (id : CellId) (expected actual : CellKind)
  | invalidUtf8
  | alreadyInitialized (part : ScriptPart)
  | notInitialized (part : ScriptPart)
  | indexOutOfBounds (table : SlotTable) (index length : Nat)
  /-- The script's image is shared, so nothing of the script may change. -/
  | scriptSealed
  deriving DecidableEq, Inhabited

def HeapError.message : HeapError → String
  | outOfMemory => "Out of memory"
  | invalidLimits gcThreshold maxBytes =>
    s!"Invalid heap limits: gc_threshold ({gcThreshold}) exceeds max_bytes ({maxBytes})"
  | staleReference id => s!"Stale heap reference {id.display}: the cell was collected"
  | wrongCellKind id expected actual =>
    s!"Heap reference {id.display} is a {actual.name}, expected a {expected.name}"
  | invalidUtf8 => "Atom bytes are not valid UTF-8"
  | alreadyInitialized part => s!"Script data already created: {part.name}"
  | notInitialized part => s!"Script data missing: {part.name}"
  | indexOutOfBounds table index length =>
    s!"Index {index} out of bounds for {table.name} of length {length}"
  | scriptSealed => "Script data is shared and can no longer be modified"

end ScriptLinker
