/-!
# Addresses of heap cells

A cell is addressed by the index of its slot and the generation the slot had
when the cell was placed there. A slot that is emptied moves on to the next
generation, so the address of a collected cell never names the cell that takes
its place. References add the kind of cell the address was issued for.
-/

namespace ScriptLinker

/-- Slot index and generation of a cell. -/
structure CellId where
  index : Nat
  generation : Nat
  deriving DecidableEq, Inhabited

structure AtomId where
  id : CellId
  deriving DecidableEq, Inhabited

structure ScopeId where
  id : CellId
  deriving DecidableEq, Inhabited

structure ScriptId where
  id : CellId
  deriving DecidableEq, Inhabited

inductive CellKind where
  | atom
  | scope
  | script
  deriving DecidableEq, Inhabited

def CellKind.name : CellKind → String
  | .atom => "atom"
  | .scope => "scope"
  | .script => "script"

/-- A reference to a cell of any kind, as roots, store buffers and the thing
lists of scripts hold it. -/
inductive CellRef where
  | atom (target : AtomId)
  | scope (target : ScopeId)
  | script (target : ScriptId)
  deriving DecidableEq, Inhabited

namespace CellRef

def id : CellRef → CellId
  | .atom target => target.id
  | .scope target => target.id
  | .script target => target.id

def kind : CellRef → CellKind
  | .atom _ => .atom
  | .scope _ => .scope
  | .script _ => .script

def ofKind : CellKind → CellId → CellRef
  | .atom, id => .atom ⟨id⟩
  | .scope, id => .scope ⟨id⟩
  | .script, id => .script ⟨id⟩

@[simp] theorem ofKind_kind_id (ref : CellRef) : ofKind ref.kind ref.id = ref := by
  cases ref <;> rfl

@[simp] theorem id_ofKind (kind : CellKind) (id : CellId) : (ofKind kind id).id = id := by
  cases kind <;> rfl

@[simp] theorem kind_ofKind (kind : CellKind) (id : CellId) : (ofKind kind id).kind = kind := by
  cases kind <;> rfl

end CellRef

/-- How messages show an address. -/
def CellId.display (id : CellId) : String :=
  "HeapId \x7b index: " ++ toString id.index ++ ", generation: " ++ toString id.generation ++
    " \x7d"

def AtomId.display (atom : AtomId) : String :=
  "AtomId(" ++ atom.id.display ++ ")"

def ScopeId.display (scope : ScopeId) : String :=
  "ScopeId(" ++ scope.id.display ++ ")"

def ScriptId.display (script : ScriptId) : String :=
  "ScriptId(" ++ script.id.display ++ ")"

end ScriptLinker
