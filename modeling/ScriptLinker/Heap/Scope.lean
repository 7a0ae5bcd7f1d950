import ScriptLinker.Heap.Allocate
/-!
# Scopes

The enclosing scope is checked after the allocation, since making room can
collect it. A scope whose enclosing one turns out to be gone stays on the heap
until the next collection; no reference to it is handed out.
-/

namespace ScriptLinker.Heap

/-- Allocates a scope without bindings. -/
def allocScope (kind : ScopeKind) (enclosing : Option ScopeId) :
    Action Heap HeapError ScopeId := do
  let id ← allocate (.scope { kind, enclosing }) Charge.scope
  match enclosing with
  | none => pure ⟨id⟩
  | some outer =>
    let _ ← Action.read fun heap => heap.scope outer
    pure ⟨id⟩

end ScriptLinker.Heap
