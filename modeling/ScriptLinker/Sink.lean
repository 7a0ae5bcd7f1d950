import ScriptLinker.Action
/-!
# The diagnostic sink

The sink collects diagnostics in the order they are reported, until it is
drained.
-/

namespace ScriptLinker

/-- The diagnostics collected so far, oldest first. -/
structure Sink where
  reported : List Diagnostic := []
  deriving DecidableEq, Inhabited

namespace Sink

def length (sink : Sink) : Nat :=
  sink.reported.length

def push (diagnostic : Diagnostic) (sink : Sink) : Sink where
  reported := sink.reported ++ [diagnostic]

@[simp] theorem reported_push (diagnostic : Diagnostic) (sink : Sink) :
    (sink.push diagnostic).reported = sink.reported ++ [diagnostic] := rfl

@[simp] theorem length_push (diagnostic : Diagnostic) (sink : Sink) :
    (sink.push diagnostic).length = sink.length + 1 := by
  simp [length]

def report {ε : Type} (diagnostic : Diagnostic) : Action Sink ε Unit := do
  Action.note (.diagnosticReported diagnostic)
  Action.modify (push diagnostic)

/-- Removes all diagnostics and yields them. -/
def drain {ε : Type} : Action Sink ε (List Diagnostic) := do
  let sink ← Action.get
  Action.set {}
  pure sink.reported

end Sink

end ScriptLinker
