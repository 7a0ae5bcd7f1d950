import ScriptLinker.Sink
/-!
# Steps on a diagnostic sink

A step adds a diagnostic, with or without noting it, or looks at what the sink
has collected.
-/

namespace ScriptLinker

inductive SinkStep where
  | push (diagnostic : Diagnostic)
  | report (diagnostic : Diagnostic)
  | drain
  | list
  | askLength
  deriving DecidableEq, Inhabited

inductive SinkReply where
  | done
  | diagnostics (listed : List Diagnostic)
  | length (count : Nat)
  deriving DecidableEq, Inhabited

def SinkStep.run {ε : Type} : SinkStep → Action Sink ε SinkReply
  | push diagnostic => do
    Action.modify (Sink.push diagnostic)
    pure .done
  | report diagnostic => do
    Sink.report diagnostic
    pure .done
  | drain => do
    let drained ← Sink.drain
    pure (.diagnostics drained)
  | list => do
    let sink ← Action.get
    pure (.diagnostics sink.reported)
  | askLength => do
    let sink ← Action.get
    pure (.length sink.length)

end ScriptLinker
