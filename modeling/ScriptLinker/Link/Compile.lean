import ScriptLinker.FrontEnd
import ScriptLinker.Link.Materialize
/-!
# Compiling a source

A compilation runs the front end, reads and routes its stencil, and builds the
script of a success. The stencil goes back to the front end on every way out. A
rejected source is reported to the sink of the context and is also the error of
the compilation.
-/

namespace ScriptLinker

/-- How a compilation that did not fail ended. -/
inductive Compilation where
  /-- A sealed script, which nothing roots yet. -/
  | compiled (script : ScriptId)
  | unimplemented
  deriving DecidableEq, Inhabited

/-- A context at work with a front end. -/
structure Desk where
  context : Context
  ledger : FrontEnd.Ledger := {}
  deriving DecidableEq, Inhabited

namespace Desk

variable {ε α : Type}

def onContext (action : Action Context ε α) : Action Desk ε α :=
  action.zoom Desk.context fun context desk => { desk with context }

def onLedger (action : Action FrontEnd.Ledger ε α) : Action Desk ε α :=
  action.zoom Desk.ledger fun ledger desk => { desk with ledger }

/-- Compiles a source, runs `body` on the stencil and gives it back, also when `body`
fails. -/
def withStencil (bridge : Bridge) (source : Bytes) (options : CompileOptions)
    (body : Guard → Action Desk ε α) : Action Desk ε α := do
  let guard ← onLedger (bridge.compile source options)
  (body guard).andThenAlways (onLedger guard.release)

end Desk

namespace Context

/-- Notes that a failure to build a script was for lack of memory. -/
def noteExhaustion {α : Type} (action : Action Context LinkError α) :
    Action Context LinkError α := fun context =>
  let outcome := action context
  match outcome.result with
  | .error .outOfMemory => { outcome with events := outcome.events ++ [.memoryExhausted] }
  | _ => outcome

def carryOut (descriptor : Descriptor) (sourceLength : Nat) :
    Action Context LinkError Compilation :=
  match descriptor.verdict with
  | .syntaxError message => do
    onSink (Sink.report (.ofMessage message))
    Action.fail (.rejected (.ofMessage message))
  | .unimplemented => do
    Action.note .frontEndDeclined
    pure .unimplemented
  | .success => do
    let script ← noteExhaustion (materialize descriptor sourceLength)
    Action.note (.scriptCompiled sourceLength script)
    pure (.compiled script)

end Context

def Desk.compile (bridge : Bridge) (source : Bytes) : Action Desk LinkError Compilation := do
  let desk ← Action.get
  Desk.withStencil bridge source desk.context.options fun guard => do
    let descriptor ← Action.ofExcept ((Descriptor.ofStencil? guard.stencil).mapError .descriptor)
    Desk.onContext (Context.carryOut descriptor source.length)

end ScriptLinker
