import ScriptLinker.Heap.Root
import ScriptLinker.Heap.Scope
import ScriptLinker.Sink
/-!
# The execution context

A context owns a heap, the empty global scope that a persistent root keeps
alive, the compile options, the link settings and the sink that diagnostics go
to.
-/

namespace ScriptLinker

/-- Where scripts are compiled. -/
structure Context where
  heap : Heap
  globalScope : ScopeId
  globalRoot : RootId
  options : CompileOptions
  link : LinkSettings
  sink : Sink := {}
  deriving DecidableEq, Inhabited

namespace Context

/-- Allocates the empty global scope of a new heap and roots it. -/
def prepareHeap : Action Heap HeapError (ScopeId × RootId) := do
  let scope ← Heap.allocScope .global none
  let heap ← Action.get
  let (root, rooted) := heap.addRoot (.scope scope)
  Action.set rooted
  Action.note (.contextReady scope)
  pure (scope, root)

/-- The context for a configuration, with the events of setting it up. -/
def ofConfig? (config : EngineConfig) : Except HeapError (Context × List Event) := do
  let empty ← Heap.ofSettings? config.heap
  let ready := prepareHeap.run empty
  let (scope, root) ← ready.result
  pure
    ({ heap := ready.state
       globalScope := scope
       globalRoot := root
       options := config.compile
       link := config.link },
      ready.events)

def onHeap {ε α : Type} (action : Action Heap ε α) : Action Context ε α :=
  action.zoom Context.heap fun heap context => { context with heap }

def onSink {ε α : Type} (action : Action Sink ε α) : Action Context ε α :=
  action.zoom Context.sink fun sink context => { context with sink }

end Context

end ScriptLinker
