import ScriptLinker.Link.Compile
import ScriptLinker.Session.SinkStep
import ScriptLinker.Session.Workspace
/-!
# Programs on a context

A context bench is a context with further heaps beside it and registers. Its
steps are the steps of a workspace, in which the context's heap is the first,
and the operations of the context itself.
-/

namespace ScriptLinker

/-- A context with the rest of a workspace. -/
structure ContextBench where
  context : Context
  others : List Heap := []
  registers : Registers := {}
  deriving DecidableEq, Inhabited

inductive ContextStep where
  | work (step : Step)
  /-- Compiles a source, which the front end answers with `parts`. -/
  | compile (keep : Option String) (source : Bytes) (parts : Stencil.Parts) (route : Route)
  /-- Reads the stencil of `parts` and builds its script, whatever its verdict. -/
  | materialize (keep : Option String) (parts : Stencil.Parts) (sourceLength : Nat)
  | setOptions (options : CompileOptions)
  | readSettings
  | sink (step : SinkStep)

structure ContextReport where
  options : CompileOptions
  link : LinkSettings
  globalScope : ScopeId
  globalRoot : RootId
  /-- What the root of the global scope holds. -/
  rooted : Option CellRef
  deriving DecidableEq, Inhabited

/-- What an operation of the context answers. -/
inductive ContextReply where
  | done
  | compiled (result : Except LinkError Compilation) (ledger : FrontEnd.Ledger)
  | materialized (result : Except LinkError ScriptId)
  | settings (report : ContextReport)
  | sink (reply : SinkReply)

/-- What a step answers. -/
inductive ContextAnswer where
  | work (answer : Answer)
  | own (reply : ContextReply) (heap : Heap.Summary) (events : List Event)

namespace ContextBench

def globalName : String := "global"

def globalRootName : String := "global_root"

/-- A context with further heaps; registers name its global scope and root. -/
def ofContext (context : Context) (others : List Heap) : ContextBench where
  context := context
  others := others
  registers :=
    ((({} : Registers).bind globalName (.cell (.scope context.globalScope))).bind
      globalRootName (.root context.globalRoot))

def workspace (bench : ContextBench) : Workspace where
  heap := bench.context.heap
  others := bench.others
  registers := bench.registers

def withWorkspace (bench : ContextBench) (workspace : Workspace) : ContextBench where
  context := { bench.context with heap := workspace.heap }
  others := workspace.others
  registers := workspace.registers

/-- Keeps a script under a name, if there are both. -/
def keepScript (keep : Option String) (script : Option ScriptId) (bench : ContextBench) :
    ContextBench :=
  match script with
  | none => bench
  | some script =>
    { bench with registers := bench.registers.keep keep (.cell (.script script)) }

def report (bench : ContextBench) : ContextReport where
  options := bench.context.options
  link := bench.context.link
  globalScope := bench.context.globalScope
  globalRoot := bench.context.globalRoot
  rooted := bench.context.heap.root? bench.context.globalRoot

def answer (bench : ContextBench) (reply : ContextReply) (events : List Event) : ContextAnswer :=
  .own reply bench.context.heap.summary events

end ContextBench

def Compilation.script? : Compilation → Option ScriptId
  | .compiled script => some script
  | .unimplemented => none

/-- Reads the stencil of `parts` and builds its script, whatever its verdict. -/
def Context.materializeParts (parts : Stencil.Parts) (sourceLength : Nat) :
    Action Context LinkError ScriptId := do
  let descriptor ← Action.ofExcept
    ((Descriptor.ofStencil? parts.toStencil).mapError .descriptor)
  Context.materialize descriptor sourceLength

namespace ContextStep

def run : ContextStep → ContextBench → ContextAnswer × ContextBench
  | work step, bench =>
    let (answer, workspace) := step.run none bench.workspace
    (.work answer, bench.withWorkspace workspace)
  | compile keep source parts route, bench =>
    let bridge := { frontEnd := .answering parts, route }
    let outcome := (Desk.compile bridge source).run { context := bench.context }
    let script := outcome.result.toOption.bind Compilation.script?
    let after := ({ bench with context := outcome.state.context }).keepScript keep script
    (after.answer (.compiled outcome.result outcome.state.ledger) outcome.events, after)
  | materialize keep parts sourceLength, bench =>
    let outcome := (Context.materializeParts parts sourceLength).run bench.context
    let after :=
      ({ bench with context := outcome.state }).keepScript keep outcome.result.toOption
    (after.answer (.materialized outcome.result) outcome.events, after)
  | setOptions options, bench =>
    let after := { bench with context := { bench.context with options } }
    (after.answer .done [], after)
  | readSettings, bench => (bench.answer (.settings bench.report) [], bench)
  | sink step, bench =>
    let outcome := (Context.onSink (step.run : Action Sink Empty SinkReply)).run bench.context
    let after := { bench with context := outcome.state }
    match outcome.result with
    | .ok reply => (after.answer (.sink reply) outcome.events, after)
    | .error impossible => nomatch impossible

def runAll : List ContextStep → ContextBench → List ContextAnswer × ContextBench
  | [], bench => ([], bench)
  | step :: rest, bench =>
    let (answer, middle) := step.run bench
    let (answers, after) := runAll rest middle
    (answer :: answers, after)

end ContextStep

end ScriptLinker
