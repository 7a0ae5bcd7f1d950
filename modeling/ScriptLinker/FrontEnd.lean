import ScriptLinker.Action
import ScriptLinker.Config.Basic
import ScriptLinker.Stencil.Basic
/-!
# The front end behind the bridge

A front end compiles source text into stencils and owns their buffers, so every
stencil has to go back to it exactly once. The ledger records what it compiled,
what came back, and the last call it got. A guard holds a stencil until it is
released; `withStencil` releases it on every way out.
-/

namespace ScriptLinker

/-- What a front end answers. -/
structure FrontEnd where
  compile : Bytes → CompileOptions → Stencil
  parsesAsScript : Bytes → Bool
  parsesAsModule : Bytes → Bool

namespace FrontEnd

/-- The front end that answers every compilation with the same parts, and
accepts any source that is not empty if it accepts that kind of source. -/
def scripted (parts : Stencil.Parts) (scripts modules : Bool) : FrontEnd where
  compile _ _ := parts.toStencil
  parsesAsScript source := scripts && !source.isEmpty
  parsesAsModule source := modules && !source.isEmpty

def answering (parts : Stencil.Parts) : FrontEnd :=
  scripted parts false false

/-- What a front end has seen. -/
structure Ledger where
  compiled : List Stencil := []
  released : List Stencil := []
  /-- The source and the options of the last compilation. -/
  last : Option (Bytes × CompileOptions) := none
  deriving DecidableEq, Inhabited

end FrontEnd

/-- How the engine reaches a front end: directly, through a reference to it, or
through a table of entry points. -/
inductive Route where
  | direct
  | reference
  | entryTable
  deriving DecidableEq, Inhabited

/-- The engine's handle on a front end. -/
structure Bridge where
  frontEnd : FrontEnd
  route : Route := .direct

/-- Holds a stencil until it goes back to the front end that made it. -/
structure Guard where
  stencil : Stencil
  deriving DecidableEq, Inhabited

namespace Guard

def enterReleased (guard : Guard) (ledger : FrontEnd.Ledger) : FrontEnd.Ledger :=
  { ledger with released := ledger.released ++ [guard.stencil] }

def release {ε : Type} (guard : Guard) : Action FrontEnd.Ledger ε Unit := do
  Action.note .stencilReleased
  Action.modify guard.enterReleased

end Guard

namespace Bridge

def enterCompiled (source : Bytes) (options : CompileOptions) (stencil : Stencil)
    (ledger : FrontEnd.Ledger) : FrontEnd.Ledger :=
  { ledger with
    compiled := ledger.compiled ++ [stencil]
    last := some (source, options) }

/-- Compiles a source; the stencil stays with the guard. -/
def compile {ε : Type} (bridge : Bridge) (source : Bytes) (options : CompileOptions) :
    Action FrontEnd.Ledger ε Guard := do
  match bridge.route with
  | .entryTable => Action.note (.frontEndCalled source.length)
  | .direct | .reference => pure ()
  let stencil := bridge.frontEnd.compile source options
  Action.modify (enterCompiled source options stencil)
  Action.note (.stencilReceived stencil.revision stencil.bytecode.length)
  pure ⟨stencil⟩

/-- Whether the front end takes the source for a script, and for a module. -/
def probe (bridge : Bridge) (source : Bytes) : Bool × Bool :=
  (bridge.frontEnd.parsesAsScript source, bridge.frontEnd.parsesAsModule source)

end Bridge

end ScriptLinker
