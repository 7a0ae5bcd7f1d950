import ScriptLinker.Heap.Script
/-!
# What a script's thing slots hold

A plan says, slot by slot, where the things of a script come from. A top-level
script has one: the empty global scope of its context, as its body scope.
-/

namespace ScriptLinker

/-- Where a thing comes from. -/
inductive ThingSource where
  /-- The empty scope of the global object, which the context keeps alive. -/
  | emptyGlobalScope
  deriving DecidableEq, Inhabited

def ThingSource.name : ThingSource → String
  | emptyGlobalScope => "EmptyGlobalScope"

/-- The sources of a script's things; the slot of a thing is its position. -/
structure ThingPlan where
  sources : List ThingSource
  deriving DecidableEq, Inhabited

namespace ThingPlan

def ofGlobalScript : ThingPlan where
  sources := [.emptyGlobalScope]

def length (plan : ThingPlan) : Nat :=
  plan.sources.length

@[simp] theorem length_ofGlobalScript : ofGlobalScript.length = 1 := rfl

end ThingPlan

namespace Heap

/-- The thing a source stands for, which has to be alive. -/
def thingOf (heap : Heap) (globalScope : ScopeId) : ThingSource → Except HeapError CellRef
  | .emptyGlobalScope => do
    let _ ← heap.scope globalScope
    pure (.scope globalScope)

def fillThingsFrom (script : ScriptId) (globalScope : ScopeId) :
    Nat → List ThingSource → Action Heap HeapError Unit
  | _, [] => pure ()
  | index, source :: rest => do
    let thing ← Action.read fun heap => heap.thingOf globalScope source
    initThing script index thing
    fillThingsFrom script globalScope (index + 1) rest

def fillThings (plan : ThingPlan) (script : ScriptId) (globalScope : ScopeId) :
    Action Heap HeapError Unit :=
  fillThingsFrom script globalScope 0 plan.sources

end Heap

end ScriptLinker
