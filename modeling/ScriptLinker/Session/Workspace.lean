import ScriptLinker.Session.Register
/-!
# Programs on heaps

A workspace is a row of heaps with registers that all of them share. A step is
an operation on one of the heaps, or a root scope on the first heap with the
steps taken within it. Every step has an answer and none stops the program: a
step that fails leaves what it had done, and binds no register.
-/

namespace ScriptLinker

/-- The heaps of a program; `heap` is the first. -/
structure Workspace where
  heap : Heap
  others : List Heap := []
  registers : Registers := {}
  deriving DecidableEq, Inhabited

inductive Step where
  /-- Runs an operation on the heap of that number and keeps what it makes. -/
  | perform (heap : Nat) (keep : Option String) (operation : Operation Named)
  /-- Opens a root scope on the first heap, takes steps and closes it. -/
  | rootScope (body : List Step)
  | pushRoot (cell : String)
  /-- Asks how many roots were pushed through the innermost root scope. -/
  | askPushed

inductive StepResult where
  | reply (reply : Reply)
  | failed (error : HeapError)
  | badRegister (error : RegisterError)
  /-- The number of roots pushed through the scope, and of all stack roots. -/
  | pushed (here total : Nat)
  /-- The step names no heap, or needs a root scope and stands in none. -/
  | misplaced

/-- What a step answers: how it ended, what its heap looks like after it, and
what was noted meanwhile. A root scope answers with its body's answers. -/
inductive Answer where
  | single (result : StepResult) (heap : Heap.Summary) (events : List Event)
  | scoped (body : List Answer) (heap : Heap.Summary)

namespace Workspace

def heapAt? (workspace : Workspace) : Nat → Option Heap
  | 0 => some workspace.heap
  | number + 1 => workspace.others[number]?

def setHeapAt (workspace : Workspace) (number : Nat) (heap : Heap) : Workspace :=
  match number with
  | 0 => { workspace with heap }
  | number + 1 => { workspace with others := workspace.others.set number heap }

def perform (workspace : Workspace) (number : Nat) (keep : Option String)
    (operation : Operation Named) : Answer × Workspace :=
  match workspace.heapAt? number with
  | none => (.single .misplaced workspace.heap.summary [], workspace)
  | some heap =>
    match operation.resolve workspace.registers.find with
    | .error error => (.single (.badRegister error) heap.summary [], workspace)
    | .ok operation =>
      let outcome := operation.run.run heap
      let after := workspace.setHeapAt number outcome.state
      match outcome.result with
      | .error error => (.single (.failed error) outcome.state.summary outcome.events, after)
      | .ok reply =>
        (.single (.reply reply) outcome.state.summary outcome.events,
          { after with registers := after.registers.keep keep reply })

def pushRoot (workspace : Workspace) (cell : String) : Answer × Workspace :=
  match workspace.registers.find .cell cell with
  | .error error => (.single (.badRegister error) workspace.heap.summary [], workspace)
  | .ok ref =>
    let heap := workspace.heap.pushRoot ref
    (.single (.reply (.cell ref)) heap.summary [], { workspace with heap })

/-- Answers how many roots were pushed since the stack had `entry` of them. -/
def askPushed (workspace : Workspace) (entry : Nat) : Answer :=
  let total := workspace.heap.rootStack.length
  .single (.pushed (total - entry) total) workspace.heap.summary []

/-- Closes a root scope that was opened when the stack had `entry` roots. -/
def closeScope (workspace : Workspace) (entry : Nat) (body : List Answer) : Answer × Workspace :=
  let heap := workspace.heap.truncateRoots entry
  (.scoped body heap.summary, { workspace with heap })

end Workspace

mutual

/-- Takes a step. `entry` is the length of the root stack when the innermost
root scope was opened, if the step stands in one. -/
def Step.run : Step → Option Nat → Workspace → Answer × Workspace
  | .perform heap keep operation, _, workspace => workspace.perform heap keep operation
  | .rootScope body, _, workspace =>
    let entry := workspace.heap.rootStack.length
    let (answers, after) := Step.runAll body (some entry) workspace
    after.closeScope entry answers
  | .pushRoot cell, some _, workspace => workspace.pushRoot cell
  | .askPushed, some entry, workspace => (workspace.askPushed entry, workspace)
  | _, none, workspace => (.single .misplaced workspace.heap.summary [], workspace)

def Step.runAll : List Step → Option Nat → Workspace → List Answer × Workspace
  | [], _, workspace => ([], workspace)
  | step :: rest, entry, workspace =>
    let (answer, middle) := step.run entry workspace
    let (answers, after) := Step.runAll rest entry middle
    (answer :: answers, after)

end

namespace Workspace

def runProgram (workspace : Workspace) (steps : List Step) : List Answer × Workspace :=
  Step.runAll steps none workspace

end Workspace

end ScriptLinker
