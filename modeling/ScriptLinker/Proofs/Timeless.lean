import ScriptLinker.Proofs.Archive
import ScriptLinker.Proofs.Replies
/-!
# Programs without regard to when the heap collects

Steps that collect, switch the zeal or arm a failure are timed. `Step.untimeAll` is a
program without them. `Step.viewsAll` is what a run of a program shows apart from the
answers to timed steps and from addresses. `Step.replayAll` runs a program on an
archive, where timed steps do nothing, so that two programs that differ in timed steps
only have one such run.
-/

namespace ScriptLinker

/-- Whether an operation has to do with when a heap collects, or fails. -/
def Operation.isTimed {Ref : RefSort → Type} : Operation Ref → Bool
  | .collect | .setZeal _ | .failAfter _ => true
  | _ => false

namespace StepResult

/-- The errors in a result. -/
def faults : StepResult → List HeapError
  | .reply answer => answer.faults
  | .failed error => [error]
  | _ => []

/-- What a result shows apart from addresses, liveness and the store buffer. -/
def view : StepResult → StepResult
  | .reply answer => .reply answer.view
  | result => result

end StepResult

mutual

/-- The errors in an answer, those of the steps within a root scope included. -/
def Answer.faults : Answer → List HeapError
  | .single result _ _ => result.faults
  | .scoped body _ => Answer.faultsAll body

def Answer.faultsAll : List Answer → List HeapError
  | [] => []
  | answer :: rest => answer.faults ++ Answer.faultsAll rest

end

mutual

/-- A step without the timed steps in it. -/
def Step.untime : Step → List Step
  | .perform heap keep operation =>
    if operation.isTimed then [] else [.perform heap keep operation]
  | .rootScope body => [.rootScope (Step.untimeAll body)]
  | .pushRoot cell => [.pushRoot cell]
  | .askPushed => [.askPushed]

def Step.untimeAll : List Step → List Step
  | [] => []
  | step :: rest => step.untime ++ Step.untimeAll rest

end

mutual

/-- What the answer to a step shows, with that of the steps within a root scope in their
order. Timed steps show nothing. -/
def Step.views : Step → Answer → List StepResult
  | .perform _ _ operation, .single result _ _ => if operation.isTimed then [] else [result.view]
  | .rootScope body, .scoped answers _ => Step.viewsAll body answers
  | .pushRoot _, .single result _ _ => [result.view]
  | .askPushed, .single result _ _ => [result.view]
  | _, _ => []

def Step.viewsAll : List Step → List Answer → List StepResult
  | step :: rest, answer :: answers => step.views answer ++ Step.viewsAll rest answers
  | _, _ => []

end

namespace Workspace

/-- Performs an operation on the archive of a workspace. -/
def replay (ideal : Workspace) (keep : Option String) (operation : Operation Named) :
    StepResult × Workspace :=
  match operation.resolve ideal.registers.find with
  | .error error => (.badRegister error, ideal)
  | .ok operation =>
    match operation.replay ideal.heap with
    | (.error error, heap) => (.failed error, { ideal with heap })
    | (.ok reply, heap) =>
      (.reply reply, { ideal with heap, registers := ideal.registers.keep keep reply })

end Workspace

mutual

/-- What a step shows on an archive, and the workspace after it. -/
def Step.replay : Step → Option Nat → Workspace → List StepResult × Workspace
  | .perform number keep operation, _, ideal =>
    if operation.isTimed then
      ([], ideal)
    else
      match number with
      | 0 => ([(ideal.replay keep operation).1.view], (ideal.replay keep operation).2)
      | _ + 1 => ([.misplaced], ideal)
  | .rootScope body, _, ideal =>
    let entry := ideal.heap.rootStack.length
    let (results, after) := Step.replayAll body (some entry) ideal
    (results, { after with heap := after.heap.truncateRoots entry })
  | .pushRoot cell, entry, ideal =>
    let (answer, after) := (Step.pushRoot cell).run entry ideal
    ((Step.pushRoot cell).views answer, after)
  | .askPushed, entry, ideal =>
    let (answer, after) := Step.askPushed.run entry ideal
    (Step.askPushed.views answer, after)

def Step.replayAll : List Step → Option Nat → Workspace → List StepResult × Workspace
  | [], _, ideal => ([], ideal)
  | step :: rest, entry, ideal =>
    let (results, middle) := step.replay entry ideal
    let (others, after) := Step.replayAll rest entry middle
    (results ++ others, after)

end

theorem Answer.faultsAll_append (answers more : List Answer) :
    faultsAll (answers ++ more) = faultsAll answers ++ faultsAll more := by
  induction answers with
  | nil => rfl
  | cons answer answers ih =>
      simp only [List.cons_append, faultsAll, ih, List.append_assoc]

namespace Step

theorem runAll_append (steps rest : List Step) (entry : Option Nat) (workspace : Workspace) :
    runAll (steps ++ rest) entry workspace =
      ((runAll steps entry workspace).1 ++ (runAll rest entry (runAll steps entry workspace).2).1,
        (runAll rest entry (runAll steps entry workspace).2).2) := by
  induction steps generalizing workspace with
  | nil => rfl
  | cons step steps ih => simp only [List.cons_append, runAll, ih]

theorem length_runAll (steps : List Step) (entry : Option Nat) (workspace : Workspace) :
    (runAll steps entry workspace).1.length = steps.length := by
  induction steps generalizing workspace with
  | nil => rfl
  | cons step steps ih => simp only [runAll, List.length_cons, ih]

theorem viewsAll_append {steps : List Step} {answers : List Answer}
    (h : answers.length = steps.length) (rest : List Step) (more : List Answer) :
    viewsAll (steps ++ rest) (answers ++ more) = viewsAll steps answers ++ viewsAll rest more := by
  induction steps generalizing answers with
  | nil =>
      obtain rfl := List.length_eq_zero_iff.1 h
      rfl
  | cons step steps ih =>
      cases answers with
      | nil => simp at h
      | cons answer answers =>
          simp only [List.cons_append, viewsAll, ih (Nat.succ.inj h), List.append_assoc]

theorem untimeAll_append (steps rest : List Step) :
    untimeAll (steps ++ rest) = untimeAll steps ++ untimeAll rest := by
  induction steps with
  | nil => rfl
  | cons step steps ih => simp only [List.cons_append, untimeAll, ih, List.append_assoc]

theorem replayAll_append (steps rest : List Step) (entry : Option Nat) (ideal : Workspace) :
    replayAll (steps ++ rest) entry ideal =
      ((replayAll steps entry ideal).1 ++
          (replayAll rest entry (replayAll steps entry ideal).2).1,
        (replayAll rest entry (replayAll steps entry ideal).2).2) := by
  induction steps generalizing ideal with
  | nil => simp [replayAll]
  | cons step steps ih => simp [replayAll, ih]

theorem replayAll_singleton (step : Step) (entry : Option Nat) (ideal : Workspace) :
    replayAll [step] entry ideal = step.replay entry ideal := by
  simp [replayAll]

mutual

theorem replayAll_untime : ∀ (step : Step) (entry : Option Nat) (ideal : Workspace),
    replayAll step.untime entry ideal = step.replay entry ideal
  | .perform number keep operation, entry, ideal => by
      cases htimed : operation.isTimed with
      | true => simp [untime, replay, replayAll, htimed]
      | false => simp [untime, replayAll_singleton, htimed]
  | .rootScope body, entry, ideal => by
      simp only [untime, replayAll_singleton, replay, replayAll_untimeAll body]
  | .pushRoot cell, entry, ideal => by rw [untime, replayAll_singleton]
  | .askPushed, entry, ideal => by rw [untime, replayAll_singleton]

/-- Timed steps make no difference on an archive. -/
theorem replayAll_untimeAll : ∀ (steps : List Step) (entry : Option Nat) (ideal : Workspace),
    replayAll (untimeAll steps) entry ideal = replayAll steps entry ideal
  | [], entry, ideal => rfl
  | step :: rest, entry, ideal => by
      simp only [untimeAll, replayAll_append, replayAll_untime step, replayAll_untimeAll rest,
        replayAll]

end

end Step

end ScriptLinker
