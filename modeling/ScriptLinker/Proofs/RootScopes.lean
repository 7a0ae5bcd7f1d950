import ScriptLinker.Proofs.Rooting
import ScriptLinker.Proofs.Timing
/-!
# Root scopes

A program's steps come down to requests to the first heap; `heap_run` says that the
heap after a step is the one that its requests lead to. Along these requests the stack
roots that were there before a step stay at the bottom of the stack, whatever is
pushed above them and dropped again, by inner scopes too. So a scope that is closed
leaves the stack as it was, and what was pushed through an open scope is reached, and
all that it leads to, until the scope is closed. `rootScope_exact` says so of every
scope that a program opens, at any depth.
-/

namespace ScriptLinker

namespace Request

/-- `p` holds of a heap and of every heap that requests then lead to. -/
def Along (p : Heap → Prop) : List Request → Heap → Prop
  | [], heap => p heap
  | request :: rest, heap => p heap ∧ Along p rest (request.next heap)

namespace Along

variable {p q : Heap → Prop} {requests first rest : List Request} {heap : Heap}

theorem start (h : Along p requests heap) : p heap := by
  cases requests with
  | nil => exact h
  | cons request rest => exact h.1

theorem final (h : Along p requests heap) : p (nextAll requests heap) := by
  induction requests generalizing heap with
  | nil => exact h
  | cons request rest ih => exact ih h.2

theorem append (h : Along p first heap) (hrest : Along p rest (nextAll first heap)) :
    Along p (first ++ rest) heap := by
  induction first generalizing heap with
  | nil => exact hrest
  | cons request first ih => exact ⟨h.1, ih h.2 hrest⟩

theorem mono (h : Along p requests heap) (himp : ∀ heap, p heap → q heap) :
    Along q requests heap := by
  induction requests generalizing heap with
  | nil => exact himp _ h
  | cons request rest ih => exact ⟨himp _ h.1, ih h.2⟩

end Along

end Request

namespace Heap

/-- A root on the stack that named a cell when it was pushed is honoured: the cell is in
its place, and a collection keeps all that it leads to over live edges, as does whatever
else is asked of the heap. -/
structure Honours (heap : Heap) (ref : CellRef) (cell : Cell) : Prop where
  pushed : ref ∈ heap.rootStack
  carriesOn : CarriesOn cell ref.id heap
  collected : ∀ id found, heap.Leads ref.id id → heap.cell? id = some found →
    heap.collected.cell? id = some found
  next : ∀ id found, heap.Leads ref.id id → heap.cell? id = some found →
    ∀ request : Request, CarriesOn found id (request.next heap)

variable {heap : Heap} {ref : CellRef} {cell : Cell}

/-- What is on the stack and alive is honoured. -/
theorem Honours.of_mem (h : heap.Sound) (href : ref ∈ heap.rootStack)
    (hcell : CarriesOn cell ref.id heap) : heap.Honours ref cell := by
  have hreached : heap.Reaches ref.id := .stackRoot href hcell.isLive
  refine ⟨href, hcell, fun id found hleads hfound => ?_, fun id found hleads hfound request => ?_⟩
  · exact (cell?_collected_of_reaches (hreached.leads hleads)).trans hfound
  · exact .next ⟨found, hfound, .refl found⟩ (hreached.leads hleads) h request

/-- A root that is honoured goes on to be, as long as it is on the stack. -/
theorem Honours.next_of_mem (h : heap.Honours ref cell) (hsound : heap.Sound) (request : Request)
    (href : ref ∈ (request.next heap).rootStack) : (request.next heap).Honours ref cell :=
  have hreached : heap.Reaches ref.id := .stackRoot h.pushed h.carriesOn.isLive
  .of_mem (request.sound_next hsound) href (h.carriesOn.next hreached hsound request)

theorem Honours.along (h : heap.Honours ref cell) (hsound : heap.Sound) {requests : List Request}
    (hstack : Request.Along (fun heap => ref ∈ heap.rootStack) requests heap) :
    Request.Along (fun heap => heap.Honours ref cell) requests heap := by
  induction requests generalizing heap with
  | nil => exact h
  | cons request rest ih =>
      exact ⟨h, ih (h.next_of_mem hsound request hstack.2.start) (request.sound_next hsound)
        hstack.2⟩

end Heap

namespace Workspace

/-- What an operation asks of the first heap: nothing if it is for another heap, or if a
register does not hold what it needs. -/
def performed (workspace : Workspace) (number : Nat) (operation : Operation Named) :
    List Request :=
  match number, operation.resolve workspace.registers.find with
  | 0, .ok resolved => [.perform resolved]
  | _, _ => []

theorem heap_perform (workspace : Workspace) (number : Nat) (keep : Option String)
    (operation : Operation Named) :
    (workspace.perform number keep operation).2.heap =
      Request.nextAll (workspace.performed number operation) workspace.heap := by
  cases number with
  | zero =>
      cases hresolve : operation.resolve workspace.registers.find with
      | error error => simp only [performed, perform, heapAt?, hresolve, Request.nextAll_nil]
      | ok resolved =>
          obtain ⟨summary, events, hperform⟩ := perform_of_resolve hresolve keep
          have hnext : Request.nextAll (workspace.performed 0 operation) workspace.heap =
              (resolved.run.ending workspace.heap).2 := by
            simp only [performed, hresolve]
            rfl
          rw [hperform, hnext]
          cases resolved.run.ending workspace.heap with
          | mk result after => cases result <;> rfl
  | succ number =>
      unfold perform
      split
      · rfl
      · split
        · rfl
        · dsimp only
          split <;> rfl

/-- What a push puts on the stack: nothing if the register does not hold a cell. -/
def pushed (workspace : Workspace) (cell : String) : List CellRef :=
  (workspace.registers.find .cell cell).toOption.toList

theorem rootStack_pushRoot (workspace : Workspace) (cell : String) :
    (workspace.pushRoot cell).2.heap.rootStack =
      workspace.heap.rootStack ++ workspace.pushed cell := by
  unfold pushRoot pushed
  cases workspace.registers.find .cell cell <;> simp [Except.toOption]

theorem heap_pushRoot (workspace : Workspace) (cell : String) :
    (workspace.pushRoot cell).2.heap =
      Request.nextAll ((workspace.pushed cell).map .pushRoot) workspace.heap := by
  unfold pushRoot pushed
  cases workspace.registers.find .cell cell <;> rfl

end Workspace

namespace Step

mutual

/-- What a step asks of the first heap, request by request. -/
def requests : Step → Option Nat → Workspace → List Request
  | .perform number _ operation, _, workspace => workspace.performed number operation
  | .rootScope body, _, workspace =>
    let entry := workspace.heap.rootStack.length
    requestsAll body (some entry) workspace ++ [.truncateRoots entry]
  | .pushRoot cell, some _, workspace => (workspace.pushed cell).map .pushRoot
  | _, _, _ => []

def requestsAll : List Step → Option Nat → Workspace → List Request
  | [], _, _ => []
  | step :: rest, entry, workspace =>
    step.requests entry workspace ++ requestsAll rest entry (step.run entry workspace).2

end

/-- What a step pushes through the scope that it stands in. -/
def pushes : Step → Option Nat → Workspace → List CellRef
  | .pushRoot cell, some _, workspace => workspace.pushed cell
  | _, _, _ => []

/-- What steps push through the scope that they stand in, but not through inner ones. -/
def pushesAll : List Step → Option Nat → Workspace → List CellRef
  | [], _, _ => []
  | step :: rest, entry, workspace =>
    step.pushes entry workspace ++ pushesAll rest entry (step.run entry workspace).2

/-- The scopes that steps open, at any depth: with their bodies, and the workspaces that
they are opened on. -/
inductive Opens : List Step → Option Nat → Workspace → List Step → Workspace → Prop where
  | here {entry : Option Nat} {workspace : Workspace} {body : List Step}
      (done rest : List Step) :
      Opens (done ++ .rootScope body :: rest) entry workspace body
        (runAll done entry workspace).2
  | within {entry : Option Nat} {workspace opened : Workspace} {body inner : List Step}
      (done rest : List Step) :
      Opens body (some (runAll done entry workspace).2.heap.rootStack.length)
        (runAll done entry workspace).2 inner opened →
      Opens (done ++ .rootScope body :: rest) entry workspace inner opened

variable {workspace : Workspace}

mutual

/-- The first heap after a step is the one that its requests lead to. -/
theorem heap_run : ∀ (step : Step) (entry : Option Nat) (workspace : Workspace),
    (step.run entry workspace).2.heap =
      Request.nextAll (step.requests entry workspace) workspace.heap
  | .perform number keep operation, entry, workspace =>
      workspace.heap_perform number keep operation
  | .rootScope body, entry, workspace => by
      rw [requests, Request.nextAll_append, ← heap_runAll body]
      rfl
  | .pushRoot cell, some entry, workspace => workspace.heap_pushRoot cell
  | .pushRoot _, none, _ => rfl
  | .askPushed, some _, _ => rfl
  | .askPushed, none, _ => rfl

theorem heap_runAll : ∀ (steps : List Step) (entry : Option Nat) (workspace : Workspace),
    (runAll steps entry workspace).2.heap =
      Request.nextAll (requestsAll steps entry workspace) workspace.heap
  | [], _, _ => rfl
  | step :: rest, entry, workspace => by
      rw [requestsAll, Request.nextAll_append, ← heap_run step, ← heap_runAll rest]
      rfl

end

theorem reachable_runAll (h : workspace.heap.Reachable) (steps : List Step)
    (entry : Option Nat) : (runAll steps entry workspace).2.heap.Reachable :=
  heap_runAll steps entry workspace ▸ h.nextAll _

/-- What a scope is opened on is reachable too. -/
theorem Opens.reachable {steps body : List Step} {entry : Option Nat} {opened : Workspace}
    (hopens : Opens steps entry workspace body opened) (h : workspace.heap.Reachable) :
    opened.heap.Reachable := by
  induction hopens with
  | here done _ => exact reachable_runAll h done _
  | within done _ _ ih => exact ih (reachable_runAll h done _)

/-- A step adds what it pushes to the stack roots, and never takes away from those that
were there before it. -/
def Piles (step : Step) (entry : Option Nat) (workspace : Workspace) : Prop :=
  (step.run entry workspace).2.heap.rootStack =
      workspace.heap.rootStack ++ step.pushes entry workspace ∧
    Request.Along (fun heap => workspace.heap.rootStack <+: heap.rootStack)
      (step.requests entry workspace) workspace.heap

theorem piles_perform (h : workspace.heap.Reachable) (number : Nat) (keep : Option String)
    (operation : Operation Named) (entry : Option Nat) :
    (perform number keep operation).Piles entry workspace := by
  have hperformed : (Request.nextAll (workspace.performed number operation)
      workspace.heap).rootStack = workspace.heap.rootStack ∧
      Request.Along (fun heap => workspace.heap.rootStack <+: heap.rootStack)
        (workspace.performed number operation) workspace.heap := by
    unfold Workspace.performed
    split
    · rename_i resolved _
      have hstack : ((Request.perform resolved).next workspace.heap).rootStack =
          workspace.heap.rootStack := Operation.rootStack_run h.sound resolved
      exact ⟨hstack, List.prefix_rfl, hstack ▸ List.prefix_rfl⟩
    · exact ⟨rfl, List.prefix_rfl⟩
  refine ⟨?_, hperformed.2⟩
  rw [heap_run, requests, hperformed.1]
  exact (List.append_nil _).symm

theorem piles_pushRoot (cell : String) (entry : Option Nat) :
    (pushRoot cell).Piles entry workspace := by
  cases entry with
  | none => exact ⟨(List.append_nil _).symm, List.prefix_rfl⟩
  | some entry =>
      refine ⟨workspace.rootStack_pushRoot cell, ?_⟩
      rw [requests, Workspace.pushed]
      cases workspace.registers.find .cell cell with
      | error error => exact List.prefix_rfl
      | ok ref => exact ⟨List.prefix_rfl, List.prefix_append _ _⟩

mutual

theorem piles : ∀ (step : Step) (entry : Option Nat) {workspace : Workspace},
    workspace.heap.Reachable → step.Piles entry workspace
  | .perform number keep operation, entry, _, h => piles_perform h number keep operation entry
  | .pushRoot cell, entry, _, _ => piles_pushRoot cell entry
  | .askPushed, entry, _, _ => by
      cases entry <;> exact ⟨(List.append_nil _).symm, List.prefix_rfl⟩
  | .rootScope body, entry, workspace, h => by
      obtain ⟨hbody, halong⟩ := pilesAll body (some workspace.heap.rootStack.length) h
      have hclosed : ((runAll body (some workspace.heap.rootStack.length)
          workspace).2.heap.truncateRoots workspace.heap.rootStack.length).rootStack =
          workspace.heap.rootStack := by
        rw [Heap.rootStack_truncateRoots, hbody, List.take_left]
      refine ⟨hclosed.trans (List.append_nil _).symm, halong.append ⟨halong.final, ?_⟩⟩
      rw [← heap_runAll]
      change _ <+: (Heap.truncateRoots _ _).rootStack
      rw [hclosed]

theorem pilesAll : ∀ (steps : List Step) (entry : Option Nat) {workspace : Workspace},
    workspace.heap.Reachable →
    (runAll steps entry workspace).2.heap.rootStack =
        workspace.heap.rootStack ++ pushesAll steps entry workspace ∧
      Request.Along (fun heap => workspace.heap.rootStack <+: heap.rootStack)
        (requestsAll steps entry workspace) workspace.heap
  | [], _, _, _ => ⟨(List.append_nil _).symm, List.prefix_rfl⟩
  | step :: rest, entry, workspace, h => by
      obtain ⟨hfirst, halong⟩ := piles step entry h
      have hmiddle : (step.run entry workspace).2.heap.Reachable :=
        heap_run step entry workspace ▸ h.nextAll _
      obtain ⟨hrest, halong'⟩ := pilesAll rest entry hmiddle
      refine ⟨?_, halong.append ?_⟩
      · rw [pushesAll, ← List.append_assoc, ← hfirst]
        exact hrest
      · rw [← heap_run]
        exact halong'.mono fun heap hprefix => (hfirst ▸ List.prefix_append _ _ :
          workspace.heap.rootStack <+: (step.run entry workspace).2.heap.rootStack).trans hprefix

end

/-- What every root scope does that a program opens, at any depth and on any reachable heap.

Closing the scope leaves the stack roots that it was opened on. Between its steps they lie
below what was pushed through the scope itself, which is what the scope counts. A cell that
was alive when it was pushed is honoured until the scope is closed. -/
theorem rootScope_exact {steps body : List Step} {opened : Workspace}
    (h : workspace.heap.Reachable) (hopens : Opens steps none workspace body opened)
    (entry : Option Nat) :
    let base := opened.heap.rootStack
    let inside := some base.length
    ((rootScope body).run entry opened).2.heap.rootStack = base ∧
    ∀ done rest, body = done ++ rest →
      let middle := (runAll done inside opened).2
      middle.heap.rootStack = base ++ pushesAll done inside opened ∧
      base.length ≤ middle.heap.rootStack.length ∧
      askPushed.run inside middle =
        (.single (.pushed (pushesAll done inside opened).length middle.heap.rootStack.length)
          middle.heap.summary [], middle) ∧
      ∀ name later ref cell, rest = .pushRoot name :: later →
        middle.registers.find .cell name = .ok ref → middle.heap.cell? ref.id = some cell →
        let after := ((pushRoot name).run inside middle).2
        Request.Along (fun heap => heap.Honours ref cell) (requestsAll later inside after)
          after.heap := by
  intro base inside
  have hopened := hopens.reachable h
  refine ⟨(piles (rootScope body) entry hopened).1.trans (List.append_nil _), ?_⟩
  rintro done rest rfl middle
  have hmiddle : middle.heap.Reachable := reachable_runAll hopened done inside
  have hstack : middle.heap.rootStack = base ++ pushesAll done inside opened :=
    (pilesAll done inside hopened).1
  have hlength : middle.heap.rootStack.length =
      base.length + (pushesAll done inside opened).length := by
    rw [hstack, List.length_append]
  refine ⟨hstack, by omega, ?_, ?_⟩
  · have hpushed : middle.heap.rootStack.length - base.length =
        (pushesAll done inside opened).length := by omega
    change (middle.askPushed base.length, middle) = _
    rw [Workspace.askPushed, hpushed]
  · rintro name later ref cell rfl hfind hcell after
    have hafter : after.heap = middle.heap.pushRoot ref := by
      change (middle.pushRoot name).2.heap = _
      rw [Workspace.pushRoot, hfind]
    have hreachable : after.heap.Reachable := hafter ▸ hmiddle.request (.pushRoot ref)
    have href : ref ∈ after.heap.rootStack := by simp [hafter]
    have hhonoured : after.heap.Honours ref cell :=
      .of_mem hreachable.sound href ⟨cell, hafter ▸ hcell, .refl cell⟩
    exact hhonoured.along hreachable.sound
      ((pilesAll later inside hreachable).2.mono fun heap hprefix => hprefix.subset href)

/-- A scope within a scope, on a heap that collects whenever it can. What is pushed through
it outlasts a third scope, two failures and the collections that they come with. -/
theorem rootScope_exact_nested :
    ∃ (body later : List Step) (opened after : Workspace) (ref : CellRef) (cell : Cell),
      Opens [.perform 0 none (.setZeal true), .rootScope
          [.perform 0 (some "a") (.allocScope .global none), .pushRoot "a", .rootScope body]]
        none { heap := .ofLimits ⟨1000, 1000⟩ } body opened ∧
      opened.heap.rootStack = [.scope ⟨⟨0, 0⟩⟩] ∧
      ((rootScope body).run (some 0) opened).2.heap.rootStack = opened.heap.rootStack ∧
      after.heap.rootStack = opened.heap.rootStack ++ [ref] ∧
      after.heap.stats.gcRuns = 2 ∧ (runAll later (some 1) after).2.heap.stats.gcRuns = 4 ∧
      Request.Along (fun heap => heap.Honours ref cell) (requestsAll later (some 1) after)
        after.heap := by
  let outer : List Step := [.perform 0 (some "a") (.allocScope .global none), .pushRoot "a"]
  let first : Step := .perform 0 (some "b") (.allocScope .lexical (some "a"))
  let later : List Step :=
    [.perform 0 none (.failAfter 1), .perform 0 none (.atomize [97]),
      .rootScope [.perform 0 (some "c") (.allocScope .lexical (some "b")), .pushRoot "c"],
      .perform 0 none .collect, .perform 0 none (.readScope "c")]
  let body : List Step := first :: .pushRoot "b" :: later
  have hopens : Opens _ none { heap := .ofLimits ⟨1000, 1000⟩ } body _ :=
    .within [.perform 0 none (.setZeal true)] [] (.here outer [])
  obtain ⟨hclosed, hbody⟩ := rootScope_exact (.initial (.ofLimits ⟨1000, 1000⟩)) hopens (some 0)
  obtain ⟨_, _, _, hpushed⟩ := hbody [first] (.pushRoot "b" :: later) rfl
  have hhonoured := hpushed "b" later (.scope ⟨⟨1, 0⟩⟩)
    (.scope { kind := .lexical, enclosing := some ⟨⟨0, 0⟩⟩ }) rfl (by decide +kernel)
    (by decide +kernel)
  exact ⟨body, later, _, _, _, _, hopens, by decide +kernel, hclosed, by decide +kernel,
    by decide +kernel, by decide +kernel, hhonoured⟩

end Step

end ScriptLinker
