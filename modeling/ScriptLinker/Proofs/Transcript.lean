import ScriptLinker.Proofs.Client
/-!
# Transcripts

The transcript of an action lists the requests that do to a heap what the action does. It
depends on the heap, since later requests pass what earlier ones handed out, and it ends
where the action fails. Transcripts are put together as actions are; that of a
materialization makes its stores and its collections those of single requests.
-/

namespace ScriptLinker

/-- The requests that do to a heap what an action does. -/
structure Transcript {α : Type} (action : Action Heap HeapError α) where
  requests : Heap → List Request
  nextAll_requests : ∀ heap, Request.nextAll (requests heap) heap = (action.ending heap).2

namespace Transcript

variable {α β : Type} {action other : Action Heap HeapError α}

/-- Nothing is asked by an action that changes nothing. -/
def silent (h : ∀ heap, (action.ending heap).2 = heap) : Transcript action where
  requests := fun _ => []
  nextAll_requests := fun heap => (h heap).symm

def ask (request : Request) (h : ∀ heap, request.next heap = (action.ending heap).2) :
    Transcript action where
  requests := fun _ => [request]
  nextAll_requests := h

/-- An action that is an operation but for the answer. -/
def perform {answer : α → Reply} (operation : Operation Issued)
    (h : operation.run = action >>= fun value => pure (answer value)) : Transcript action :=
  .ask (.perform operation) fun heap => by
    rw [Request.next, Request.action, h, Action.state_ending_bind_pure]

/-- Only how an action ends matters. -/
def congr (transcript : Transcript action)
    (h : ∀ heap, other.ending heap = action.ending heap) : Transcript other where
  requests := transcript.requests
  nextAll_requests := fun heap => h heap ▸ transcript.nextAll_requests heap

def bind {first : Action Heap HeapError α} {next : α → Action Heap HeapError β}
    (transcript : Transcript first) (rest : ∀ value, Transcript (next value)) :
    Transcript (first >>= next) where
  requests := fun heap =>
    transcript.requests heap ++
      match first.ending heap with
      | (.ok value, after) => (rest value).requests after
      | (.error _, _) => []
  nextAll_requests := fun heap => by
    rw [Request.nextAll_append, transcript.nextAll_requests, Action.ending_bind]
    cases first.ending heap with
    | mk result after =>
        cases result with
        | ok value => exact (rest value).nextAll_requests after
        | error error => rfl

/-- The roots that the requests push are dropped at the end. -/
def withRoots (transcript : Transcript action) : Transcript (Heap.withRoots action) where
  requests := fun heap =>
    transcript.requests heap ++ [.truncateRoots heap.rootStack.length]
  nextAll_requests := fun heap => by
    rw [Request.nextAll_append, transcript.nextAll_requests]
    rfl

theorem requests_bind_of_ok {first : Action Heap HeapError α} {next : α → Action Heap HeapError β}
    (transcript : Transcript first) (rest : ∀ value, Transcript (next value))
    {heap after : Heap} {value : α} (h : first.ending heap = (.ok value, after)) :
    (transcript.bind rest).requests heap =
      transcript.requests heap ++ (rest value).requests after := by
  simp only [bind, h]

end Transcript

namespace Heap

/-- Each thing is read off the heap and stored. -/
def transcriptFillThings (script : ScriptId) (globalScope : ScopeId) :
    (index : Nat) → (sources : List ThingSource) →
      Transcript (fillThingsFrom script globalScope index sources)
  | _, [] => .silent fun _ => rfl
  | index, _ :: rest =>
    .bind (.silent fun _ => rfl) fun thing =>
      .bind (.perform (.initThing script index thing) rfl) fun _ =>
        transcriptFillThings script globalScope (index + 1) rest

end Heap

namespace Blueprint

variable (blueprint : Blueprint) (script : ScriptId)

/-- Each text is interned and its atom stored. -/
def transcriptInternStrings : (index : Nat) → (strings : List Bytes) →
    Transcript (internStrings script index strings)
  | _, [] => .silent fun _ => rfl
  | index, string :: rest =>
    .bind (.perform (.atomize string) rfl) fun atom =>
      .bind (.perform (.initAtom script index atom) rfl) fun _ =>
        transcriptInternStrings (index + 1) rest

def transcriptBuildThings (globalScope : ScopeId) :
    Transcript (blueprint.buildThings globalScope script) :=
  .bind (.perform (.createThings script blueprint.plan.length) rfl) fun _ =>
    .bind (.silent fun _ => rfl) fun _ =>
      .bind (Heap.transcriptFillThings script globalScope 0 blueprint.plan.sources) fun _ =>
        .silent fun _ => rfl

def transcriptBuildAtoms : Transcript (blueprint.buildAtoms script) :=
  .bind (.perform (.createAtoms script blueprint.strings.length) rfl) fun _ =>
    .bind (.silent fun _ => rfl) fun _ =>
      .bind (transcriptInternStrings script 0 blueprint.strings) fun _ =>
        .silent fun _ => rfl

/-- The new image is filled by a patch. -/
def transcriptBuildImage : Transcript (blueprint.buildImage script) :=
  .congr
    (.bind (.perform (.createImage script blueprint.image.code.length
        blueprint.image.notes.length) rfl) fun _ =>
      .bind (.ask (.perform (.patchImage script (.ofImage blueprint.image)))
        fun _ => Request.next_patchImage _ _ _) fun _ =>
          .perform (.setFlags script blueprint.flags) rfl)
    (Heap.ending_buildImage blueprint script)

def transcriptFill (globalScope : ScopeId) : Transcript (blueprint.fill globalScope script) :=
  .bind (blueprint.transcriptBuildThings script globalScope) fun _ =>
    .bind (blueprint.transcriptBuildAtoms script) fun _ =>
      .bind (blueprint.transcriptBuildImage script) fun _ =>
        .bind (.perform (.share script) rfl) fun _ =>
          .bind (.silent fun _ => rfl) fun _ => .silent fun _ => rfl

/-- What a client would ask for to build a script. -/
def transcript (globalScope : ScopeId) : Transcript (blueprint.build globalScope) :=
  .withRoots <|
    .bind (.perform (.allocScript blueprint.extent) rfl) fun script =>
      .bind (.ask (.pushRoot (.script script)) fun _ => rfl) fun _ =>
        .bind (.silent fun _ => rfl) fun _ => blueprint.transcriptFill script globalScope

end Blueprint

namespace Context

/-- What a materialization asks the heap of its context for. -/
def requests (descriptor : Descriptor) (sourceLength : Nat) (context : Context) : List Request :=
  match context.blueprint? descriptor sourceLength with
  | .error _ => []
  | .ok blueprint => (blueprint.transcript context.globalScope).requests context.heap

/-- The requests of a materialization leave the heap that it leaves. -/
theorem nextAll_requests (descriptor : Descriptor) (sourceLength : Nat) (context : Context) :
    Request.nextAll (context.requests descriptor sourceLength) context.heap =
      ((materialize descriptor sourceLength).ending context).2.heap := by
  rw [ending_materialize, requests]
  cases context.blueprint? descriptor sourceLength with
  | error error => rfl
  | ok blueprint =>
      exact (blueprint.transcript context.globalScope).nextAll_requests context.heap

end Context

end ScriptLinker
