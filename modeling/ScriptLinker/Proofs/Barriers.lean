import Mathlib.Data.List.DropRight
import ScriptLinker.Proofs.Persistence
import ScriptLinker.Proofs.Transcript
/-!
# The write barrier

Of all that happens to a heap two things matter to its store buffer: a collection, which
empties it, and a store that succeeds, which is recorded in it. These are the marks of a
request. `Request.logs` says that the buffer and the counters follow them request by
request, so that the buffer holds the stores since the last collection and nothing else.
A slot of a script that is filled has been filled before that collection, or its edge is in
the buffer.
-/

namespace ScriptLinker

/-- What the store buffer is about. -/
inductive Mark where
  | collection
  | store (owner : CellId) (target : CellRef)
  deriving DecidableEq

namespace Mark

/-- The edge that a store adds. -/
def edge? : Mark → Option (CellId × CellRef)
  | collection => none
  | store owner target => some (owner, target)

/-- The edges of all stores, in their order. -/
def stores (marks : List Mark) : List (CellId × CellRef) :=
  marks.filterMap edge?

/-- The edges of the stores after the last collection. -/
def latest (marks : List Mark) : List (CellId × CellRef) :=
  stores (marks.rtakeWhile fun mark => mark ≠ .collection)

theorem stores_append (first rest : List Mark) :
    stores (first ++ rest) = stores first ++ stores rest :=
  List.filterMap_append

@[simp] theorem latest_concat_collection (marks : List Mark) :
    latest (marks ++ [collection]) = [] := by
  rw [latest, List.rtakeWhile_concat_neg _ _ _ (by simp)]
  rfl

@[simp] theorem latest_concat_store (marks : List Mark) (owner : CellId) (target : CellRef) :
    latest (marks ++ [store owner target]) = latest marks ++ [(owner, target)] := by
  rw [latest, List.rtakeWhile_concat_pos _ _ _ (by simp), stores_append]
  rfl

/-- Without a collection among them, the later stores are all there. -/
theorem latest_append {rest : List Mark} (h : collection ∉ rest) (first : List Mark) :
    latest (first ++ rest) = latest first ++ stores rest := by
  induction rest using List.reverseRecOn with
  | nil => simp [stores]
  | append_singleton rest mark ih =>
      rw [List.mem_append, not_or, List.mem_singleton] at h
      cases mark with
      | collection => exact absurd rfl h.2
      | store owner target =>
          rw [← List.append_assoc, latest_concat_store, ih h.1, stores_append, List.append_assoc]
          rfl

end Mark

/-- The edge that an operation stores if it succeeds. -/
def Operation.edge? : Operation Issued → Option (CellId × CellRef)
  | .initThing script _ thing => some (script.id, thing)
  | .initAtom script _ atom => some (script.id, .atom atom)
  | .fillThings script scope => some (script.id, .scope scope)
  | .recordStore owner target => some (owner.id, target)
  | _ => none

namespace Request

/-- The edge that a request stores if it succeeds. -/
def edge? : Request → Option (CellId × CellRef)
  | perform operation => operation.edge?
  | pushRoot _ | truncateRoots _ => none

/-- The edge that a request stores. -/
def stored (request : Request) (heap : Heap) : List (CellId × CellRef) :=
  match request.result heap with
  | .ok _ => request.edge?.toList
  | .error _ => []

/-- Whether a request collected, and what it stored. -/
def marks (request : Request) (heap : Heap) : List Mark :=
  (if (request.next heap).stats.gcRuns = heap.stats.gcRuns then [] else [.collection]) ++
    (request.stored heap).map fun edge => .store edge.1 edge.2

/-- The marks of requests, first to last. -/
def marksAll : List Request → Heap → List Mark
  | [], _ => []
  | request :: rest, heap => request.marks heap ++ marksAll rest (request.next heap)

theorem marksAll_append (first rest : List Request) (heap : Heap) :
    marksAll (first ++ rest) heap = marksAll first heap ++ marksAll rest (nextAll first heap) := by
  induction first generalizing heap with
  | nil => rfl
  | cons request first ih => simp only [List.cons_append, marksAll, ih, List.append_assoc]; rfl

theorem stores_marks (request : Request) (heap : Heap) :
    Mark.stores (request.marks heap) = request.stored heap := by
  have hmap : ∀ edges : List (CellId × CellRef),
      Mark.stores (edges.map fun edge => .store edge.1 edge.2) = edges := by
    intro edges
    simp [Mark.stores, List.filterMap_map, Function.comp_def, Mark.edge?]
  rw [marks, Mark.stores_append, hmap]
  split <;> rfl

end Request

namespace Heap

/-- Nothing that the store buffer is about has happened. -/
structure Unlogged (heap after : Heap) : Prop where
  storeBuffer : after.storeBuffer = heap.storeBuffer
  gcRuns : after.stats.gcRuns = heap.stats.gcRuns
  writeBarriers : after.stats.writeBarriers = heap.stats.writeBarriers

/-- What becomes of the store buffer and its counters. -/
inductive Logs (heap : Heap) : List Mark → Heap → Prop where
  | nothing {after : Heap} : heap.Unlogged after → Logs heap [] after
  | collection {between after : Heap} : heap.Unlogged between →
      between.collected.Unlogged after → Logs heap [.collection] after
  | store {between : Heap} (owner : CellId) (target : CellRef) : heap.Unlogged between →
      Logs heap [.store owner target] (between.recordStore owner target)

variable {heap middle after : Heap}

theorem Unlogged.refl (heap : Heap) : heap.Unlogged heap :=
  ⟨rfl, rfl, rfl⟩

theorem Unlogged.trans (h : heap.Unlogged middle) (h' : middle.Unlogged after) :
    heap.Unlogged after :=
  ⟨h'.storeBuffer.trans h.storeBuffer, h'.gcRuns.trans h.gcRuns,
    h'.writeBarriers.trans h.writeBarriers⟩

/-- A move that is given no reference stores none. -/
theorem Move.unlogged (h : Move ∅ heap after) : heap.Unlogged after := by
  cases h with
  | @share script content image _ _ _ =>
      have hstats := stats_shelved script image (heap.charged script.id Charge.hold)
      exact ⟨storeBuffer_shelved script image (heap.charged script.id Charge.hold),
        congrArg HeapStats.gcRuns hstats, congrArg HeapStats.writeBarriers hstats⟩
  | barrier _ hgiven => exact absurd hgiven (Set.notMem_empty _)
  | store hgiven => exact absurd hgiven (Set.notMem_empty _)
  | _ => exact ⟨rfl, rfl, rfl⟩

theorem Moves.unlogged (h : Moves ∅ heap after) : heap.Unlogged after :=
  h.keep (fun hbefore hmove => hbefore.trans hmove.unlogged) (.refl heap)

/-- Nothing is stored; there may be a collection. -/
def Unstored (heap after : Heap) : Prop :=
  heap.Unlogged after ∨
    ∃ between, heap.Unlogged between ∧ between.collected.Unlogged after

theorem Unstored.trans_unlogged (h : heap.Unstored middle) (h' : middle.Unlogged after) :
    heap.Unstored after := by
  rcases h with h | ⟨between, hbetween, h⟩
  · exact Or.inl (h.trans h')
  · exact Or.inr ⟨between, hbetween, h.trans h'⟩

theorem Passage.unstored (h : Passage ∅ heap after) : heap.Unstored after := by
  obtain ⟨before, between, ⟨hbefore, _⟩, hcollect, hafter⟩ := h
  rcases hcollect with rfl | rfl
  · exact Or.inl (hbefore.unlogged.trans hafter.unlogged)
  · exact Or.inr ⟨before, hbefore.unlogged, hafter.unlogged⟩

theorem Places.unlogged {cell : Cell} {bytes : Nat} {id : CellId}
    (h : heap.Places cell bytes id after) : heap.Unlogged after := by
  obtain ⟨index, ready, hvacancy, _, _, rfl⟩ := h
  unfold vacancy? at hvacancy
  split at hvacancy
  · obtain ⟨_, rfl⟩ := Prod.mk.inj (Option.some.inj hvacancy)
    exact ⟨rfl, rfl, rfl⟩
  · split at hvacancy
    · obtain ⟨_, rfl⟩ := Prod.mk.inj (Option.some.inj hvacancy)
      exact ⟨rfl, rfl, rfl⟩
    · simp at hvacancy

theorem unstored_allocate (cell : Cell) (bytes : Nat) (heap : Heap) :
    heap.Unstored ((allocate cell bytes).ending heap).2 := by
  cases hallocate : (allocate cell bytes).ending heap with
  | mk result after =>
      cases result with
      | error error =>
          obtain ⟨_, _, hreserve⟩ := error_of_allocate hallocate
          exact Passage.unstored (passage_of_reserve hreserve)
      | ok id =>
          obtain ⟨ready, hreserve, hplaces⟩ := places_of_allocate hallocate
          exact (Passage.unstored (passage_of_reserve hreserve)).trans_unlogged hplaces.unlogged

theorem unstored_atomize (bytes : Bytes) (heap : Heap) :
    heap.Unstored ((atomize bytes).ending heap).2 := by
  unfold atomize
  cases Utf8.decode? bytes with
  | none => exact Or.inl (.refl heap)
  | some text =>
      dsimp only
      rw [ending_intern]
      split
      · exact Or.inl (.refl heap)
      · have hallocate := unstored_allocate (.atom text) (Charge.atom text) heap
        cases hending : (allocate (.atom text) (Charge.atom text)).ending heap with
        | mk result after =>
            rw [hending] at hallocate
            cases result with
            | ok id => exact hallocate.trans_unlogged ⟨rfl, rfl, rfl⟩
            | error error => exact hallocate

theorem unlogged_updateScript (script : ScriptId) (change : Script → Except HeapError Script)
    (heap : Heap) : heap.Unlogged ((updateScript script change).ending heap).2 := by
  rw [ending_updateScript]
  split
  · split
    · exact ⟨rfl, rfl, rfl⟩
    · exact .refl heap
  · exact .refl heap

/-- A store succeeds and is recorded, or it changes nothing. -/
theorem storeRef_cases (script : ScriptId) (ref : CellRef)
    (install : Script → Except HeapError Script) (heap : Heap) :
    (∃ between, (storeRef script ref install).ending heap =
        (.ok (), between.recordStore script.id ref) ∧ heap.Unlogged between) ∨
      ∃ error, (storeRef script ref install).ending heap = (.error error, heap) := by
  rw [ending_storeRef]
  by_cases hlive : heap.isLive ref.id = true
  · rw [if_pos hlive]
    cases heap.script script with
    | error error => exact Or.inr ⟨error, rfl⟩
    | ok content =>
        dsimp only
        cases install content with
        | error error => exact Or.inr ⟨error, rfl⟩
        | ok changed => exact Or.inl ⟨_, rfl, rfl, rfl, rfl⟩
  · rw [if_neg hlive]
    exact Or.inr ⟨_, rfl⟩

theorem fillThings_cases (script : ScriptId) (scope : ScopeId) (heap : Heap) :
    (∃ between, (fillThings .ofGlobalScript script scope).ending heap =
        (.ok (), between.recordStore script.id (.scope scope)) ∧ heap.Unlogged between) ∨
      ∃ error, (fillThings .ofGlobalScript script scope).ending heap = (.error error, heap) := by
  rw [ending_fillThings]
  cases heap.scope scope with
  | error error => exact Or.inr ⟨error, rfl⟩
  | ok content => exact storeRef_cases script _ _ heap

end Heap

namespace Request

variable {heap : Heap} {request : Request}

/-- A request for a store records it, or it fails and changes nothing. -/
theorem cases_of_edge {owner : CellId} {target : CellRef}
    (h : request.edge? = some (owner, target)) (heap : Heap) :
    (∃ reply between, request.action.ending heap = (.ok reply, between.recordStore owner target) ∧
        heap.Unlogged between) ∨
      ∃ error, request.action.ending heap = (.error error, heap) := by
  have hdone : ∀ {action : Action Heap HeapError Unit},
      ((∃ between, action.ending heap = (.ok (), between.recordStore owner target) ∧
        heap.Unlogged between) ∨ ∃ error, action.ending heap = (.error error, heap)) →
      (∃ reply between, (action >>= fun _ => pure Reply.done).ending heap =
          (.ok reply, between.recordStore owner target) ∧ heap.Unlogged between) ∨
        ∃ error, (action >>= fun _ => pure Reply.done).ending heap = (.error error, heap) := by
    rintro action (⟨between, hending, hunlogged⟩ | ⟨error, hending⟩)
    · exact Or.inl ⟨_, between, Action.ending_bind_of_ok hending _, hunlogged⟩
    · exact Or.inr ⟨error, Action.ending_bind_of_error hending _⟩
  cases request with
  | pushRoot | truncateRoots => simp [edge?] at h
  | perform operation =>
      cases operation with
      | initThing | initAtom =>
          obtain ⟨rfl, rfl⟩ := Prod.mk.inj (Option.some.inj h)
          exact hdone (Heap.storeRef_cases _ _ _ heap)
      | fillThings =>
          obtain ⟨rfl, rfl⟩ := Prod.mk.inj (Option.some.inj h)
          exact hdone (Heap.fillThings_cases _ _ heap)
      | recordStore =>
          obtain ⟨rfl, rfl⟩ := Prod.mk.inj (Option.some.inj h)
          exact Or.inl ⟨.done, heap, rfl, .refl heap⟩
      | _ => simp [edge?, Operation.edge?] at h

/-- A request for anything else stores nothing. -/
theorem unstored_next (h : request.edge? = none) (heap : Heap) :
    heap.Unstored (request.next heap) := by
  have hsame : ∀ {after : Heap}, after = heap → heap.Unstored after := by
    rintro after rfl
    exact Or.inl (.refl after)
  have hpassage : ∀ {after : Heap}, Heap.Passage ∅ heap after → heap.Unstored after :=
    Heap.Passage.unstored
  cases request with
  | pushRoot | truncateRoots => exact Or.inl ⟨rfl, rfl, rfl⟩
  | perform operation =>
      cases operation with
      | allocScope kind enclosing =>
          rw [next_allocScope]
          exact Heap.unstored_allocate _ _ heap
      | allocScript extent =>
          rw [next_allocScript]
          exact Heap.unstored_allocate _ _ heap
      | atomize bytes =>
          rw [next, action, Operation.run, Action.state_ending_bind_pure]
          exact Heap.unstored_atomize bytes heap
      | createThings script count =>
          rw [next, action, Operation.run, Action.state_ending_bind_pure]
          exact hpassage (Heap.passage_createPart (fun content => .things count) script heap)
      | createAtoms script count =>
          rw [next, action, Operation.run, Action.state_ending_bind_pure]
          exact hpassage (Heap.passage_createPart (fun content => .atoms count) script heap)
      | createImage script codeLength noteLength =>
          rw [next, action, Operation.run, Action.state_ending_bind_pure]
          exact hpassage (Heap.passage_createPart
            (fun content => .image codeLength noteLength) script heap)
      | share script =>
          rw [next, action, Operation.run, Action.state_ending_bind_pure]
          exact hpassage (Heap.passage_share script heap)
      | patchImage script patch =>
          rw [next_patchImage]
          exact Or.inl (Heap.unlogged_updateScript _ _ heap)
      | setFlags script flags =>
          rw [next, action, Operation.run, Action.state_ending_bind_pure]
          exact Or.inl (Heap.unlogged_updateScript _ _ heap)
      | addRoot cell =>
          obtain ⟨roots, free, hroots⟩ := Heap.rerooted_addRoot cell heap
          have hnext : (perform (.addRoot cell)).next heap = (heap.addRoot cell).2 := rfl
          rw [hnext, hroots]
          exact Or.inl ⟨rfl, rfl, rfl⟩
      | removeRoot root =>
          obtain ⟨roots, free, hroots⟩ := Heap.rerooted_removeRoot root heap
          have hnext : (perform (.removeRoot root)).next heap = heap.removeRoot root := rfl
          rw [hnext, hroots]
          exact Or.inl ⟨rfl, rfl, rfl⟩
      | collect => exact Or.inr ⟨heap, .refl heap, .refl _⟩
      | setZeal | failAfter => exact Or.inl ⟨rfl, rfl, rfl⟩
      | readScript | readAtom | readScope | planThing =>
          exact hsame (Action.state_ending_read_bind_pure _ _ _)
      | compareImages | askLive | readRoot | readStores | readPlan => exact hsame rfl
      | initThing | initAtom | fillThings | recordStore => simp [edge?, Operation.edge?] at h

/-- The store buffer and its counters follow the marks of a request. -/
theorem logs (request : Request) (heap : Heap) :
    heap.Logs (request.marks heap) (request.next heap) := by
  cases hedge : request.edge? with
  | none =>
      have hstored : request.stored heap = [] := by
        unfold stored
        split <;> simp [hedge]
      rw [marks, hstored, List.map_nil, List.append_nil]
      rcases unstored_next hedge heap with hquiet | ⟨between, hbetween, hafter⟩
      · rw [if_pos hquiet.gcRuns]
        exact .nothing hquiet
      · have hruns : (request.next heap).stats.gcRuns = heap.stats.gcRuns + 1 := by
          rw [hafter.gcRuns, Heap.gcRuns_collected, hbetween.gcRuns]
        rw [if_neg (by omega)]
        exact .collection hbetween hafter
  | some edge =>
      obtain ⟨owner, target⟩ := edge
      rcases cases_of_edge hedge heap with ⟨reply, between, hending, hbetween⟩ | ⟨error, hending⟩
      · have hnext : request.next heap = between.recordStore owner target :=
          congrArg Prod.snd hending
        have hresult : request.result heap = .ok reply := congrArg Prod.fst hending
        have hruns : (between.recordStore owner target).stats.gcRuns = heap.stats.gcRuns :=
          hbetween.gcRuns
        rw [marks, stored, hresult, hnext, if_pos hruns, hedge]
        exact .store owner target hbetween
      · have hnext : request.next heap = heap := congrArg Prod.snd hending
        have hresult : request.result heap = .error error := congrArg Prod.fst hending
        rw [marks, stored, hresult, hnext, if_pos rfl]
        exact .nothing (.refl heap)

end Request

namespace Heap

variable {heap after : Heap} {marks more : List Mark}

/-- The store buffer and its counters agree with the marks since the heap was made. -/
structure Logged (marks : List Mark) (heap : Heap) : Prop where
  storeBuffer : heap.storeBuffer.toList = Mark.latest marks
  writeBarriers : heap.stats.writeBarriers = (Mark.stores marks).length
  gcRuns : heap.stats.gcRuns = marks.count .collection

theorem Initial.logged (h : heap.Initial) : heap.Logged [] := by
  cases h with
  | ofLimits limits => exact ⟨rfl, rfl, rfl⟩
  | ofSettings hsettings =>
      rw [eq_of_ofSettings? hsettings]
      exact ⟨rfl, rfl, rfl⟩

theorem Logged.next (h : heap.Logged marks) (hlogs : heap.Logs more after) :
    after.Logged (marks ++ more) := by
  cases hlogs with
  | nothing hquiet =>
      rw [List.append_nil]
      exact ⟨hquiet.storeBuffer ▸ h.storeBuffer, hquiet.writeBarriers.trans h.writeBarriers,
        hquiet.gcRuns.trans h.gcRuns⟩
  | collection hbetween hafter =>
      refine ⟨?_, ?_, ?_⟩
      · rw [hafter.storeBuffer, storeBuffer_collected, Mark.latest_concat_collection]
      · rw [Mark.stores_append, List.length_append]
        exact hafter.writeBarriers.trans (hbetween.writeBarriers.trans h.writeBarriers)
      · rw [hafter.gcRuns, gcRuns_collected, hbetween.gcRuns, h.gcRuns, List.count_append]
        rfl
  | store owner target hbetween =>
      refine ⟨?_, ?_, ?_⟩
      · rw [recordStore, Array.toList_push, hbetween.storeBuffer, h.storeBuffer,
          Mark.latest_concat_store]
      · rw [Mark.stores_append, List.length_append, ← h.writeBarriers, ← hbetween.writeBarriers]
        rfl
      · rw [List.count_append, ← h.gcRuns, ← hbetween.gcRuns]
        rfl

theorem Logged.nextAll (h : heap.Logged marks) (requests : List Request) :
    (Request.nextAll requests heap).Logged (marks ++ Request.marksAll requests heap) := by
  induction requests generalizing heap marks with
  | nil => exact (List.append_nil marks).symm ▸ h
  | cons request rest ih =>
      have hrest := ih (h.next (request.logs heap))
      rwa [List.append_assoc] at hrest

end Heap

end ScriptLinker
