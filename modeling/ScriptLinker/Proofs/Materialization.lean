import ScriptLinker.Proofs.Client
import ScriptLinker.Proofs.History
/-!
# A materialization as a run of requests

Building a script allocates many times. All the same it does to a heap what requests do that
pass only references handed out before, and its collections skip what theirs do, so that what
holds of every run holds between its allocations as well.
-/

namespace ScriptLinker

namespace History

/-- Requests that pass only what was handed out before lead from a history to a record, with
the references in the list handed out. -/
def Records (history : History) (returned : List CellRef) (record : Heap.Record) : Prop :=
  ∃ requests, history.Passes requests ∧ (nextAll requests history).heap = record.heap ∧
    returned ⊆ (nextAll requests history).returned ∧
    Request.skipsAll requests history.heap = record.skipped

theorem recordInvariant_records (history : History) :
    Heap.RecordInvariant (fun _ => True) history.Records where
  next := by
    rintro returned ⟨heap, skipped⟩ request _ ⟨requests, hpasses, rfl, hreturned, rfl⟩ hrefs
    refine ⟨requests ++ [request], ?_, ?_, ?_, ?_⟩
    · exact (passes_append _ _ _).2 ⟨hpasses, fun ref href => hreturned (hrefs ref href), trivial⟩
    · rw [nextAll_append]
      rfl
    · rw [nextAll_append]
      exact fun ref href => List.mem_append.2 ((List.mem_append.1 href).imp_right (hreturned ·))
    · rw [Request.skipsAll_append, ← heap_nextAll]
      exact congrArg (_ ++ ·) (List.append_nil _)
  mono := by
    rintro returned fewer record ⟨requests, hpasses, hheap, hreturned, hskipped⟩ hfewer
    exact ⟨requests, hpasses, hheap, List.Subset.trans hfewer hreturned, hskipped⟩

/-- A materialization does what requests do that pass only references handed out before: to
the heap, and in what its collections skip. -/
theorem exists_requests_of_materialize {context : Context} {history : History}
    (hheap : context.heap = history.heap) (hscope : .scope context.globalScope ∈ history.returned)
    (descriptor : Descriptor) (sourceLength : Nat) :
    ∃ requests, history.Passes requests ∧
      (nextAll requests history).heap =
        ((Context.materialize descriptor sourceLength).ending context).2.heap ∧
      Request.skipsAll requests history.heap =
        (Context.materialize descriptor sourceLength).skips context ∧
      ∀ script, ((Context.materialize descriptor sourceLength).ending context).1 = .ok script →
        .script script ∈ (nextAll requests history).returned := by
  have hstart : history.Records history.returned ⟨context.heap, []⟩ :=
    ⟨[], trivial, hheap.symm, List.Subset.refl _, rfl⟩
  have hbuild := Context.ensures_materialize_record history.recordInvariant_records
    (fun _ => trivial) [] hstart hscope descriptor sourceLength
  cases hending : (Context.materialize descriptor sourceLength).ending context with
  | mk result after =>
      cases result with
      | ok script =>
          obtain ⟨requests, hpasses, hafter, hreturned, hskips⟩ := hbuild.of_ok hending
          refine ⟨requests, hpasses, hafter, hskips, fun made hmade => ?_⟩
          obtain rfl := Except.ok.inj hmade
          exact hreturned List.mem_cons_self
      | error error =>
          obtain ⟨requests, hpasses, hafter, _, hskips⟩ := hbuild.of_error hending
          exact ⟨requests, hpasses, hafter, hskips, fun made hmade => by cases hmade⟩

end History

namespace Context

/-- A materialization asks its heap for nothing but what requests do. -/
theorem exists_requests_of_materialize (context : Context) (descriptor : Descriptor)
    (sourceLength : Nat) :
    ∃ requests, ((materialize descriptor sourceLength).ending context).2.heap =
      Request.nextAll requests context.heap := by
  let history : History := { heap := context.heap, returned := [.scope context.globalScope] }
  have hscope : .scope context.globalScope ∈ history.returned := List.mem_singleton_self _
  obtain ⟨requests, _, hafter, _⟩ :=
    History.exists_requests_of_materialize rfl hscope descriptor sourceLength
  exact ⟨requests, hafter.symm.trans (History.heap_nextAll requests history)⟩

end Context

end ScriptLinker
