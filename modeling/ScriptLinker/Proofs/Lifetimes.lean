import ScriptLinker.Proofs.Client
import ScriptLinker.Proofs.History
/-!
# How long addresses last

A collection moves a slot on by one generation at most, so no slot starts over
before there have been as many collections as there are generations. Up to then
whatever a client does with the references it was handed out is a run of admitted
requests, and an address that names nothing never names anything again. The
contexts that a client leads to in this way are the `Served` ones.
-/

namespace ScriptLinker

namespace Heap

variable {given : Set CellRef} {heap middle after : Heap}

theorem Move.gcRuns_eq (h : Move given heap after) : after.stats.gcRuns = heap.stats.gcRuns := by
  cases h with
  | @share script content image _ _ _ =>
      exact congrArg HeapStats.gcRuns
        (stats_shelved script image (heap.charged script.id Charge.hold))
  | _ => rfl

theorem Moves.gcRuns_eq (h : Moves given heap after) : after.stats.gcRuns = heap.stats.gcRuns :=
  h.keep (fun hbefore hmove => hmove.gcRuns_eq.trans hbefore) rfl

theorem Places.stats_eq {cell : Cell} {bytes : Nat} {id : CellId}
    (h : heap.Places cell bytes id after) : after.stats = heap.stats := by
  obtain ⟨index, ready, hvacancy, _, _, rfl⟩ := h
  unfold vacancy? at hvacancy
  split at hvacancy
  · obtain ⟨_, rfl⟩ := Prod.mk.inj (Option.some.inj hvacancy)
    rfl
  · split at hvacancy
    · obtain ⟨_, rfl⟩ := Prod.mk.inj (Option.some.inj hvacancy)
      rfl
    · simp at hvacancy

theorem Birth.stats_eq {issue : Issue} (h : Birth heap issue after) : after.stats = heap.stats := by
  cases h with
  | plain _ hplaces => exact hplaces.stats_eq
  | atom _ hplaces => exact hplaces.stats_eq

/-- A collection leaves a slot in its generation or moves it on by one. -/
theorem generationAt_collected_cases (heap : Heap) (index : Nat) :
    heap.collected.generationAt index = heap.generationAt index ∨
      heap.collected.generationAt index = (heap.generationAt index + 1) % UInt32.size := by
  have hslot := getElem?_slots_collected heap index
  cases hold : heap.slots[index]? with
  | none =>
      rw [hold, Option.map_none] at hslot
      exact Or.inl (generationAt_congr (hslot.trans hold.symm))
  | some slot =>
      rw [hold, Option.map_some] at hslot
      rw [generationAt_of_getElem? hslot, generationAt_of_getElem? hold]
      split
      · exact Or.inr rfl
      · exact Or.inl rfl

/-- No slot has moved on more often than there were collections. -/
def Aged (heap : Heap) : Prop :=
  ∀ index, heap.generationAt index ≤ heap.stats.gcRuns

/-- What a heap becomes in time: collections add up, and no slot starts over before
they outnumber the generations. -/
structure Ages (heap after : Heap) : Prop where
  gcRuns_le : heap.stats.gcRuns ≤ after.stats.gcRuns
  aged : heap.Aged → after.Aged
  no_wrap : heap.Aged → after.stats.gcRuns < UInt32.size →
    ∀ index, heap.generationAt index ≤ after.generationAt index

namespace Ages

theorem of_eq (hruns : after.stats.gcRuns = heap.stats.gcRuns)
    (hgeneration : ∀ index, after.generationAt index = heap.generationAt index) :
    Ages heap after where
  gcRuns_le := hruns.ge
  aged := fun h index => by
    rw [hgeneration, hruns]
    exact h index
  no_wrap := fun _ _ index => (hgeneration index).ge

theorem trans (h : Ages heap middle) (h' : Ages middle after) : Ages heap after where
  gcRuns_le := h.gcRuns_le.trans h'.gcRuns_le
  aged := fun haged => h'.aged (h.aged haged)
  no_wrap := fun haged hruns index =>
    (h.no_wrap haged (h'.gcRuns_le.trans_lt hruns) index).trans
      (h'.no_wrap (h.aged haged) hruns index)

theorem collected (heap : Heap) : Ages heap heap.collected where
  gcRuns_le := Nat.le_succ _
  aged := fun h index => by
    rw [gcRuns_collected]
    have hle := h index
    rcases generationAt_collected_cases heap index with hsame | hnext
    · omega
    · exact hnext ▸ (Nat.mod_le _ _).trans (Nat.succ_le_succ hle)
  no_wrap := fun h hruns index => by
    rw [gcRuns_collected] at hruns
    have hle := h index
    rcases generationAt_collected_cases heap index with hsame | hnext
    · exact hsame.ge
    · rw [hnext, Nat.mod_eq_of_lt (by omega)]
      exact Nat.le_succ _

theorem of_move (h : Move given heap after) : Ages heap after :=
  .of_eq h.gcRuns_eq h.slotChange.generationAt_eq

theorem of_passage (h : Passage given heap after) : Ages heap after :=
  h.keep (fun hages hmove => hages.trans (of_move hmove))
    (fun hages => hages.trans (.collected _)) (.of_eq rfl fun _ => rfl)

theorem of_birth {issue : Issue} (hslots : heap.SlotsSound) (h : Birth heap issue after) :
    Ages heap after := by
  obtain ⟨bytes, placed, hplaced, hafter⟩ := h.placed hslots
  refine .of_eq (congrArg HeapStats.gcRuns h.stats_eq) fun index => ?_
  rw [hafter]
  exact hplaced.generationAt_eq index

/-- A heap ages by requests. -/
theorem next (h : heap.Sound) (request : Request) : Ages heap (request.next heap) := by
  rcases request.next_cases h with hpassage | ⟨_, _, _, hpassage, hbirth⟩ | ⟨roots, free, hroots⟩
  · exact of_passage hpassage
  · exact (of_passage hpassage).trans (of_birth (h.passage hpassage).slots hbirth)
  · rw [hroots]
    exact .of_eq rfl fun _ => rfl

end Ages

/-- The slots of an empty heap are all in their first generation. -/
theorem Initial.aged (h : heap.Initial) : heap.Aged := by
  intro index
  simp [generationAt, addressOf, h.slots_eq, Array.getD_eq_getD_getElem?]

theorem Reachable.aged (h : heap.Reachable) : heap.Aged := by
  induction h with
  | initial hinitial => exact hinitial.aged
  | request request hreachable ih => exact (Ages.next hreachable.sound request).aged ih

end Heap

namespace History

/-- A run leads from a history to a heap, with the references in the list handed
out, unless generations may have started over. -/
structure LeadsTo (start : History) (returned : List CellRef) (heap : Heap) : Prop where
  reachable : heap.Reachable
  run : heap.stats.gcRuns < UInt32.size →
    ∃ later, Run start later ∧ later.heap = heap ∧ returned ⊆ later.returned

variable {start : History} {returned : List CellRef} {heap : Heap}

theorem leadsTo_refl (h : start.heap.Reachable) : start.LeadsTo start.returned start.heap :=
  ⟨h, fun _ => ⟨start, .refl, rfl, List.Subset.refl _⟩⟩

/-- A client that passes only what it was handed out makes admitted requests. -/
theorem clientInvariant_leadsTo (start : History) : Heap.ClientInvariant start.LeadsTo where
  next := by
    intro returned heap request h hrefs
    have hages := Heap.Ages.next h.reachable.sound request
    refine ⟨h.reachable.request request, fun hruns => ?_⟩
    obtain ⟨later, hrun, rfl, hsubset⟩ := h.run (hages.gcRuns_le.trans_lt hruns)
    have hadmits : later.Admits request :=
      ⟨fun ref href => hsubset (hrefs ref href), hages.no_wrap h.reachable.aged hruns⟩
    refine ⟨later.next request, hrun.tail ⟨request, hadmits, rfl⟩, rfl, ?_⟩
    exact fun ref href => List.mem_append.2 ((List.mem_append.1 href).imp_right fun h => hsubset h)
  mono := by
    intro returned fewer heap h hfewer
    refine ⟨h.reachable, fun hruns => ?_⟩
    obtain ⟨later, hrun, hheap, hsubset⟩ := h.run hruns
    exact ⟨later, hrun, hheap, List.Subset.trans hfewer hsubset⟩

end History

namespace Context

/-- The contexts of a client that passes only references it was handed out, with
these references. -/
inductive Served : Context → List CellRef → Prop where
  | start {config : EngineConfig} {context : Context} {events : List Event} :
      ofConfig? config = .ok (context, events) → Served context [.scope context.globalScope]
  | request {context : Context} {returned : List CellRef} (request : Request) :
      Served context returned → (∀ ref ∈ request.refs, ref ∈ returned) →
      Served { context with heap := request.next context.heap }
        (request.handedOut context.heap ++ returned)
  | materialize {context after : Context} {returned : List CellRef} {script : ScriptId}
      (descriptor : Descriptor) (sourceLength : Nat) : Served context returned →
      (materialize descriptor sourceLength).ending context = (.ok script, after) →
      Served after (.script script :: returned)
  | failed {context after : Context} {returned : List CellRef} {error : LinkError}
      (descriptor : Descriptor) (sourceLength : Nat) : Served context returned →
      (Context.materialize descriptor sourceLength).ending context = (.error error, after) →
      Served after returned
  | setOptions {context : Context} {returned : List CellRef} (options : CompileOptions) :
      Served context returned → Served { context with options } returned
  | setSink {context : Context} {returned : List CellRef} (sink : Sink) :
      Served context returned → Served { context with sink } returned

namespace Served

variable {context after : Context} {returned : List CellRef}

theorem globalScope_mem (h : Served context returned) :
    .scope context.globalScope ∈ returned := by
  have hscope : ∀ {context after : Context} {result : Except LinkError ScriptId}
      {descriptor : Descriptor} {sourceLength : Nat},
      (Context.materialize descriptor sourceLength).ending context = (result, after) →
      after.globalScope = context.globalScope := by
    intro context after result descriptor sourceLength hending
    have hstate := congrArg Context.globalScope (state_materialize descriptor sourceLength context)
    rwa [hending] at hstate
  induction h with
  | start _ => exact List.mem_singleton_self _
  | request request _ _ ih => exact List.mem_append_right _ ih
  | materialize _ _ _ hending ih => exact List.mem_cons_of_mem _ (hscope hending ▸ ih)
  | failed _ _ _ hending ih => exact hscope hending ▸ ih
  | setOptions _ _ ih => exact ih
  | setSink _ _ ih => exact ih

/-- What requests keep, and holds of empty heaps, holds of what a client leads to. -/
theorem holds {holds : List CellRef → Heap → Prop} (hclient : Heap.ClientInvariant holds)
    (hinitial : ∀ heap : Heap, heap.Initial → holds [] heap) (h : Served context returned) :
    holds returned context.heap := by
  induction h with
  | start hstart => exact holds_of_ofConfig? hclient hstart hinitial
  | request request _ hrefs ih => exact hclient.next request ih hrefs
  | materialize descriptor sourceLength hserved hending ih =>
      have hbuild := ensures_materialize hclient ih hserved.globalScope_mem descriptor sourceLength
      exact hbuild.of_ok hending
  | failed descriptor sourceLength hserved hending ih =>
      have hbuild := ensures_materialize hclient ih hserved.globalScope_mem descriptor sourceLength
      exact hbuild.of_error hending
  | setOptions options _ ih => exact ih
  | setSink sink _ ih => exact ih

/-- A client may make any requests that pass only what it has. -/
theorem nextAll (h : Served context returned) (requests : List Request)
    (hrefs : ∀ request ∈ requests, ∀ ref ∈ request.refs, ref ∈ returned) :
    ∃ more, Served { context with heap := Request.nextAll requests context.heap }
      (more ++ returned) := by
  induction requests generalizing context returned with
  | nil => exact ⟨[], h⟩
  | cons request rest ih =>
      have hnext := h.request request (hrefs request List.mem_cons_self)
      obtain ⟨more, hrest⟩ := ih hnext fun other hother ref href =>
        List.mem_append_right _ (hrefs other (List.mem_cons_of_mem _ hother) ref href)
      exact ⟨more ++ request.handedOut context.heap, by rwa [List.append_assoc]⟩

/-- The heap of a client's context has a run behind it that starts empty. -/
theorem exists_leadsTo (h : Served context returned) :
    ∃ start : Heap, start.Initial ∧ History.LeadsTo { heap := start } returned context.heap := by
  have hclient : Heap.ClientInvariant fun returned heap =>
      ∃ start : Heap, start.Initial ∧ History.LeadsTo { heap := start } returned heap := by
    refine ⟨?_, ?_⟩
    · rintro returned heap request ⟨start, hinitial, hleads⟩ hrefs
      exact ⟨start, hinitial, (History.clientInvariant_leadsTo _).next request hleads hrefs⟩
    · rintro returned fewer heap ⟨start, hinitial, hleads⟩ hfewer
      exact ⟨start, hinitial, (History.clientInvariant_leadsTo _).mono hleads hfewer⟩
  exact h.holds hclient fun heap hinitial =>
    ⟨heap, hinitial, History.leadsTo_refl (.initial hinitial)⟩

theorem heap_reachable (h : Served context returned) : context.heap.Reachable := by
  obtain ⟨_, _, hleads⟩ := h.exists_leadsTo
  exact hleads.reachable

/-- No generation starts over before there are as many collections as generations. -/
theorem heap_admitted (h : Served context returned)
    (hruns : context.heap.stats.gcRuns < UInt32.size) : context.heap.Admitted := by
  obtain ⟨start, hinitial, hleads⟩ := h.exists_leadsTo
  obtain ⟨history, hrun, hheap, _⟩ := hleads.run hruns
  exact ⟨start, history, hinitial, hrun, hheap⟩

end Served

end Context

end ScriptLinker
