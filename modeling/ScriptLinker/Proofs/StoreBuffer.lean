import ScriptLinker.Proofs.Barriers
/-!
# What the store buffer remembers

`storeBuffer_exact` is the specification of the write barrier along any run of requests and
materializations: the buffer holds the stores since the last collection, in their order, so
that every edge that a live script has got since then is in it. A materialization is a run
of requests like any other; one that succeeds stores its global scope and an atom for each
of its strings.
-/

namespace ScriptLinker

/-- What a slot of a script holds. -/
def Script.held? (content : Script) : SlotTable → Nat → Option CellRef
  | .things, index => content.thingSlots[index]?.join
  | .atoms, index => content.atomSlots[index]?.join.map CellRef.atom

def Cell.held? : Cell → SlotTable → Nat → Option CellRef
  | .script content => content.held?
  | .atom _ | .scope _ => fun _ _ => none

/-- What a slot of the script at an address holds, if there is a script. -/
def Heap.held? (heap : Heap) (id : CellId) (table : SlotTable) (index : Nat) : Option CellRef :=
  (heap.cell? id).bind fun cell => cell.held? table index

namespace Script

variable {content changed : Script}

/-- The image is in no slot. -/
theorem held?_setImage (content : Script) (image : ImageState) :
    { content with image }.held? = content.held? := by
  funext table index
  cases table <;> rfl

/-- The slots of a new part are empty. -/
theorem Grows.held?_eq {bytes : Nat} (h : content.Grows bytes changed) :
    changed.held? = content.held? := by
  funext table index
  cases h with
  | things count hmissing =>
      have hnone : content.things = none := by
        simpa [has] using ((requireMissing_eq_ok_iff _ _).1 hmissing).2
      cases table with
      | atoms => rfl
      | things => by_cases hindex : index < count <;> simp [held?, thingSlots, hnone, hindex]
  | atoms count hmissing =>
      have hnone : content.atoms = none := by
        simpa [has] using ((requireMissing_eq_ok_iff _ _).1 hmissing).2
      cases table with
      | things => rfl
      | atoms => by_cases hindex : index < count <;> simp [held?, atomSlots, hnone, hindex]
  | image codeLength noteLength _ => exact congrFun₂ (held?_setImage content _) table index

theorem Edits.held?_eq (h : content.Edits changed) : changed.held? = content.held? := by
  cases h with
  | flags hset =>
      obtain ⟨_, rfl⟩ := (setFlags_eq_ok_iff _ _ _).1 hset
      funext table index
      cases table <;> rfl
  | image _ _ => exact held?_setImage content _

/-- A store changes what one slot holds. -/
theorem Stores.held?_cases {ref : CellRef} (h : content.Stores ref changed) (table : SlotTable)
    (index : Nat) :
    changed.held? table index = content.held? table index ∨
      changed.held? table index = some ref := by
  cases h with
  | @thing place _ _ hset =>
      obtain ⟨_, slots, hslots, hplace, rfl⟩ := (setThing_eq_ok_iff _ _ _ _).1 hset
      cases table with
      | atoms => exact Or.inl rfl
      | things =>
          by_cases hindex : place = index
          · subst hindex
            exact Or.inr (by simp [held?, thingSlots, hplace])
          · exact Or.inl (by simp [held?, thingSlots, hslots, hindex])
  | @atom place atom _ hset =>
      obtain ⟨_, slots, hslots, hplace, rfl⟩ := (setAtom_eq_ok_iff _ _ _ _).1 hset
      cases table with
      | things => exact Or.inl rfl
      | atoms =>
          by_cases hindex : place = index
          · subst hindex
            exact Or.inr (by simp [held?, atomSlots, hplace])
          · exact Or.inl (by simp [held?, atomSlots, hslots, hindex])

end Script

/-- What is held is referred to. -/
theorem Cell.mem_references_of_held? {cell : Cell} {table : SlotTable} {index : Nat}
    {ref : CellRef} (h : cell.held? table index = some ref) : ref ∈ cell.references := by
  cases cell with
  | atom | scope => simp [held?] at h
  | script content =>
      rw [mem_references_script]
      cases table with
      | things =>
          exact Or.inl (List.mem_of_getElem? (Option.join_eq_some_iff.1 h))
      | atoms =>
          obtain ⟨atom, hatom, rfl⟩ := Option.map_eq_some_iff.1 h
          exact Or.inr ⟨atom, List.mem_of_getElem? (Option.join_eq_some_iff.1 hatom), rfl⟩

namespace Heap

variable {given : Set CellRef} {base heap after : Heap} {script : ScriptId}
  {content changed : Script} {id : CellId} {table : SlotTable} {index : Nat} {ref : CellRef}

theorem held?_of_script (h : heap.script script = .ok content) (table : SlotTable)
    (index : Nat) : heap.held? script.id table index = content.held? table index := by
  rw [held?, (script_eq_ok_iff _ _ _).1 h]
  rfl

theorem Rewrites.held?_cases {recharge : Nat → Nat}
    (h : heap.Rewrites script changed recharge after) (hscript : heap.script script = .ok content)
    (id : CellId) (table : SlotTable) (index : Nat) :
    after.held? id table index = heap.held? id table index ∨
      id = script.id ∧ after.held? id table index = changed.held? table index := by
  rw [Heap.held?, h.cell? hscript]
  split
  · exact Or.inr ⟨‹_›, rfl⟩
  · exact Or.inl rfl

/-- A script that is rewritten without a store holds what it held. -/
theorem Rewrites.held?_eq {recharge : Nat → Nat}
    (h : heap.Rewrites script changed recharge after) (hscript : heap.script script = .ok content)
    (hheld : changed.held? = content.held?) (id : CellId) (table : SlotTable) (index : Nat) :
    after.held? id table index = heap.held? id table index := by
  rcases h.held?_cases hscript id table index with hsame | ⟨rfl, hchanged⟩
  · exact hsame
  · rw [hchanged, hheld, held?_of_script hscript]

/-- A move leaves what a slot holds, or stores it and remembers that. -/
theorem Move.held?_cases (h : Move given heap after) (id : CellId) (table : SlotTable)
    (index : Nat) :
    after.held? id table index = heap.held? id table index ∨
      ∃ ref, after.held? id table index = some ref ∧ (id, ref) ∈ after.storeBuffer := by
  cases h with
  | create hscript _ hgrows =>
      exact Or.inl ((rewrites_create heap _ _ _).held?_eq hscript hgrows.held?_eq id table index)
  | edit hscript hedits =>
      exact Or.inl ((rewrites_setScript heap _ _).held?_eq hscript hedits.held?_eq id table index)
  | share hscript _ _ =>
      exact Or.inl ((rewrites_share hscript _ _).held?_eq hscript (Script.held?_setImage _ _) id
        table index)
  | @store script content changed ref _ _ hscript hstores =>
      rcases (rewrites_store heap script changed ref).held?_cases hscript id table index with
        hsame | ⟨rfl, hchanged⟩
      · exact Or.inl hsame
      · rw [hchanged, held?_of_script hscript]
        refine (hstores.held?_cases table index).imp_right fun hstored => ⟨ref, hstored, ?_⟩
        exact Array.mem_push_self
  | _ => exact Or.inl rfl

/-- A move forgets no store. -/
theorem Move.mem_storeBuffer {edge : CellId × CellRef} (h : Move given heap after)
    (hedge : edge ∈ heap.storeBuffer) : edge ∈ after.storeBuffer := by
  cases h with
  | barrier | store => exact Array.mem_push.2 (Or.inl hedge)
  | @share script content image _ _ _ =>
      have hbuffer := storeBuffer_shelved script image (heap.charged script.id Charge.hold)
      exact (congrArg (edge ∈ ·) hbuffer).mpr hedge
  | _ => exact hedge

/-- Whatever the slots of the scripts hold that they did not hold on `base` is remembered. -/
def Remembers (base heap : Heap) : Prop :=
  ∀ id table index ref, heap.held? id table index = some ref →
    base.held? id table index = some ref ∨ (id, ref) ∈ heap.storeBuffer

theorem Remembers.refl (heap : Heap) : heap.Remembers heap :=
  fun _ _ _ _ => Or.inl

theorem Remembers.move (h : base.Remembers heap) (hmove : Move given heap after) :
    base.Remembers after := by
  intro id table index ref hheld
  rcases hmove.held?_cases id table index with hsame | ⟨stored, hstored, hedge⟩
  · exact (h id table index ref (hsame ▸ hheld)).imp_right hmove.mem_storeBuffer
  · obtain rfl := Option.some.inj (hstored.symm.trans hheld)
    exact Or.inr hedge

theorem Remembers.congr (h : base.Remembers heap)
    (hheld : ∀ id table index, after.held? id table index = heap.held? id table index)
    (hbuffer : after.storeBuffer = heap.storeBuffer) : base.Remembers after := by
  intro id table index ref
  rw [hheld, hbuffer]
  exact h id table index ref

/-- A passage in which nothing is collected consists of moves. -/
theorem Passage.moves_of_gcRuns_eq (h : Passage given heap after)
    (hruns : after.stats.gcRuns = heap.stats.gcRuns) : Moves given heap after := by
  obtain ⟨before, between, ⟨hbefore, _⟩, hcollect, hafter⟩ := h
  rcases hcollect with rfl | rfl
  · exact hbefore.trans hafter
  · have hrest := hafter.gcRuns_eq
    rw [gcRuns_collected, hbefore.gcRuns_eq] at hrest
    omega

/-- A new cell holds nothing yet that a slot could. -/
theorem Remembers.birth {issue : Issue} (h : base.Remembers heap) (hslots : heap.SlotsSound)
    (hbirth : Birth heap issue after)
    (hplain : ∀ content, issue.cell = .script content → (Cell.script content).references = []) :
    base.Remembers after := by
  obtain ⟨_, placed, hplaced, hafter⟩ := hbirth.placed hslots
  have hbuffer : after.storeBuffer = heap.storeBuffer := by
    rw [hafter]
    exact hplaced.storeBuffer
  intro id table index ref hheld
  rw [held?, hbirth.cell? hslots] at hheld
  split at hheld
  · have hmem := Cell.mem_references_of_held? hheld
    cases hcell : issue.cell with
    | atom | scope => simp [hcell, Cell.held?] at hheld
    | script content =>
        rw [hcell, hplain content hcell] at hmem
        exact absurd hmem List.not_mem_nil
  · rw [hbuffer]
    exact h id table index ref hheld

/-- A request that does not collect remembers what it stores. -/
theorem Remembers.next {request : Request} (h : base.Remembers heap) (hsound : heap.Sound)
    (hruns : (request.next heap).stats.gcRuns = heap.stats.gcRuns) :
    base.Remembers (request.next heap) := by
  rcases request.next_cases hsound with
    hpassage | ⟨between, issue, hborn, hpassage, hbirth⟩ | ⟨roots, free, hroots⟩
  · exact (hpassage.moves_of_gcRuns_eq hruns).keep Remembers.move h
  · have hbetween : between.stats.gcRuns = heap.stats.gcRuns := by
      rw [← hruns, hbirth.stats_eq]
    refine ((hpassage.moves_of_gcRuns_eq hbetween).keep Remembers.move h).birth
      (hsound.passage hpassage).slots hbirth ?_
    intro content hcell
    exact Request.references_eq_nil_of_asked (hcell ▸ Request.asked?_of_born? hborn)
  · rw [hroots]
    exact h.congr (fun _ _ _ => rfl) rfl

end Heap

namespace Request

variable {heap : Heap} {request : Request}

theorem gcRuns_next_of_marks (h : Mark.collection ∉ request.marks heap) :
    (request.next heap).stats.gcRuns = heap.stats.gcRuns := by
  by_contra hruns
  exact h (by simp [marks, hruns])

theorem remembers_nextAll {requests : List Request} (h : heap.Reachable)
    (hmarks : Mark.collection ∉ marksAll requests heap) :
    heap.Remembers (nextAll requests heap) := by
  induction requests using List.reverseRecOn with
  | nil => exact .refl heap
  | append_singleton first request ih =>
      rw [marksAll_append, List.mem_append, not_or] at hmarks
      have hlast : Mark.collection ∉ request.marks (nextAll first heap) := by
        simpa [marksAll] using hmarks.2
      rw [nextAll_append]
      exact (ih hmarks.1).next (h.nextAll first).sound (gcRuns_next_of_marks hlast)

end Request

namespace Transcript

variable {α β : Type} {action other : Action Heap HeapError α}

/-- What a transcript stores where its action succeeds. -/
def Stores (transcript : Transcript action) (stored : α → List (CellId × CellRef) → Prop) :
    Prop :=
  ∀ heap value after, action.ending heap = (.ok value, after) →
    stored value (Mark.stores (Request.marksAll (transcript.requests heap) heap))

theorem stores_silent (h : ∀ heap, (action.ending heap).2 = heap) :
    (silent h).Stores fun _ edges => edges = [] :=
  fun _ _ _ _ => rfl

theorem stores_ask {request : Request} (h : ∀ heap, request.next heap = (action.ending heap).2)
    (hedge : request.edge? = none) : (ask request h).Stores fun _ edges => edges = [] := by
  intro heap value after _
  have hmarks : Request.marksAll [request] heap = request.marks heap := List.append_nil _
  rw [ask, hmarks, Request.stores_marks, Request.stored, hedge]
  split <;> rfl

theorem stores_perform {answer : α → Reply} {operation : Operation Issued}
    (h : operation.run = action >>= fun value => pure (answer value)) :
    (perform operation h).Stores fun _ edges => edges = operation.edge?.toList := by
  intro heap value after hending
  have hmarks : Request.marksAll [.perform operation] heap =
      (Request.perform operation).marks heap := List.append_nil _
  have hresult : (Request.perform operation).result heap = .ok (answer value) := by
    rw [Request.result, Request.action, h, Action.ending_bind_of_ok hending]
    rfl
  change Mark.stores (Request.marksAll [.perform operation] heap) = _
  rw [hmarks, Request.stores_marks, Request.stored, hresult]
  rfl

theorem Stores.congr {transcript : Transcript action}
    {stored : α → List (CellId × CellRef) → Prop} (h : transcript.Stores stored)
    (hending : ∀ heap, other.ending heap = action.ending heap) :
    (transcript.congr hending).Stores stored :=
  fun heap value after hother => h heap value after ((hending heap).symm.trans hother)

section Bind

variable {first : Action Heap HeapError α} {next : α → Action Heap HeapError β}
  {transcript : Transcript first} {rest : ∀ value, Transcript (next value)}
  {firstStored : α → List (CellId × CellRef) → Prop}
  {stored : β → List (CellId × CellRef) → Prop}

theorem Stores.bind {nextStored : α → β → List (CellId × CellRef) → Prop}
    (h : transcript.Stores firstStored) (hrest : ∀ value, (rest value).Stores (nextStored value))
    (hboth : ∀ value last edges more, firstStored value edges → nextStored value last more →
      stored last (edges ++ more)) : (transcript.bind rest).Stores stored := by
  intro heap last after hending
  obtain ⟨value, hvalue, hnext⟩ := Action.ok_of_ending_bind (congrArg Prod.fst hending)
  have hfirst : first.ending heap = (.ok value, (first.ending heap).2) := Prod.ext hvalue rfl
  rw [requests_bind_of_ok transcript rest hfirst, Request.marksAll_append, Mark.stores_append,
    transcript.nextAll_requests]
  exact hboth value last _ _ (h heap value _ hfirst) (hrest value _ last _ (Prod.ext hnext rfl))

theorem Stores.nil_bind (h : transcript.Stores fun _ edges => edges = [])
    (hrest : ∀ value, (rest value).Stores stored) : (transcript.bind rest).Stores stored :=
  h.bind hrest fun _ _ _ _ hedges hmore => hedges ▸ hmore

theorem Stores.bind_nil {edges : List (CellId × CellRef) → Prop}
    (h : transcript.Stores fun _ => edges)
    (hrest : ∀ value, (rest value).Stores fun _ more => more = []) :
    (transcript.bind rest).Stores fun _ => edges :=
  h.bind hrest fun _ _ all _ hedges hmore => by rwa [hmore, List.append_nil]

/-- Nothing is stored after the first part, and the value is known. -/
theorem Stores.bind_nil_and {edges : List (CellId × CellRef) → Prop} {p : β → Prop}
    (h : transcript.Stores fun _ => edges)
    (hrest : ∀ value, (rest value).Stores fun last more => p last ∧ more = []) :
    (transcript.bind rest).Stores fun last all => p last ∧ edges all :=
  h.bind hrest fun _ _ _ _ hedges hmore =>
    ⟨hmore.1, by rwa [hmore.2, List.append_nil]⟩

end Bind

theorem Stores.withRoots {transcript : Transcript action}
    {stored : α → List (CellId × CellRef) → Prop} (h : transcript.Stores stored) :
    transcript.withRoots.Stores stored := by
  intro heap value after hending
  have hresult : (action.ending heap).1 = .ok value := congrArg Prod.fst hending
  have hmarks : Mark.stores (Request.marksAll (transcript.withRoots.requests heap) heap) =
      Mark.stores (Request.marksAll (transcript.requests heap) heap) := by
    change Mark.stores (Request.marksAll
      (transcript.requests heap ++ [.truncateRoots heap.rootStack.length]) heap) = _
    rw [Request.marksAll_append, Mark.stores_append, Request.marksAll, Mark.stores_append,
      Request.stores_marks]
    exact List.append_nil _
  rw [hmarks]
  exact h heap value _ (Prod.ext hresult rfl)

end Transcript

namespace Blueprint

variable (blueprint : Blueprint) (script : ScriptId) (globalScope : ScopeId)

open Transcript (Stores stores_silent stores_ask stores_perform)

/-- Nothing is stored where the global scope is read. -/
theorem stores_thingOf (source : ThingSource) :
    (Transcript.silent (fun _ => rfl) : Transcript
      (Action.read fun heap => heap.thingOf globalScope source)).Stores
      fun thing edges => thing = .scope globalScope ∧ edges = [] := by
  intro heap thing after hread
  refine ⟨?_, rfl⟩
  cases source
  have hresult : heap.thingOf globalScope .emptyGlobalScope = .ok thing := congrArg Prod.fst hread
  rw [Heap.thingOf_emptyGlobalScope] at hresult
  cases hscope : heap.scope globalScope with
  | error error => simp [hscope, Except.map] at hresult
  | ok content => simpa [hscope, Except.map] using hresult.symm

theorem stores_fillThings (sources : List ThingSource) :
    ∀ index, (Heap.transcriptFillThings script globalScope index sources).Stores
      fun _ edges => edges = sources.map fun _ => (script.id, .scope globalScope) := by
  induction sources with
  | nil => exact fun index => stores_silent _
  | cons source rest ih =>
      intro index
      have hstores : ∀ thing, ((Transcript.perform (.initThing script index thing) rfl :
          Transcript (Heap.initThing script index thing)).bind fun _ =>
            Heap.transcriptFillThings script globalScope (index + 1) rest).Stores
          fun _ edges => edges =
            (script.id, thing) :: rest.map fun _ => (script.id, .scope globalScope) := by
        intro thing
        refine (stores_perform _).bind (fun _ => ih (index + 1)) ?_
        rintro _ _ edges more rfl rfl
        rfl
      refine (stores_thingOf globalScope source).bind hstores ?_
      rintro thing _ edges more ⟨rfl, rfl⟩ rfl
      rfl

theorem stores_internStrings (strings : List Bytes) :
    ∀ index, (transcriptInternStrings script index strings).Stores fun _ edges =>
      ∃ atoms : List AtomId, atoms.length = strings.length ∧
        edges = atoms.map fun atom => (script.id, .atom atom) := by
  induction strings with
  | nil => exact fun index _ _ _ _ => ⟨[], rfl, rfl⟩
  | cons string rest ih =>
      intro index
      refine (stores_perform _).nil_bind fun atom => (stores_perform _).bind
        (fun _ => ih (index + 1)) ?_
      rintro _ _ edges more rfl ⟨atoms, hlength, rfl⟩
      exact ⟨atom :: atoms, by simp [hlength], rfl⟩

theorem stores_buildThings : (blueprint.transcriptBuildThings script globalScope).Stores
    fun _ edges => edges = blueprint.plan.sources.map fun _ => (script.id, .scope globalScope) :=
  (stores_perform _).nil_bind fun _ => (stores_silent _).nil_bind fun _ =>
    (stores_fillThings script globalScope _ 0).bind_nil fun _ => stores_silent _

theorem stores_buildAtoms : (blueprint.transcriptBuildAtoms script).Stores fun _ edges =>
    ∃ atoms : List AtomId, atoms.length = blueprint.strings.length ∧
      edges = atoms.map fun atom => (script.id, .atom atom) :=
  (stores_perform _).nil_bind fun _ => (stores_silent _).nil_bind fun _ =>
    (stores_internStrings script _ 0).bind_nil fun _ => stores_silent _

theorem stores_buildImage : (blueprint.transcriptBuildImage script).Stores
    fun _ edges => edges = [] :=
  Stores.congr ((stores_perform _).nil_bind fun _ => (stores_ask _ rfl).nil_bind fun _ =>
    stores_perform _) _

/-- A script that is filled has got its things, and an atom for each string. -/
theorem stores_fill : (blueprint.transcriptFill script globalScope).Stores fun made edges =>
    made = script ∧ ∃ atoms : List AtomId, atoms.length = blueprint.strings.length ∧
      edges = (blueprint.plan.sources.map fun _ => (script.id, .scope globalScope)) ++
        atoms.map fun atom => (script.id, .atom atom) := by
  have hpure : (Transcript.silent (fun _ => rfl) : Transcript (pure script)).Stores
      fun made edges => made = script ∧ edges = [] :=
    fun heap made after hmade => ⟨(Except.ok.inj (congrArg Prod.fst hmade)).symm, rfl⟩
  have hshare : (Transcript.perform (.share script) rfl : Transcript (Heap.share script)).Stores
      fun _ edges => edges = [] := stores_perform _
  have hnote : (Transcript.silent (fun _ => rfl) : Transcript
      (Action.note (.dataShared script))).Stores fun _ edges => edges = [] := stores_silent _
  have hatoms := (blueprint.stores_buildAtoms script).bind_nil_and fun _ =>
    (blueprint.stores_buildImage script).nil_bind fun _ => hshare.nil_bind fun _ =>
      hnote.nil_bind fun _ => hpure
  refine (blueprint.stores_buildThings script globalScope).bind (fun _ => hatoms) ?_
  rintro _ made edges more rfl ⟨rfl, atoms, hlength, rfl⟩
  exact ⟨rfl, atoms, hlength, rfl⟩

theorem stores_build : (blueprint.transcript globalScope).Stores fun script edges =>
    ∃ atoms : List AtomId, atoms.length = blueprint.strings.length ∧
      edges = (blueprint.plan.sources.map fun _ => (script.id, .scope globalScope)) ++
        atoms.map fun atom => (script.id, .atom atom) := by
  refine Stores.withRoots ((stores_perform _).nil_bind fun shell => (stores_ask _ rfl).nil_bind
    fun _ => (stores_silent _).nil_bind fun _ => ?_)
  intro heap script after hending
  obtain ⟨rfl, hstored⟩ := blueprint.stores_fill shell globalScope heap script after hending
  exact hstored

end Blueprint

/-- What is done to a heap: a request, or a script that some context builds on it. -/
inductive Deed where
  | ask (request : Request)
  | materialize (context : Context) (descriptor : Descriptor) (sourceLength : Nat)

namespace Deed

/-- The heap after a deed. A context that builds a script gets the heap for that. -/
def next : Deed → Heap → Heap
  | ask request, heap => request.next heap
  | materialize context descriptor sourceLength, heap =>
    ((Context.materialize descriptor sourceLength).ending { context with heap }).2.heap

/-- The heap after deeds, first to last. -/
def nextAll (deeds : List Deed) (heap : Heap) : Heap :=
  deeds.foldl (fun heap deed => deed.next heap) heap

theorem nextAll_append (first rest : List Deed) (heap : Heap) :
    nextAll (first ++ rest) heap = nextAll rest (nextAll first heap) :=
  List.foldl_append

/-- The requests that a deed consists of. -/
def requests : Deed → Heap → List Request
  | ask request, _ => [request]
  | materialize context descriptor sourceLength, heap =>
    Context.requests descriptor sourceLength { context with heap }

def requestsAll : List Deed → Heap → List Request
  | [], _ => []
  | deed :: rest, heap => deed.requests heap ++ requestsAll rest (deed.next heap)

theorem nextAll_requests (deed : Deed) (heap : Heap) :
    Request.nextAll (deed.requests heap) heap = deed.next heap := by
  cases deed with
  | ask request => rfl
  | materialize context descriptor sourceLength =>
      exact Context.nextAll_requests descriptor sourceLength { context with heap }

/-- Deeds leave the heap that their requests leave. -/
theorem nextAll_requestsAll (deeds : List Deed) (heap : Heap) :
    Request.nextAll (requestsAll deeds heap) heap = nextAll deeds heap := by
  induction deeds generalizing heap with
  | nil => rfl
  | cons deed rest ih =>
      rw [requestsAll, Request.nextAll_append, deed.nextAll_requests]
      exact ih (deed.next heap)

end Deed

namespace Context

/-- A materialization that succeeds stores the global scope and one atom a string. -/
theorem stores_of_materialize {context after : Context} {descriptor : Descriptor}
    {sourceLength : Nat} {script : ScriptId}
    (h : (materialize descriptor sourceLength).ending context = (.ok script, after)) :
    ∃ atoms : List AtomId, atoms.length = descriptor.strings.length ∧
      Mark.stores (Request.marksAll (context.requests descriptor sourceLength) context.heap) =
        (script.id, .scope context.globalScope) ::
          atoms.map fun atom => (script.id, .atom atom) := by
  obtain ⟨blueprint, hblueprint, hbuilt⟩ := build_of_materialize h
  obtain ⟨atoms, hlength, hstored⟩ :=
    blueprint.stores_build context.globalScope context.heap script _ hbuilt
  rw [requests, hblueprint]
  obtain ⟨_, rfl⟩ := (Blueprint.ofDescriptor?_eq_ok_iff _ _ _ _ _).1 hblueprint
  exact ⟨atoms, hlength, hstored⟩

end Context

namespace Heap

/-- The store buffer along any run from an empty heap, of requests with any references and
of materializations for contexts of any kind, whatever fails.

The deeds do what their requests do. The buffer is what was stored since the last
collection, and the counters count all stores and all collections; a store that fails
changes nothing at all. Since a time after which nothing was collected every store is in the
buffer, so a slot that is filled was filled with this at that time, or its edge is in the
buffer. A materialization that succeeds next stores its global scope, and an atom for each
string. -/
theorem storeBuffer_exact {start : Heap} (h : start.Initial) (deeds : List Deed) :
    let requests := Deed.requestsAll deeds start
    let heap := Deed.nextAll deeds start
    heap = Request.nextAll requests start ∧
    heap.storeBuffer.toList = Mark.latest (Request.marksAll requests start) ∧
    heap.stats.writeBarriers = (Mark.stores (Request.marksAll requests start)).length ∧
    heap.stats.gcRuns = (Request.marksAll requests start).count .collection ∧
    (∀ (request : Request) error, request.edge?.isSome = true →
      request.result heap = .error error → request.next heap = heap) ∧
    (∀ before since, requests = before ++ since →
      Mark.collection ∉ Request.marksAll since (Request.nextAll before start) →
      (∀ first request rest, since = first ++ request :: rest →
        ∀ edge ∈ request.stored (Request.nextAll (before ++ first) start),
          edge ∈ heap.storeBuffer) ∧
      ∀ id table index ref, heap.held? id table index = some ref →
        (Request.nextAll before start).held? id table index = some ref ∨
          (id, ref) ∈ heap.storeBuffer) ∧
    ∀ (context after : Context) (descriptor : Descriptor) (sourceLength : Nat)
      (script : ScriptId), context.heap = heap →
      (Context.materialize descriptor sourceLength).ending context = (.ok script, after) →
      (∃ atoms : List AtomId, atoms.length = descriptor.strings.length ∧
        Mark.stores (Request.marksAll (context.requests descriptor sourceLength) heap) =
          (script.id, .scope context.globalScope) ::
            atoms.map fun atom => (script.id, .atom atom)) ∧
      after.heap.stats.writeBarriers =
        heap.stats.writeBarriers + (1 + descriptor.strings.length) := by
  intro requests heap
  have hheap : heap = Request.nextAll requests start := (Deed.nextAll_requestsAll deeds start).symm
  have hlogged : heap.Logged (Request.marksAll requests start) := by
    have hrun := h.logged.nextAll requests
    rwa [List.nil_append, ← hheap] at hrun
  refine ⟨hheap, hlogged.storeBuffer, hlogged.writeBarriers, hlogged.gcRuns, ?_, ?_, ?_⟩
  · intro request error hedge herror
    obtain ⟨⟨owner, target⟩, hedge⟩ := Option.isSome_iff_exists.1 hedge
    rcases Request.cases_of_edge hedge heap with ⟨reply, _, hending, _⟩ | ⟨fault, hending⟩
    · exact absurd ((congrArg Prod.fst hending).symm.trans herror) (by simp)
    · exact congrArg Prod.snd hending
  · intro before since hrequests hmarks
    have hrest : Request.nextAll since (Request.nextAll before start) = heap := by
      rw [← Request.nextAll_append, ← hrequests, hheap]
    refine ⟨?_, ?_⟩
    · rintro first request rest rfl edge hedge
      rw [← Array.mem_toList_iff, hlogged.storeBuffer, hrequests, Request.marksAll_append,
        Mark.latest_append hmarks, Request.marksAll_append, Mark.stores_append, Request.marksAll,
        Mark.stores_append, Request.stores_marks, ← Request.nextAll_append]
      exact List.mem_append_right _ (List.mem_append_right _ (List.mem_append_left _ hedge))
    · have hbefore : (Request.nextAll before start).Reachable :=
        (Reachable.initial h).nextAll before
      have hremembers := Request.remembers_nextAll hbefore hmarks
      rwa [hrest] at hremembers
  · rintro context after descriptor sourceLength script hcontext hmade
    obtain ⟨atoms, hlength, hstored⟩ := Context.stores_of_materialize hmade
    rw [hcontext] at hstored
    refine ⟨⟨atoms, hlength, hstored⟩, ?_⟩
    have hafter := hlogged.nextAll (context.requests descriptor sourceLength)
    rw [← hcontext, Context.nextAll_requests, hmade, hcontext] at hafter
    rw [hafter.writeBarriers, Mark.stores_append, List.length_append, hlogged.writeBarriers,
      hstored, List.length_cons, List.length_map, hlength]
    omega

/-- A script is materialized on a heap that collects before every attempt. Then another one
gets its thing, and a store past the end of its table fails. -/
def storing : List Deed :=
  [.ask (.perform (.allocScope .global none)), .ask (.perform (.addRoot (.scope ⟨⟨0, 0⟩⟩))),
    .ask (.perform (.setZeal true)),
    .materialize
      { heap := default, globalScope := ⟨⟨0, 0⟩⟩, globalRoot := ⟨0⟩, options := {}, link := {} }
      { revision := .metadata, strings := [[120]] } 1,
    .ask (.perform (.setZeal false)), .ask (.perform (.allocScript {})),
    .ask (.perform (.createThings ⟨⟨3, 0⟩⟩ 1)),
    .ask (.perform (.initThing ⟨⟨3, 0⟩⟩ 0 (.scope ⟨⟨0, 0⟩⟩))),
    .ask (.perform (.initThing ⟨⟨3, 0⟩⟩ 1 (.scope ⟨⟨0, 0⟩⟩)))]

/-- Of the three stores only the one after the last collection is still in the buffer. -/
theorem storeBuffer_exact_threeStores :
    ∃ heap, heap = Deed.nextAll storing (ofLimits ⟨1000, 1000⟩) ∧
      heap.storeBuffer.toList = [(⟨3, 0⟩, .scope ⟨⟨0, 0⟩⟩)] ∧ heap.stats.writeBarriers = 3 ∧
      heap.stats.gcRuns = 6 ∧
      (Request.perform (.initThing ⟨⟨3, 0⟩⟩ 1 (.scope ⟨⟨0, 0⟩⟩))).next heap = heap := by
  obtain ⟨_, hbuffer, hbarriers, hruns, hfails, _⟩ :=
    storeBuffer_exact (.ofLimits ⟨1000, 1000⟩) storing
  refine ⟨_, rfl, hbuffer.trans (by decide +kernel), hbarriers.trans (by decide +kernel),
    hruns.trans (by decide +kernel), ?_⟩
  have hpast : ((initThing ⟨⟨3, 0⟩⟩ 1 (.scope ⟨⟨0, 0⟩⟩)).ending
      (Deed.nextAll storing (ofLimits ⟨1000, 1000⟩))).1 =
        .error (.indexOutOfBounds .things 1 1) := by
    decide +kernel
  exact hfails _ _ rfl (congrArg Prod.fst (Action.ending_bind_of_error (Prod.ext hpast rfl) _))

end Heap

end ScriptLinker
