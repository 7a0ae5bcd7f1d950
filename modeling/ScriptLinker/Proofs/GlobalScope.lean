import ScriptLinker.Link.Compile
import ScriptLinker.Proofs.Blueprint
import ScriptLinker.Proofs.Construction
/-!
# The global scope of a context

A context owns an empty global scope, which a persistent root of its heap holds.
`Heap.Anchors` says so of a heap, and whatever a client does but giving that root
back keeps it. The reachable contexts are those that a configuration leads to by
requests of the heap, by building scripts, whether that succeeds or not, and by
new options and reports; all of them are sound and hold their global scope.
-/

namespace ScriptLinker

namespace Heap

/-- A persistent root that is in use holds an empty global scope. -/
structure Anchors (heap : Heap) (root : RootId) (scope : ScopeId) : Prop where
  root_eq : heap.root? root = some (.scope scope)
  in_use : root.index ∉ heap.freeRoots
  cell_eq : heap.cell? scope.id = some (.scope { kind := .global, enclosing := none })

variable {heap after : Heap} {root : RootId} {scope : ScopeId}

theorem Anchors.isLive (h : heap.Anchors root scope) : heap.isLive scope.id = true :=
  (isLive_iff heap _).2 ⟨_, h.cell_eq⟩

theorem Anchors.reaches (h : heap.Anchors root scope) : heap.Reaches scope.id :=
  .persistentRoot h.root_eq h.isLive

theorem Anchors.congr (h : heap.Anchors root scope)
    (hroots : after.persistentRoots = heap.persistentRoots)
    (hfree : after.freeRoots = heap.freeRoots)
    (hcell : after.cell? scope.id = heap.cell? scope.id) : after.Anchors root scope where
  root_eq := by rw [root?, hroots]; exact h.root_eq
  in_use := hfree ▸ h.in_use
  cell_eq := hcell.trans h.cell_eq

theorem Anchors.intact (h : heap.Anchors root scope) (hintact : heap.Intact after) :
    after.Anchors root scope :=
  h.congr hintact.persistentRoots hintact.freeRoots (hintact.cell? h.reaches)

theorem Anchors.collected (h : heap.Anchors root scope) : heap.collected.Anchors root scope :=
  h.congr rfl rfl (cell?_collected_of_reaches h.reaches)

/-- A move revises no scope. -/
theorem Anchors.move {given : Set CellRef} (h : heap.Anchors root scope)
    (hmove : Move given heap after) : after.Anchors root scope := by
  apply h.congr hmove.frame.persistentRoots hmove.frame.freeRoots
  rcases hmove.cell?_cases with hsame | ⟨script, content, _, hscript, _, _, hcells⟩
  · exact hsame _
  · rw [hcells, if_neg]
    intro heq
    have hcontent := (script_eq_ok_iff heap script content).1 hscript
    rw [← heq, h.cell_eq] at hcontent
    simp at hcontent

theorem Anchors.passage {given : Set CellRef} (h : heap.Anchors root scope)
    (hpassage : Passage given heap after) : after.Anchors root scope :=
  hpassage.keep Anchors.move Anchors.collected h

theorem Anchors.birth {issue : Issue} (h : heap.Anchors root scope) (hsound : heap.Sound)
    (hbirth : Birth heap issue after) : after.Anchors root scope := by
  obtain ⟨bytes, placed, hplaced, hafter⟩ := hbirth.placed hsound.slots
  refine h.congr ?_ ?_ ?_
  · rw [hafter]
    exact hplaced.persistentRoots
  · rw [hafter]
    exact hplaced.freeRoots
  · rw [hbirth.cell? hsound.slots, if_neg]
    intro heq
    have hcell := h.cell_eq
    rw [heq, hplaced.not_live] at hcell
    simp at hcell

@[simp] theorem cell?_addRoot (heap : Heap) (ref : CellRef) (id : CellId) :
    (heap.addRoot ref).2.cell? id = heap.cell? id := by
  obtain ⟨roots, free, hafter⟩ := rerooted_addRoot ref heap
  rw [hafter]
  rfl

/-- A root in use is not the one that is issued next. -/
theorem Anchors.addRoot (h : heap.Anchors root scope) (ref : CellRef) :
    (heap.addRoot ref).2.Anchors root scope := by
  have hroot := h.root_eq
  have hfree := h.in_use
  unfold Heap.addRoot
  cases hnext : heap.freeRoots with
  | nil =>
      refine ⟨?_, by simp, h.cell_eq⟩
      have hindex : root.index < heap.persistentRoots.size := by
        by_contra hge
        simp [root?, Array.getElem?_eq_none (Nat.le_of_not_lt hge)] at hroot
      simpa [root?, Array.getElem?_push_lt hindex, Array.getElem?_eq_getElem hindex] using hroot
  | cons index rest =>
      rw [hnext, List.mem_cons, not_or] at hfree
      refine ⟨?_, hfree.2, h.cell_eq⟩
      simpa [root?, Array.getElem?_setIfInBounds_ne (Ne.symm hfree.1)] using hroot

theorem Anchors.removeRoot (h : heap.Anchors root scope) {other : RootId} (hne : other ≠ root) :
    (heap.removeRoot other).Anchors root scope := by
  refine ⟨(root?_removeRoot_of_ne hne.symm heap).trans h.root_eq, ?_, ?_⟩
  · unfold Heap.removeRoot
    split
    · exact h.in_use
    · rw [List.mem_cons, not_or]
      refine ⟨fun heq => hne ?_, h.in_use⟩
      cases other
      cases root
      simpa using heq.symm
  · unfold Heap.removeRoot
    split <;> exact h.cell_eq

/-- Only giving its root back can free the scope. -/
theorem Anchors.next (h : heap.Anchors root scope) (hsound : heap.Sound) {request : Request}
    (hkept : request ≠ .perform (.removeRoot root)) : (request.next heap).Anchors root scope := by
  have heffect := Request.effect hsound request
  generalize request.next heap = after at heffect ⊢
  generalize request.born? heap = born at heffect
  cases heffect with
  | passage hpassage => exact h.passage hpassage
  | birth hpassage hbirth _ => exact (h.passage hpassage).birth (hsound.passage hpassage) hbirth
  | addRoot _ => exact h.addRoot _
  | @removeRoot other heq =>
      apply h.removeRoot
      rintro rfl
      exact hkept heq

/-- A new root holds what it was issued for. -/
theorem root?_addRoot (heap : Heap) (ref : CellRef) (hfree : heap.freeRoots = []) :
    (heap.addRoot ref).2.root? (heap.addRoot ref).1 = some ref := by
  simp [Heap.addRoot, hfree, root?]

theorem freeRoots_ofSettings? {settings : HeapSettings} (h : ofSettings? settings = .ok heap) :
    heap.freeRoots = [] := by
  rw [eq_of_ofSettings? h]
  rfl

end Heap

namespace Desk

/-- A stencil is entered before `body` runs, and goes back after it on either way out. -/
theorem ending_withStencil {ε α : Type} (bridge : Bridge) (source : Bytes)
    (options : CompileOptions) (body : Guard → Action Desk ε α) (desk : Desk) :
    (withStencil bridge source options body).ending desk =
      let stencil := bridge.frontEnd.compile source options
      let handled := (body ⟨stencil⟩).ending
        { desk with ledger := Bridge.enterCompiled source options stencil desk.ledger }
      (handled.1, { handled.2 with ledger := Guard.enterReleased ⟨stencil⟩ handled.2.ledger }) := by
  obtain ⟨frontEnd, route⟩ := bridge
  cases route <;> rfl

/-- A compilation enters its stencil, carries it out if it can be read, and gives it back. -/
theorem ending_compile (bridge : Bridge) (source : Bytes) (desk : Desk) :
    (Desk.compile bridge source).ending desk =
      let stencil := bridge.frontEnd.compile source desk.context.options
      let carried := match Descriptor.ofStencil? stencil with
        | .ok descriptor => (Context.carryOut descriptor source.length).ending desk.context
        | .error error => (.error (.descriptor error), desk.context)
      (carried.1,
        { context := carried.2
          ledger := Guard.enterReleased ⟨stencil⟩
            (Bridge.enterCompiled source desk.context.options stencil desk.ledger) }) := by
  unfold Desk.compile
  rw [Action.ending_bind_of_ok (Action.ending_get desk), ending_withStencil]
  dsimp only
  rw [Action.ending_bind, Action.ending_ofExcept]
  cases Descriptor.ofStencil? (bridge.frontEnd.compile source desk.context.options) <;> rfl

end Desk

namespace Context

/-- What holds of every reachable context. -/
structure Sound (context : Context) : Prop where
  heap : context.heap.Sound
  anchors : context.heap.Anchors context.globalRoot context.globalScope

/-- A new heap is set up with a global scope and a root that holds it. -/
theorem ensures_prepareHeap {empty : Heap} (h : empty.Sound) (hfree : empty.freeRoots = []) :
    prepareHeap.Ensures empty
      (fun made heap => heap.Sound ∧ heap.Anchors made.2 made.1) (fun _ _ => True) := by
  have hscope : (Heap.allocScope .global none).Ensures empty
      (fun scope heap => heap.Sound ∧ heap.freeRoots = [] ∧
        heap.cell? scope.id = some (.scope { kind := .global, enclosing := none }))
      (fun _ _ => True) := by
    refine ((Heap.ensures_allocate h _ _).mono ?_ fun _ _ _ => trivial).bind
      fun id heap (hdone : heap.Sound ∧ heap.freeRoots = [] ∧ heap.cell? id = _) => hdone
    rintro id heap ⟨ready, hkeeps, hsound, hplaces, _⟩
    have hplaced := hplaces.placed hsound.slots
    refine ⟨hsound.birth (.plain (by simp) hplaces), ?_, ?_⟩
    · rw [hplaced.freeRoots, hkeeps.freeRoots, hfree]
    · rw [hplaced.cell?, if_pos rfl]
  apply hscope.bind
  rintro scope heap ⟨hsound, hempty, hcell⟩
  have hroot : (heap.addRoot (.scope scope)).2.root? (heap.addRoot (.scope scope)).1 =
      some (.scope scope) := Heap.root?_addRoot heap _ hempty
  have hanchors :
      (heap.addRoot (.scope scope)).2.Anchors (heap.addRoot (.scope scope)).1 scope := by
    refine ⟨hroot, ?_, ?_⟩
    · simp [Heap.addRoot, hempty]
    · rw [Heap.cell?_addRoot, hcell]
  exact ⟨hsound.rerooted (Heap.rerooted_addRoot _ heap), hanchors⟩

/-- A configured context is one whose heap could be set up. -/
theorem prepareHeap_of_ofConfig? {config : EngineConfig} {context : Context}
    {events : List Event} (h : ofConfig? config = .ok (context, events)) :
    ∃ empty, Heap.ofSettings? config.heap = .ok empty ∧
      prepareHeap.ending empty = (.ok (context.globalScope, context.globalRoot), context.heap) := by
  unfold ofConfig? at h
  cases hempty : Heap.ofSettings? config.heap with
  | error error => simp [hempty, bind, Except.bind] at h
  | ok empty =>
      rw [hempty] at h
      cases hresult : (prepareHeap.run empty).result with
      | error error => simp [hresult, bind, Except.bind] at h
      | ok made =>
          simp only [hresult, bind, Except.bind, pure, Except.pure, Except.ok.injEq,
            Prod.mk.injEq] at h
          obtain ⟨rfl, _⟩ := h
          exact ⟨empty, rfl, Prod.ext hresult rfl⟩

theorem sound_ofConfig? {config : EngineConfig} {context : Context} {events : List Event}
    (h : ofConfig? config = .ok (context, events)) : context.Sound := by
  obtain ⟨empty, hempty, hending⟩ := prepareHeap_of_ofConfig? h
  have hready := ensures_prepareHeap (Heap.sound_ofSettings? hempty)
    (Heap.freeRoots_ofSettings? hempty)
  obtain ⟨hheap, hanchors⟩ := hready.of_ok hending
  exact ⟨hheap, hanchors⟩

/-- A request of the heap that keeps the root of the global scope. -/
theorem Sound.request {context : Context} (h : context.Sound) {request : Request}
    (hkept : request ≠ .perform (.removeRoot context.globalRoot)) :
    Sound { context with heap := request.next context.heap } :=
  ⟨Request.sound_next h.heap request, h.anchors.next h.heap hkept⟩

theorem ending_materialize (descriptor : Descriptor) (sourceLength : Nat) (context : Context) :
    (materialize descriptor sourceLength).ending context =
      match context.blueprint? descriptor sourceLength with
      | .error error => (.error error, context)
      | .ok blueprint =>
        let built := (blueprint.build context.globalScope).ending context.heap
        (built.1.mapError .ofHeapError, { context with heap := built.2 }) := by
  unfold materialize
  rw [Action.ending_bind, Action.ending_get]
  dsimp only
  rw [Action.ending_bind, Action.ending_ofExcept]
  cases context.blueprint? descriptor sourceLength <;> rfl

/-- A materialization that succeeds has built the blueprint of its descriptor. -/
theorem build_of_materialize {context after : Context} {descriptor : Descriptor}
    {sourceLength : Nat} {script : ScriptId}
    (h : (materialize descriptor sourceLength).ending context = (.ok script, after)) :
    ∃ blueprint, context.blueprint? descriptor sourceLength = .ok blueprint ∧
      (blueprint.build context.globalScope).ending context.heap = (.ok script, after.heap) := by
  rw [ending_materialize] at h
  cases hblueprint : context.blueprint? descriptor sourceLength with
  | error error => simp [hblueprint] at h
  | ok blueprint =>
      rw [hblueprint] at h
      refine ⟨blueprint, rfl, ?_⟩
      cases hending : (blueprint.build context.globalScope).ending context.heap with
      | mk result heap =>
          simp only [hending] at h
          obtain ⟨hresult, rfl⟩ := Prod.mk.inj h
          cases result with
          | error error => cases hresult
          | ok made => rw [Except.ok.inj hresult]

/-- A blueprint that passed the checks is built, or fails, as a construction does. -/
theorem Sound.ensures_build {context : Context} (h : context.Sound) {blueprint : Blueprint}
    {descriptor : Descriptor} {sourceLength : Nat}
    (hblueprint : context.blueprint? descriptor sourceLength = .ok blueprint) :
    (blueprint.build context.globalScope).Ensures context.heap
      (fun script after => Heap.Built context.heap blueprint context.globalScope script after ∧
        (context.heap.limits.maxBytes < maxSize →
          context.heap.demand blueprint ≤ context.heap.limits.maxBytes))
      (Heap.Fails context.heap blueprint.strings (context.heap.demand blueprint)) := by
  obtain ⟨_, rfl⟩ := (Blueprint.ofDescriptor?_eq_ok_iff _ _ _ _ _).1 hblueprint
  exact Heap.ensures_build h.heap rfl h.anchors.cell_eq h.anchors.reaches

/-- Building a script, or failing to, leaves intact what the roots reach. -/
theorem Sound.intact_materialize {context : Context} (h : context.Sound)
    (descriptor : Descriptor) (sourceLength : Nat) :
    context.heap.Intact ((materialize descriptor sourceLength).ending context).2.heap := by
  rw [ending_materialize]
  cases hblueprint : context.blueprint? descriptor sourceLength with
  | error error =>
      exact ⟨h.heap, fun _ _ => rfl, rfl, rfl, rfl⟩
  | ok blueprint =>
      have hbuild := h.ensures_build hblueprint
      unfold Action.Ensures at hbuild
      dsimp only
      cases hending : (blueprint.build context.globalScope).ending context.heap with
      | mk result after =>
          rw [hending] at hbuild
          cases result with
          | ok script => exact hbuild.1.toIntact
          | error error => exact hbuild.intact

/-- Only the heap of a context changes when a script is built. -/
theorem state_materialize (descriptor : Descriptor) (sourceLength : Nat) (context : Context) :
    ((materialize descriptor sourceLength).ending context).2 =
      { context with heap := ((materialize descriptor sourceLength).ending context).2.heap } := by
  rw [ending_materialize]
  cases context.blueprint? descriptor sourceLength <;> rfl

theorem Sound.materialize {context : Context} (h : context.Sound) (descriptor : Descriptor)
    (sourceLength : Nat) : (((materialize descriptor sourceLength).ending context).2).Sound := by
  have hintact := h.intact_materialize descriptor sourceLength
  rw [state_materialize]
  exact ⟨hintact.sound, h.anchors.intact hintact⟩

/-- The contexts that a client of a configured context can lead to, as long as it
keeps the root of the global scope. -/
inductive Reachable : Context → Prop where
  | start {config : EngineConfig} {context : Context} {events : List Event} :
      ofConfig? config = .ok (context, events) → Reachable context
  | request {context : Context} (request : Request) : Reachable context →
      request ≠ .perform (.removeRoot context.globalRoot) →
      Reachable { context with heap := request.next context.heap }
  | materialize {context : Context} (descriptor : Descriptor) (sourceLength : Nat) :
      Reachable context → Reachable ((materialize descriptor sourceLength).ending context).2
  | setOptions {context : Context} (options : CompileOptions) : Reachable context →
      Reachable { context with options }
  | setSink {context : Context} (sink : Sink) : Reachable context →
      Reachable { context with sink }

/-- Reachable contexts are sound. -/
theorem Reachable.sound {context : Context} (h : context.Reachable) : context.Sound := by
  induction h with
  | start hstart => exact sound_ofConfig? hstart
  | request request _ hkept ih => exact ih.request hkept
  | materialize descriptor sourceLength _ ih => exact ih.materialize descriptor sourceLength
  | setOptions options _ ih => exact ⟨ih.heap, ih.anchors⟩
  | setSink sink _ ih => exact ⟨ih.heap, ih.anchors⟩

/-- The context of a configuration that is not refused. -/
theorem ofConfig?_of_isSome {config : EngineConfig}
    (h : (ofConfig? config).toOption.isSome = true) :
    ofConfig? config = .ok ((ofConfig? config).toOption.get h) := by
  generalize hmade : (ofConfig? config).toOption.get h = made
  cases hconfig : ofConfig? config with
  | error error => simp [hconfig, Except.toOption] at h
  | ok made' =>
      rw [← hmade]
      simp [hconfig, Except.toOption]

theorem reachable_of_isSome {config : EngineConfig}
    (h : (ofConfig? config).toOption.isSome = true) :
    ((ofConfig? config).toOption.get h).1.Reachable :=
  .start (ofConfig?_of_isSome h)

theorem ending_noteExhaustion {α : Type} (action : Action Context LinkError α)
    (context : Context) : (noteExhaustion action).ending context = action.ending context := by
  unfold noteExhaustion Action.ending Action.run
  dsimp only
  split <;> rfl

theorem Reachable.carryOut {context : Context} (h : context.Reachable) (descriptor : Descriptor)
    (sourceLength : Nat) : (((carryOut descriptor sourceLength).ending context).2).Reachable := by
  unfold Context.carryOut
  cases descriptor.verdict with
  | syntaxError message => exact h.setSink _
  | unimplemented => exact h
  | success =>
      dsimp only
      rw [Action.state_ending_bind fun _ _ => rfl, ending_noteExhaustion]
      exact h.materialize descriptor sourceLength

/-- A compilation changes its context only by carrying a stencil out that it could
read. -/
theorem context_compile (bridge : Bridge) (source : Bytes) (desk : Desk) :
    ((Desk.compile bridge source).ending desk).2.context =
      match Descriptor.ofStencil? (bridge.frontEnd.compile source desk.context.options) with
      | .ok descriptor => ((Context.carryOut descriptor source.length).ending desk.context).2
      | .error _ => desk.context := by
  rw [Desk.ending_compile]
  dsimp only
  cases Descriptor.ofStencil? (bridge.frontEnd.compile source desk.context.options) <;> rfl

/-- Compiling a source leads to a reachable context, however it ends. -/
theorem Reachable.compile {desk : Desk} (h : desk.context.Reachable) (bridge : Bridge)
    (source : Bytes) : ((Desk.compile bridge source).ending desk).2.context.Reachable := by
  rw [context_compile]
  split
  · exact h.carryOut _ _
  · exact h

end Context

end ScriptLinker
