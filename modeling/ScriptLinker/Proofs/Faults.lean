import ScriptLinker.Proofs.Request
/-!
# Where a cell of the wrong kind is met

Operations look up the references they are passed, before they make room or
after it. `Request.lookUp_of_wrongKind` says that there is no other way to meet
a cell of the wrong kind: some reference of the request names one.
-/

namespace ScriptLinker

/-- Whether an error says that a cell of the wrong kind was met. -/
def HeapError.isWrongKind : HeapError → Bool
  | .wrongCellKind _ _ _ => true
  | _ => false

/-- Whether an error says how far a script has come: a part is there or is missing, an
index is past its table, or the script is sealed. -/
def HeapError.ofProgress : HeapError → Bool
  | .alreadyInitialized _ => true
  | .notInitialized _ => true
  | .indexOutOfBounds _ _ _ => true
  | .scriptSealed => true
  | _ => false

theorem HeapError.not_wrongKind_of_progress {error : HeapError} (h : error.ofProgress = true) :
    error.isWrongKind = false := by
  cases error <;> first | rfl | contradiction

theorem Script.ofProgress_of_requireMissing {content : Script} {part : ScriptPart}
    {error : HeapError} (h : content.requireMissing part = .error error) :
    error.ofProgress = true := by
  unfold requireMissing requireUnsealed at h
  cases hsealed : content.isSealed <;> cases hpart : content.has part <;>
    simp [hsealed, hpart, bind, Except.bind] at h <;> subst h <;> rfl

theorem Script.ofProgress_of_ownedImage {content : Script} {error : HeapError}
    (h : content.ownedImage = .error error) : error.ofProgress = true := by
  unfold ownedImage at h
  cases himage : content.image <;> simp [himage] at h <;> subst h <;> rfl

/-- Only an image that the script owns can be changed. -/
theorem Script.ofProgress_of_changeImage {content : Script} {change : ScriptImage → ScriptImage}
    {error : HeapError}
    (h : (do let image ← content.ownedImage
             pure { content with image := .owned (change image) } : Except HeapError Script) =
      .error error) : error.ofProgress = true := by
  cases himage : content.ownedImage with
  | error cause =>
      rw [himage] at h
      exact ofProgress_of_ownedImage (himage.trans (congrArg _ (Except.error.inj h)))
  | ok image => simp [himage, bind, Except.bind, pure, Except.pure] at h

theorem Script.ofProgress_of_setFlags {content : Script} {flags : ScriptFlags}
    {error : HeapError} (h : content.setFlags flags = .error error) :
    error.ofProgress = true := by
  unfold setFlags requireUnsealed at h
  cases hsealed : content.isSealed <;>
    simp [hsealed, bind, Except.bind, pure, Except.pure] at h
  exact h ▸ rfl

theorem Script.ofProgress_of_setThing {content : Script} {index : Nat} {ref : CellRef}
    {error : HeapError} (h : content.setThing index ref = .error error) :
    error.ofProgress = true := by
  unfold setThing requireUnsealed setSlot at h
  cases hsealed : content.isSealed with
  | true =>
      simp only [hsealed, bind, Except.bind, if_true, Except.error.injEq] at h
      exact h ▸ rfl
  | false =>
      cases hslots : content.things with
      | none =>
          simp only [hsealed, hslots, bind, Except.bind, Bool.false_eq_true, if_false,
            Except.error.injEq] at h
          exact h ▸ rfl
      | some slots =>
          by_cases hindex : index < slots.length <;>
            simp [hsealed, hslots, hindex, bind, Except.bind, pure, Except.pure] at h
          exact h ▸ rfl

theorem Script.ofProgress_of_setAtom {content : Script} {index : Nat} {atom : AtomId}
    {error : HeapError} (h : content.setAtom index atom = .error error) :
    error.ofProgress = true := by
  unfold setAtom requireUnsealed setSlot at h
  cases hsealed : content.isSealed with
  | true =>
      simp only [hsealed, bind, Except.bind, if_true, Except.error.injEq] at h
      exact h ▸ rfl
  | false =>
      cases hslots : content.atoms with
      | none =>
          simp only [hsealed, hslots, bind, Except.bind, Bool.false_eq_true, if_false,
            Except.error.injEq] at h
          exact h ▸ rfl
      | some slots =>
          by_cases hindex : index < slots.length <;>
            simp [hsealed, hslots, hindex, bind, Except.bind, pure, Except.pure] at h
          exact h ▸ rfl

namespace Heap

/-- The cell that a reference names, which has to be of the reference's kind. -/
def lookUp (heap : Heap) : CellRef → Except HeapError Cell
  | .atom target => (heap.atom target).map Cell.atom
  | .scope target => (heap.scope target).map Cell.scope
  | .script target => (heap.script target).map Cell.script

theorem lookUp_eq (heap : Heap) (ref : CellRef) :
    heap.lookUp ref =
      match heap.cell? ref.id with
      | none => .error (.staleReference ref.id)
      | some cell =>
        if cell.kind = ref.kind then .ok cell
        else .error (.wrongCellKind ref.id ref.kind cell.kind) := by
  cases ref with
  | atom target =>
      unfold lookUp Heap.atom Heap.cell
      cases hcell : heap.cell? target.id with
      | none => simp [CellRef.id, hcell, bind, Except.bind, Except.map]
      | some cell => cases cell <;> simp [CellRef.id, CellRef.kind, Cell.kind, hcell, bind,
          Except.bind, Except.map, pure, Except.pure, throw, throwThe, MonadExceptOf.throw]
  | scope target =>
      unfold lookUp Heap.scope Heap.cell
      cases hcell : heap.cell? target.id with
      | none => simp [CellRef.id, hcell, bind, Except.bind, Except.map]
      | some cell => cases cell <;> simp [CellRef.id, CellRef.kind, Cell.kind, hcell, bind,
          Except.bind, Except.map, pure, Except.pure, throw, throwThe, MonadExceptOf.throw]
  | script target =>
      unfold lookUp Heap.script Heap.cell
      cases hcell : heap.cell? target.id with
      | none => simp [CellRef.id, hcell, bind, Except.bind, Except.map]
      | some cell => cases cell <;> simp [CellRef.id, CellRef.kind, Cell.kind, hcell, bind,
          Except.bind, Except.map, pure, Except.pure, throw, throwThe, MonadExceptOf.throw]

theorem lookUp_of_script_error {heap : Heap} {target : ScriptId} {error : HeapError}
    (h : heap.script target = .error error) : heap.lookUp (.script target) = .error error := by
  rw [lookUp, h]
  rfl

theorem lookUp_of_scope_error {heap : Heap} {target : ScopeId} {error : HeapError}
    (h : heap.scope target = .error error) : heap.lookUp (.scope target) = .error error := by
  rw [lookUp, h]
  rfl

theorem lookUp_of_atom_error {heap : Heap} {target : AtomId} {error : HeapError}
    (h : heap.atom target = .error error) : heap.lookUp (.atom target) = .error error := by
  rw [lookUp, h]
  rfl

/-- If only its first look-up can meet a cell of the wrong kind, an operation that
meets one has failed there. -/
theorem error_of_wrongKind {α : Type} {heap : Heap} {script : ScriptId}
    {result : Except HeapError α} {error : HeapError} (hresult : result = .error error)
    (hkind : error.isWrongKind = true)
    (hfirst : ∀ fault, heap.script script = .error fault → result = .error fault)
    (hrest : ∀ content, heap.script script = .ok content → error.isWrongKind = false) :
    heap.script script = .error error := by
  cases hscript : heap.script script with
  | error fault =>
      exact congrArg Except.error (Except.error.inj ((hfirst fault hscript).symm.trans hresult))
  | ok content =>
      rw [hrest content hscript] at hkind
      contradiction

/-- Making room for a cell that has to be there afterwards meets no cell of the
wrong kind. -/
theorem not_wrongKind_of_ready {bytes : Nat} {id : CellId} {done : Heap → Heap} {heap : Heap}
    {error : HeapError}
    (h : (match (reserve bytes).ending heap with
      | (.error error, after) => ((.error error : Except HeapError Unit), after)
      | (.ok (), ready) =>
        if ready.isLive id then (.ok (), done ready)
        else (.error (.staleReference id), ready)).1 = .error error) :
    error.isWrongKind = false := by
  cases hreserve : (reserve bytes).ending heap with
  | mk result ready =>
      rw [hreserve] at h
      cases result with
      | error fault =>
          rw [← Except.error.inj h, error_of_reserve hreserve]
          rfl
      | ok done =>
          dsimp only at h
          split at h
          · simp at h
          · exact Except.error.inj h ▸ rfl

theorem error_of_createPart {script : ScriptId} {part : ScriptPart} {bytes : Nat}
    {install : Script → Script} {heap : Heap} {error : HeapError}
    (h : ((createPart script part bytes install).ending heap).1 = .error error)
    (hkind : error.isWrongKind = true) : heap.script script = .error error := by
  rw [ending_createPart] at h
  refine error_of_wrongKind h hkind (fun _ hscript => by rw [hscript]) fun content hscript => ?_
  rw [hscript] at h
  dsimp only at h
  cases hmissing : content.requireMissing part with
  | error fault =>
      rw [hmissing] at h
      exact Except.error.inj h ▸
        HeapError.not_wrongKind_of_progress (Script.ofProgress_of_requireMissing hmissing)
  | ok done =>
      rw [hmissing] at h
      exact not_wrongKind_of_ready h

theorem error_of_updateScript {script : ScriptId} {change : Script → Except HeapError Script}
    (hchange : ∀ content error, change content = .error error → error.ofProgress = true)
    {heap : Heap} {error : HeapError}
    (h : ((updateScript script change).ending heap).1 = .error error)
    (hkind : error.isWrongKind = true) : heap.script script = .error error := by
  rw [ending_updateScript] at h
  refine error_of_wrongKind h hkind (fun _ hscript => by rw [hscript]) fun content hscript => ?_
  rw [hscript] at h
  dsimp only at h
  cases hchanged : change content with
  | error fault =>
      rw [hchanged] at h
      exact Except.error.inj h ▸
        HeapError.not_wrongKind_of_progress (hchange content fault hchanged)
  | ok changed => simp [hchanged] at h

theorem error_of_storeRef {script : ScriptId} {ref : CellRef}
    {install : Script → Except HeapError Script}
    (hinstall : ∀ content error, install content = .error error → error.ofProgress = true)
    {heap : Heap} {error : HeapError}
    (h : ((storeRef script ref install).ending heap).1 = .error error)
    (hkind : error.isWrongKind = true) : heap.script script = .error error := by
  rw [ending_storeRef] at h
  split at h
  · refine error_of_wrongKind h hkind (fun _ hscript => by rw [hscript]) fun content hscript => ?_
    rw [hscript] at h
    dsimp only at h
    cases hchanged : install content with
    | error fault =>
        rw [hchanged] at h
        exact Except.error.inj h ▸
          HeapError.not_wrongKind_of_progress (hinstall content fault hchanged)
    | ok changed => simp [hchanged] at h
  · rw [← Except.error.inj h] at hkind
    contradiction

theorem error_of_modifyImage {script : ScriptId} {change : ScriptImage → ScriptImage}
    {heap : Heap} {error : HeapError}
    (h : ((modifyImage script change).ending heap).1 = .error error)
    (hkind : error.isWrongKind = true) : heap.script script = .error error :=
  error_of_updateScript (fun _ _ => Script.ofProgress_of_changeImage) h hkind

theorem error_of_share {script : ScriptId} {heap : Heap} {error : HeapError}
    (h : ((share script).ending heap).1 = .error error) (hkind : error.isWrongKind = true) :
    heap.script script = .error error := by
  rw [ending_share] at h
  refine error_of_wrongKind h hkind (fun _ hscript => by rw [hscript]) fun content hscript => ?_
  rw [hscript] at h
  dsimp only at h
  cases himage : content.ownedImage with
  | error fault =>
      rw [himage] at h
      exact Except.error.inj h ▸
        HeapError.not_wrongKind_of_progress (Script.ofProgress_of_ownedImage himage)
  | ok image =>
      rw [himage] at h
      exact not_wrongKind_of_ready h

theorem not_wrongKind_of_allocate {cell : Cell} {bytes : Nat} {heap : Heap} {error : HeapError}
    (h : ((allocate cell bytes).ending heap).1 = .error error) : error.isWrongKind = false := by
  cases hallocate : (allocate cell bytes).ending heap with
  | mk result after =>
      rw [hallocate] at h
      subst h
      exact (error_of_allocate hallocate).1 ▸ rfl

theorem not_wrongKind_of_atomize {bytes : Bytes} {heap : Heap} {error : HeapError}
    (h : ((atomize bytes).ending heap).1 = .error error) : error.isWrongKind = false := by
  unfold atomize at h
  cases hdecode : Utf8.decode? bytes with
  | none =>
      rw [hdecode] at h
      exact Except.error.inj h ▸ rfl
  | some text =>
      rw [hdecode] at h
      dsimp only at h
      rw [ending_intern] at h
      split at h
      · simp at h
      · cases hallocate : (allocate (.atom text) (Charge.atom text)).ending heap with
        | mk result after =>
            rw [hallocate] at h
            cases result with
            | ok id => simp at h
            | error fault =>
                rw [← Except.error.inj h]
                exact not_wrongKind_of_allocate (congrArg Prod.fst hallocate)

theorem error_of_allocScope {kind : ScopeKind} {enclosing : Option ScopeId} {heap : Heap}
    {error : HeapError} (h : ((allocScope kind enclosing).ending heap).1 = .error error)
    (hkind : error.isWrongKind = true) :
    ∃ outer, enclosing = some outer ∧
      ((allocate (.scope { kind, enclosing }) Charge.scope).ending heap).2.scope outer =
        .error error := by
  rcases Action.error_of_ending_bind h with hallocate | ⟨id, _, hrest⟩
  · rw [not_wrongKind_of_allocate hallocate] at hkind
    contradiction
  · cases enclosing with
    | none => simp at hrest
    | some outer =>
        have hscope := Action.error_of_ending_bind_pure hrest
        exact ⟨outer, rfl, by simpa using hscope⟩

theorem error_of_ownedImage {script : ScriptId} {heap : Heap} {error : HeapError}
    (h : heap.ownedImage script = .error error) (hkind : error.isWrongKind = true) :
    heap.script script = .error error := by
  unfold Heap.ownedImage at h
  cases hscript : heap.script script with
  | error fault =>
      rw [hscript] at h
      exact congrArg Except.error (Except.error.inj h)
  | ok content =>
      rw [hscript] at h
      rw [HeapError.not_wrongKind_of_progress (Script.ofProgress_of_ownedImage h)] at hkind
      contradiction

theorem error_of_report {script : ScriptId} {heap : Heap} {error : HeapError}
    (h : heap.report script = .error error) : heap.script script = .error error := by
  unfold Heap.report at h
  cases hscript : heap.script script with
  | error fault =>
      rw [hscript] at h
      exact congrArg Except.error (Except.error.inj h)
  | ok content => simp [hscript, bind, Except.bind, pure, Except.pure] at h

theorem error_of_thingOf {scope : ScopeId} {heap : Heap} {error : HeapError}
    (h : heap.thingOf scope .emptyGlobalScope = .error error) :
    heap.scope scope = .error error := by
  rw [thingOf_emptyGlobalScope] at h
  cases hscope : heap.scope scope with
  | error fault =>
      rw [hscope] at h
      exact congrArg Except.error (Except.error.inj h)
  | ok content => simp [hscope, Except.map] at h

theorem error_of_fillThings {script : ScriptId} {scope : ScopeId} {heap : Heap}
    {error : HeapError}
    (h : ((fillThings .ofGlobalScript script scope).ending heap).1 = .error error)
    (hkind : error.isWrongKind = true) :
    heap.scope scope = .error error ∨ heap.script script = .error error := by
  rw [ending_fillThings] at h
  cases hscope : heap.scope scope with
  | error fault =>
      rw [hscope] at h
      exact Or.inl (congrArg Except.error (Except.error.inj h))
  | ok content =>
      rw [hscope] at h
      exact Or.inr (error_of_storeRef (fun _ _ => Script.ofProgress_of_setThing) h hkind)

end Heap

namespace Request

/-- A request meets a cell of the wrong kind only through a reference it passes, which names
one before the request or after it. Most requests look one script up before they do
anything, and the fault is that of the look-up. -/
theorem lookUp_of_wrongKind {request : Request} {heap : Heap} {error : HeapError}
    (h : request.result heap = .error error) (hkind : error.isWrongKind = true) :
    ∃ ref ∈ request.refs, heap.lookUp ref = .error error ∨
      (request.next heap).lookUp ref = .error error := by
  have hscript : ∀ script : ScriptId, CellRef.script script ∈ request.refs →
      heap.script script = .error error →
      ∃ ref ∈ request.refs, heap.lookUp ref = .error error ∨
        (request.next heap).lookUp ref = .error error := by
    intro script hmem hfault
    exact ⟨_, hmem, Or.inl (Heap.lookUp_of_script_error hfault)⟩
  cases request with
  | pushRoot ref => simp [result, action, Action.ending_bind] at h
  | truncateRoots count => simp [result, action, Action.ending_bind] at h
  | perform operation =>
      unfold result action at h
      cases operation with
      | allocScope kind enclosing =>
          obtain ⟨outer, rfl, hscope⟩ :=
            Heap.error_of_allocScope (Action.error_of_ending_bind_pure h) hkind
          refine ⟨.scope outer, by simp [refs, Operation.refs], Or.inr ?_⟩
          rw [next_allocScope]
          exact Heap.lookUp_of_scope_error hscope
      | allocScript extent =>
          have hallocate :=
            Action.error_of_ending_bind_pure (Action.error_of_ending_bind_pure h)
          rw [Heap.not_wrongKind_of_allocate hallocate] at hkind
          contradiction
      | atomize bytes =>
          rw [Heap.not_wrongKind_of_atomize (Action.error_of_ending_bind_pure h)] at hkind
          contradiction
      | createThings script _ | createAtoms script _ | createImage script _ _ =>
          exact hscript script (by simp [refs, Operation.refs])
            (Heap.error_of_createPart (Action.error_of_ending_bind_pure h) hkind)
      | initThing script index thing =>
          exact hscript script (by simp [refs, Operation.refs])
            (Heap.error_of_storeRef (fun _ _ => Script.ofProgress_of_setThing)
              (Action.error_of_ending_bind_pure h) hkind)
      | initAtom script index atom =>
          exact hscript script (by simp [refs, Operation.refs])
            (Heap.error_of_storeRef (fun _ _ => Script.ofProgress_of_setAtom)
              (Action.error_of_ending_bind_pure h) hkind)
      | patchImage script patch =>
          rcases Action.error_of_ending_bind h with hmodify | ⟨_, _, hread⟩
          · exact hscript script (by simp [refs, Operation.refs])
              (Heap.error_of_modifyImage hmodify hkind)
          · refine ⟨.script script, by simp [refs, Operation.refs], Or.inr ?_⟩
            rw [next_patchImage]
            exact Heap.lookUp_of_script_error
              (Heap.error_of_ownedImage (Action.error_of_ending_bind_pure hread) hkind)
      | setFlags script flags =>
          exact hscript script (by simp [refs, Operation.refs])
            (Heap.error_of_updateScript (fun _ _ => Script.ofProgress_of_setFlags)
              (Action.error_of_ending_bind_pure h) hkind)
      | share script =>
          exact hscript script (by simp [refs, Operation.refs])
            (Heap.error_of_share (Action.error_of_ending_bind_pure h) hkind)
      | readScript script =>
          exact hscript script (by simp [refs, Operation.refs])
            (Heap.error_of_report (Action.error_of_ending_bind_pure h))
      | readAtom atom =>
          exact ⟨.atom atom, by simp [refs, Operation.refs],
            Or.inl (Heap.lookUp_of_atom_error (Action.error_of_ending_bind_pure h))⟩
      | readScope scope =>
          exact ⟨.scope scope, by simp [refs, Operation.refs],
            Or.inl (Heap.lookUp_of_scope_error (Action.error_of_ending_bind_pure h))⟩
      | planThing scope =>
          have hscope := Heap.error_of_thingOf (Action.error_of_ending_bind_pure h)
          exact ⟨.scope scope, by simp [refs, Operation.refs],
            Or.inl (Heap.lookUp_of_scope_error hscope)⟩
      | fillThings script scope =>
          rcases Heap.error_of_fillThings (Action.error_of_ending_bind_pure h) hkind with
            hscope | hfault
          · exact ⟨.scope scope, by simp [refs, Operation.refs],
              Or.inl (Heap.lookUp_of_scope_error hscope)⟩
          · exact hscript script (by simp [refs, Operation.refs]) hfault
      | _ => simp [Operation.run, Action.ending_bind] at h

end Request

end ScriptLinker
