import ScriptLinker.Proofs.Marking
import ScriptLinker.Proofs.Request
/-!
# What collections skip

A marking skips the references that name nothing, and notes each of them. `skips` reads
off the events of an action what its collections skipped. A request collects once at
most, before it changes any cell, so that it skips what a marking of the heap it found
would. Where no cell that the roots reach refers to nothing, that is the stale roots.
-/

namespace ScriptLinker

/-- The reference that a collection skipped, if the event tells of one. -/
def Event.skipped? : Event → Option CellId
  | .staleSkipped id => some id
  | _ => none

namespace Action

variable {σ ε α β : Type}

/-- What the collections of an action skip, first to last. -/
def skips (action : Action σ ε α) (state : σ) : List CellId :=
  (action.run state).events.filterMap Event.skipped?

/-- Whether an action skips nothing on any state. -/
def Silent (action : Action σ ε α) : Prop :=
  ∀ state, action.skips state = []

theorem skips_bind (first : Action σ ε α) (next : α → Action σ ε β) (state : σ) :
    (first >>= next).skips state =
      first.skips state ++
        match first.ending state with
        | (.ok value, after) => (next value).skips after
        | (.error _, _) => [] := by
  unfold skips ending
  rw [run_bind]
  cases first.run state with
  | mk result after events => cases result <;> simp

theorem skips_bind_of_silent {first : Action σ ε α} {next : α → Action σ ε β}
    (h : ∀ value, (next value).Silent) (state : σ) :
    (first >>= next).skips state = first.skips state := by
  rw [skips_bind]
  split
  · rw [h, List.append_nil]
  · rw [List.append_nil]

theorem Silent.bind {first : Action σ ε α} {next : α → Action σ ε β} (h : first.Silent)
    (hnext : ∀ value, (next value).Silent) : (first >>= next).Silent := fun state => by
  rw [skips_bind_of_silent hnext, h]

theorem silent_pure (value : α) : (pure value : Action σ ε α).Silent := fun _ => rfl

theorem silent_fail (error : ε) : (fail error : Action σ ε α).Silent := fun _ => rfl

theorem silent_get : (get : Action σ ε σ).Silent := fun _ => rfl

theorem silent_set (state : σ) : (set state : Action σ ε Unit).Silent := fun _ => rfl

theorem silent_modify (change : σ → σ) : (modify change : Action σ ε Unit).Silent := fun _ => rfl

theorem silent_read (look : σ → Except ε α) : (read look).Silent := fun _ => rfl

theorem silent_ofExcept (value : Except ε α) : (ofExcept value : Action σ ε α).Silent :=
  fun _ => rfl

theorem silent_note {event : Event} (h : event.skipped? = none) :
    (note event : Action σ ε Unit).Silent := fun _ => by
  simp [skips, h]

end Action

namespace Heap

/-- What is stale among references. -/
def stale (heap : Heap) (refs : List CellRef) : List CellId :=
  (refs.map CellRef.id).filter fun id => !heap.isLive id

namespace Marking

variable {heap : Heap}

theorem skipped_visit (heap : Heap) (marking : Marking) (ref : CellRef) :
    (visit heap.slots marking ref).skipped = marking.skipped ++ heap.stale [ref] := by
  have hlive : heap.isLive ref.id = (cellAt? heap.slots ref.id).isSome := rfl
  unfold visit stale
  cases hcell : cellAt? heap.slots ref.id with
  | none => simp [hlive, hcell]
  | some cell =>
      dsimp only
      split <;> simp [hlive, hcell]

theorem skipped_visitAll (heap : Heap) (marking : Marking) (refs : List CellRef) :
    (visitAll heap.slots marking refs).skipped = marking.skipped ++ heap.stale refs := by
  induction refs generalizing marking with
  | nil => simp [stale]
  | cons ref refs ih =>
      rw [visitAll_cons, ih, skipped_visit, List.append_assoc]
      simp only [stale, ← List.filter_append, ← List.map_append, List.singleton_append]

/-- A cell that was reached is followed to live cells only, if the references of what the
roots reach are alive. -/
theorem skipped_drain (hlive : ∀ id ref, heap.Reaches id → heap.Edge id ref →
      heap.isLive ref.id = true)
    {marking : Marking} (h : Correct heap [] marking) (rounds : Nat) :
    (drain heap.slots rounds marking).skipped = marking.skipped := by
  induction rounds generalizing marking with
  | zero => rfl
  | succ rounds ih =>
      unfold drain
      cases hpending : marking.pending with
      | nil => rfl
      | cons id rest =>
          obtain ⟨hid, hmark⟩ := h.pending_live id (by simp [hpending])
          have hreached : heap.Reaches id := addressOf_index hid ▸ h.marked_reached id.index hmark
          have hstale : heap.stale (referencesAt heap.slots id) = [] := by
            simp only [stale, List.filter_eq_nil_iff, List.mem_map]
            rintro _ ⟨ref, href, rfl⟩
            simp [hlive id ref hreached ((edge_iff_mem_referencesAt hid ref).2 href)]
          dsimp only
          rw [ih (h.pop hpending).visitAll, skipped_visitAll, hstale, List.append_nil]

end Marking

/-- If what the roots reach refers to live cells only, a marking skips the stale roots and
nothing else. -/
theorem skipped_mark {heap : Heap} (hlive : ∀ id ref, heap.Reaches id → heap.Edge id ref →
      heap.isLive ref.id = true) :
    heap.mark.skipped = heap.stale heap.roots := by
  unfold mark
  rw [Marking.skipped_drain hlive (Marking.correct_start heap).visitAll, Marking.skipped_visitAll]
  rfl

/-- An action skips nothing, or the given references once. -/
def SkipsOnce {ε α : Type} (skipped : List CellId) (action : Action Heap ε α) (heap : Heap) :
    Prop :=
  action.skips heap = [] ∨ action.skips heap = skipped

namespace SkipsOnce

variable {ε α β : Type} {heap : Heap} {skipped : List CellId}

theorem of_silent {action : Action Heap ε α} (h : action.Silent) : SkipsOnce skipped action heap :=
  Or.inl (h heap)

theorem bind_silent {first : Action Heap ε α} {next : α → Action Heap ε β}
    (h : SkipsOnce skipped first heap) (hnext : ∀ value, (next value).Silent) :
    SkipsOnce skipped (first >>= next) heap := by
  unfold SkipsOnce
  rwa [Action.skips_bind_of_silent hnext]

/-- What comes before and skips nothing counts only by the heap that it leaves. -/
theorem silent_bind {first : Action Heap ε α} {next : α → Action Heap ε β} (h : first.Silent)
    (hnext : ∀ value after, first.ending heap = (.ok value, after) →
      SkipsOnce skipped (next value) after) :
    SkipsOnce skipped (first >>= next) heap := by
  unfold SkipsOnce
  rw [Action.skips_bind, h, List.nil_append]
  cases hending : first.ending heap with
  | mk result after =>
      cases result with
      | ok value => exact hnext value after hending
      | error error => exact Or.inl rfl

theorem read_bind {look : Heap → Except ε α} {next : α → Action Heap ε β}
    (h : ∀ value, SkipsOnce skipped (next value) heap) :
    SkipsOnce skipped (Action.read look >>= next) heap :=
  silent_bind (Action.silent_read look) fun value _ hending => (Prod.mk.inj hending).2 ▸ h value

end SkipsOnce

theorem skipsOnce_collect {ε : Type} (heap : Heap) :
    SkipsOnce heap.mark.skipped (collect : Action Heap ε Unit) heap := by
  have hcollect : ((collect : Action Heap ε Unit).run heap).events =
      heap.eventsOf heap.mark := rfl
  have hskipped : Event.skipped? ∘ Event.staleSkipped = some := rfl
  right
  rw [Action.skips, hcollect, eventsOf, List.filterMap_append, List.filterMap_map, hskipped,
    List.filterMap_some]
  simp [Event.skipped?]

theorem silent_passInjection (bytes : Nat) : (passInjection bytes).Silent := by
  refine Action.silent_get.bind fun heap => ?_
  split
  · exact Action.silent_pure ()
  · exact Action.silent_set _
  · exact (Action.silent_set _).bind fun _ =>
      (Action.silent_note rfl).bind fun _ => Action.silent_fail _

theorem silent_requireRoom (bytes : Nat) : (requireRoom bytes).Silent := by
  refine Action.silent_get.bind fun heap => ?_
  split
  · exact (Action.silent_note rfl).bind fun _ => Action.silent_fail _
  · exact Action.silent_pure ()

theorem skipsOnce_collectFor (bytes : Nat) (heap : Heap) :
    SkipsOnce heap.mark.skipped (collectFor bytes) heap := by
  refine .silent_bind Action.silent_get fun _ _ hget => ?_
  obtain ⟨⟨⟩, rfl⟩ := Prod.mk.inj hget
  split
  · exact skipsOnce_collect _
  · split
    · refine .silent_bind (Action.silent_note rfl) fun _ _ hnote => ?_
      obtain ⟨_, rfl⟩ := Prod.mk.inj hnote
      exact skipsOnce_collect _
    · exact .of_silent (Action.silent_pure ())

/-- An attempt is counted before the heap collects, which a marking does not see. -/
theorem skipsOnce_reserve (bytes : Nat) (heap : Heap) :
    SkipsOnce heap.mark.skipped (reserve bytes) heap := by
  refine .silent_bind (Action.silent_modify _) fun _ _ hcounted => ?_
  obtain ⟨_, rfl⟩ := Prod.mk.inj hcounted
  refine .silent_bind (silent_passInjection bytes) fun _ passed hpassed => ?_
  have hmark : passed.mark = heap.mark := by
    rw [ending_passInjection] at hpassed
    split at hpassed <;> obtain ⟨_, rfl⟩ := Prod.mk.inj hpassed <;> rfl
  exact hmark ▸ (skipsOnce_collectFor bytes passed).bind_silent fun _ => silent_requireRoom bytes

theorem silent_place (cell : Cell) (bytes : Nat) : (place cell bytes).Silent := by
  refine Action.silent_get.bind fun heap => ?_
  split
  · exact (Action.silent_set _).bind fun _ => Action.silent_pure _
  · split
    · exact (Action.silent_set _).bind fun _ => Action.silent_pure _
    · exact Action.silent_fail _

theorem skipsOnce_allocate (cell : Cell) (bytes : Nat) (heap : Heap) :
    SkipsOnce heap.mark.skipped (allocate cell bytes) heap :=
  (skipsOnce_reserve bytes heap).bind_silent fun _ => silent_place cell bytes

theorem skipsOnce_charge (id : CellId) (bytes : Nat) (heap : Heap) :
    SkipsOnce heap.mark.skipped (charge id bytes) heap :=
  (skipsOnce_reserve bytes heap).bind_silent fun _ =>
    (Action.silent_read _).bind fun _ => Action.silent_modify _

theorem silent_updateScript (script : ScriptId) (change : Script → Except HeapError Script) :
    (updateScript script change).Silent :=
  (Action.silent_read _).bind fun _ =>
    (Action.silent_ofExcept _).bind fun _ => Action.silent_modify _

theorem skipsOnce_createPart (script : ScriptId) (part : ScriptPart) (bytes : Nat)
    (install : Script → Script) (heap : Heap) :
    SkipsOnce heap.mark.skipped (createPart script part bytes install) heap := by
  refine .read_bind fun content => .read_bind fun _ => ?_
  exact (skipsOnce_charge script.id bytes heap).bind_silent fun _ => silent_updateScript script _

theorem silent_storeRef (script : ScriptId) (ref : CellRef)
    (install : Script → Except HeapError Script) : (storeRef script ref install).Silent :=
  (Action.silent_read _).bind fun _ =>
    (silent_updateScript script install).bind fun _ => Action.silent_modify _

theorem silent_fillThings (script : ScriptId) (scope : ScopeId) :
    (fillThings .ofGlobalScript script scope).Silent :=
  (Action.silent_read _).bind fun _ =>
    (silent_storeRef script _ _).bind fun _ => Action.silent_pure ()

theorem silent_internImage (script : ScriptId) (image : ScriptImage) :
    (internImage script image).Silent := by
  refine Action.silent_get.bind fun heap => ?_
  split
  · exact (Action.silent_note rfl).bind fun _ =>
      (Action.silent_modify _).bind fun _ => Action.silent_pure _
  · exact (Action.silent_set _).bind fun _ => Action.silent_pure _

theorem skipsOnce_share (script : ScriptId) (heap : Heap) :
    SkipsOnce heap.mark.skipped (share script) heap := by
  refine .read_bind fun _ => (skipsOnce_charge script.id Charge.hold heap).bind_silent fun _ => ?_
  exact (Action.silent_read _).bind fun image => (silent_internImage script image).bind fun _ =>
    silent_updateScript script _

theorem skipsOnce_allocScope (kind : ScopeKind) (enclosing : Option ScopeId) (heap : Heap) :
    SkipsOnce heap.mark.skipped (allocScope kind enclosing) heap := by
  refine (skipsOnce_allocate _ _ heap).bind_silent fun id => ?_
  cases enclosing with
  | none => exact Action.silent_pure _
  | some outer => exact (Action.silent_read _).bind fun _ => Action.silent_pure _

theorem skipsOnce_atomize (bytes : Bytes) (heap : Heap) :
    SkipsOnce heap.mark.skipped (atomize bytes) heap := by
  unfold atomize
  cases Utf8.decode? bytes with
  | none => exact .of_silent (Action.silent_fail _)
  | some text =>
      refine .silent_bind Action.silent_get fun _ _ hget => ?_
      obtain ⟨⟨⟩, rfl⟩ := Prod.mk.inj hget
      split
      · exact .of_silent (Action.silent_pure _)
      · exact (skipsOnce_allocate _ _ _).bind_silent fun id =>
          (Action.silent_modify _).bind fun _ =>
            (Action.silent_note rfl).bind fun _ => Action.silent_pure _

end Heap

namespace Request

/-- What the collections that a request makes skip. -/
def skips (request : Request) (heap : Heap) : List CellId :=
  request.action.skips heap

/-- A request skips nothing, or what a marking of the heap that it finds skips. -/
theorem skips_cases (request : Request) (heap : Heap) :
    request.skips heap = [] ∨ request.skips heap = heap.mark.skipped := by
  change Heap.SkipsOnce heap.mark.skipped request.action heap
  cases request with
  | pushRoot | truncateRoots =>
      exact .of_silent ((Action.silent_modify _).bind fun _ => Action.silent_pure _)
  | perform operation =>
      cases operation with
      | allocScope kind enclosing =>
          exact (Heap.skipsOnce_allocScope kind enclosing heap).bind_silent
            fun _ => Action.silent_pure _
      | atomize bytes =>
          exact (Heap.skipsOnce_atomize bytes heap).bind_silent fun _ => Action.silent_pure _
      | allocScript extent =>
          exact ((Heap.skipsOnce_allocate _ _ heap).bind_silent
            fun _ => Action.silent_pure _).bind_silent fun _ => Action.silent_pure _
      | createThings | createAtoms | createImage =>
          exact (Heap.skipsOnce_createPart _ _ _ _ heap).bind_silent fun _ => Action.silent_pure _
      | share script =>
          exact (Heap.skipsOnce_share script heap).bind_silent fun _ => Action.silent_pure _
      | collect =>
          exact (Heap.skipsOnce_collect heap).bind_silent fun _ => Action.silent_pure _
      | initThing | initAtom =>
          exact .of_silent ((Heap.silent_storeRef _ _ _).bind fun _ => Action.silent_pure _)
      | fillThings =>
          exact .of_silent ((Heap.silent_fillThings _ _).bind fun _ => Action.silent_pure _)
      | setFlags =>
          exact .of_silent ((Heap.silent_updateScript _ _).bind fun _ => Action.silent_pure _)
      | patchImage =>
          exact .of_silent ((Heap.silent_updateScript _ _).bind fun _ =>
            (Action.silent_read _).bind fun _ => Action.silent_pure _)
      | readScript | readAtom | readScope | planThing =>
          exact .of_silent ((Action.silent_read _).bind fun _ => Action.silent_pure _)
      | compareImages | askLive | readRoot | readStores =>
          exact .of_silent (Action.silent_get.bind fun _ => Action.silent_pure _)
      | addRoot =>
          exact .of_silent (Action.silent_get.bind fun _ =>
            (Action.silent_set _).bind fun _ => Action.silent_pure _)
      | removeRoot | setZeal | failAfter | recordStore =>
          exact .of_silent ((Action.silent_modify _).bind fun _ => Action.silent_pure _)
      | readPlan => exact .of_silent (Action.silent_pure _)

/-- What the collections of requests skip, first to last. -/
def skipsAll : List Request → Heap → List CellId
  | [], _ => []
  | request :: rest, heap => request.skips heap ++ skipsAll rest (request.next heap)

theorem skipsAll_append (first rest : List Request) (heap : Heap) :
    skipsAll (first ++ rest) heap = skipsAll first heap ++ skipsAll rest (nextAll first heap) := by
  induction first generalizing heap with
  | nil => rfl
  | cons request first ih => simp only [List.cons_append, skipsAll, ih, List.append_assoc]; rfl

end Request

end ScriptLinker
