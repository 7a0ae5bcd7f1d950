import ScriptLinker.Proofs.Sound
import ScriptLinker.Session.Operation
/-!
# Requests

A request is an operation on a heap or a change of its stack roots, with any
references at all: live, stale, or never issued by the heap. `Request.effect`
says what a request can do to a sound heap: it is a passage, a passage and a
birth, or a change of the persistent roots. The reachable heaps are those that
requests lead to from an empty one, and they are sound.
-/

namespace ScriptLinker

namespace Action

variable {σ ε α β : Type}

/-- A step that keeps every state can be left off where only the state counts. -/
theorem state_ending_bind {first : Action σ ε α} {next : α → Action σ ε β}
    (h : ∀ value state, ((next value).ending state).2 = state) (state : σ) :
    ((first >>= next).ending state).2 = (first.ending state).2 := by
  rw [ending_bind]
  cases hfirst : first.ending state with
  | mk result after =>
      cases result with
      | ok value => exact h value after
      | error error => rfl

@[simp] theorem state_ending_bind_pure (first : Action σ ε α) (answer : α → β) (state : σ) :
    ((first >>= fun value => pure (answer value)).ending state).2 = (first.ending state).2 :=
  state_ending_bind (fun _ _ => rfl) state

@[simp] theorem state_ending_read_bind_pure (look : σ → Except ε α) (answer : α → β)
    (state : σ) :
    ((read look >>= fun value => pure (answer value)).ending state).2 = state := by
  simp

/-- A sequence that succeeds has succeeded in both steps. -/
theorem ok_of_ending_bind {first : Action σ ε α} {next : α → Action σ ε β} {state : σ}
    {value : β} (h : ((first >>= next).ending state).1 = .ok value) :
    ∃ middle, (first.ending state).1 = .ok middle ∧
      ((next middle).ending (first.ending state).2).1 = .ok value := by
  rw [ending_bind] at h
  cases hfirst : first.ending state with
  | mk result after =>
      rw [hfirst] at h
      cases result with
      | ok middle => exact ⟨middle, rfl, h⟩
      | error error => simp at h

/-- A sequence that fails has failed in the first step or in the second. -/
theorem error_of_ending_bind {first : Action σ ε α} {next : α → Action σ ε β} {state : σ}
    {error : ε} (h : ((first >>= next).ending state).1 = .error error) :
    (first.ending state).1 = .error error ∨
      ∃ middle, (first.ending state).1 = .ok middle ∧
        ((next middle).ending (first.ending state).2).1 = .error error := by
  rw [ending_bind] at h
  cases hfirst : first.ending state with
  | mk result after =>
      rw [hfirst] at h
      cases result with
      | ok middle => exact Or.inr ⟨middle, rfl, h⟩
      | error fault => exact Or.inl (congrArg Except.error (Except.error.inj h))

theorem ok_of_ending_bind_pure {first : Action σ ε α} {answer : α → β} {state : σ} {reply : β}
    (h : ((first >>= fun value => pure (answer value)).ending state).1 = .ok reply) :
    ∃ value, (first.ending state).1 = .ok value ∧ answer value = reply := by
  obtain ⟨value, hfirst, hpure⟩ := ok_of_ending_bind h
  exact ⟨value, hfirst, Except.ok.inj hpure⟩

theorem error_of_ending_bind_pure {first : Action σ ε α} {answer : α → β} {state : σ} {error : ε}
    (h : ((first >>= fun value => pure (answer value)).ending state).1 = .error error) :
    (first.ending state).1 = .error error := by
  rcases error_of_ending_bind h with hfirst | ⟨middle, _, hpure⟩
  · exact hfirst
  · simp at hpure

end Action

/-- The charge of a cell when it is placed. -/
def Cell.charge : Cell → Nat
  | .atom text => Charge.atom text
  | .scope _ => Charge.scope
  | .script _ => Charge.script

/-- The references in an operation. -/
def Operation.refs : Operation Issued → List CellRef
  | .allocScope _ enclosing => (enclosing.map CellRef.scope).toList
  | .createThings script _ | .createAtoms script _ | .createImage script _ _
  | .patchImage script _ | .setFlags script _ | .share script | .readScript script =>
    [.script script]
  | .initThing script _ thing => [.script script, thing]
  | .initAtom script _ atom => [.script script, .atom atom]
  | .compareImages left right => [.script left, .script right]
  | .readAtom atom => [.atom atom]
  | .readScope scope | .planThing scope => [.scope scope]
  | .askLive cell | .addRoot cell => [cell]
  | .recordStore owner target => [owner, target]
  | .fillThings script scope => [.script script, .scope scope]
  | _ => []

/-- The cell that an operation asks the heap for. -/
def Operation.asked? : Operation Issued → Option Cell
  | .allocScope kind enclosing => some (.scope { kind, enclosing })
  | .atomize bytes => (Utf8.decode? bytes).map Cell.atom
  | .allocScript extent => some (.script { extent })
  | _ => none

/-- What a client asks of a heap, with its handling of stack roots. -/
inductive Request where
  | perform (operation : Operation Issued)
  | pushRoot (ref : CellRef)
  | truncateRoots (count : Nat)

namespace Heap

/-- Whether a cell that is asked for has to be placed: an atom need not if one of
its text is alive. -/
def lacks (heap : Heap) : Cell → Bool
  | .atom text => ((heap.internedAtom? text).filter fun atom => heap.isLive atom.id).isNone
  | _ => true

/-- The cell placed for one that is asked for, with its address. -/
def placed? (heap : Heap) (cell : Cell) : Option Issue :=
  if heap.lacks cell then
    match ((allocate cell cell.charge).ending heap).1 with
    | .ok id => some ⟨id, cell⟩
    | .error _ => none
  else
    none

end Heap

namespace Request

/-- Carries a request out. -/
def action : Request → Action Heap HeapError Reply
  | perform operation => operation.run
  | pushRoot ref => do
    Action.modify (Heap.pushRoot ref)
    pure .done
  | truncateRoots count => do
    Action.modify (Heap.truncateRoots count)
    pure .done

/-- The answer to a request. -/
def result (request : Request) (heap : Heap) : Except HeapError Reply :=
  (request.action.ending heap).1

/-- The heap after a request. -/
def next (request : Request) (heap : Heap) : Heap :=
  (request.action.ending heap).2

/-- The heap after requests, first to last. -/
def nextAll (requests : List Request) (heap : Heap) : Heap :=
  requests.foldl (fun heap request => request.next heap) heap

@[simp] theorem nextAll_nil (heap : Heap) : nextAll [] heap = heap := rfl

theorem nextAll_append (first rest : List Request) (heap : Heap) :
    nextAll (first ++ rest) heap = nextAll rest (nextAll first heap) :=
  List.foldl_append

/-- The references in a request. -/
def refs : Request → List CellRef
  | perform operation => operation.refs
  | pushRoot ref => [ref]
  | truncateRoots _ => []

/-- The references in a request as a set. -/
def given (request : Request) : Set CellRef := { ref | ref ∈ request.refs }

/-- The cell that a request asks the heap for. -/
def asked? : Request → Option Cell
  | perform operation => operation.asked?
  | _ => none

/-- The cell that a request places, with its address. -/
def born? (request : Request) (heap : Heap) : Option Issue :=
  request.asked?.bind heap.placed?

/-- What a request can do to a heap. -/
inductive Effect (heap : Heap) (request : Request) : Option Issue → Heap → Prop where
  | passage {after : Heap} : Heap.Passage request.given heap after →
      Effect heap request none after
  | birth {between after : Heap} {issue : Issue} : Heap.Passage request.given heap between →
      Heap.Birth between issue after → (∀ ref ∈ issue.cell.references, ref ∈ request.refs) →
      Effect heap request (some issue) after
  | addRoot {ref : CellRef} : request = perform (.addRoot ref) →
      Effect heap request none (heap.addRoot ref).2
  | removeRoot {root : RootId} : request = perform (.removeRoot root) →
      Effect heap request none (heap.removeRoot root)

end Request

namespace Heap

variable {given : Set CellRef}

theorem passage_createPart {part : ScriptPart} {bytes : Nat} {install : Script → Script}
    (hgrows : ∀ content : Script, content.requireMissing part = .ok () →
      content.Grows bytes (install content)) (script : ScriptId) (heap : Heap) :
    Passage given heap ((createPart script part bytes install).ending heap).2 := by
  rw [ending_createPart]
  cases hscript : heap.script script with
  | error error => exact .refl heap
  | ok content =>
      dsimp only
      cases hmissing : content.requireMissing part with
      | error error => exact .refl heap
      | ok done =>
          cases hreserve : (reserve bytes).ending heap with
          | mk result ready =>
              have hready : Passage given heap ready := passage_of_reserve hreserve
              cases result with
              | error error => exact hready
              | ok done =>
                  dsimp only
                  by_cases hlive : ready.isLive script.id = true
                  · rw [if_pos hlive]
                    have hroom := ((reserve_eq_ok_iff _ _ _).1 hreserve).2.2
                    exact hready.move (.create (script_of_reserve hreserve hscript hlive) hroom
                      (hgrows content hmissing))
                  · rw [if_neg hlive]
                    exact hready

theorem passage_updateScript {script : ScriptId} {change : Script → Except HeapError Script}
    {heap : Heap}
    (hedits : ∀ content changed, heap.script script = .ok content →
      change content = .ok changed → content.Edits changed) :
    Passage given heap ((updateScript script change).ending heap).2 := by
  rw [ending_updateScript]
  cases hscript : heap.script script with
  | error error => exact .refl heap
  | ok content =>
      dsimp only
      cases hchange : change content with
      | error error => exact .refl heap
      | ok changed => exact .move (.refl heap) (.edit hscript (hedits _ _ hscript hchange))

/-- A write may replace the image as a whole, as long as it keeps the length. -/
theorem passage_modifyImage {script : ScriptId} {change : ScriptImage → ScriptImage} {heap : Heap}
    (hlength : ∀ image, heap.ownedImage script = .ok image →
      (change image).totalLength = image.totalLength) :
    Passage given heap ((modifyImage script change).ending heap).2 := by
  refine passage_updateScript fun content changed hscript hchange => ?_
  cases himage : content.ownedImage with
  | error error => simp [himage, bind, Except.bind] at hchange
  | ok image =>
      rw [himage] at hchange
      obtain rfl := Except.ok.inj hchange
      have howned := (Script.ownedImage_eq_ok_iff content image).1 himage
      refine .image howned (hlength image ?_)
      rw [ownedImage, hscript]
      exact himage

theorem passage_storeRef {ref : CellRef} {install : Script → Except HeapError Script}
    (href : ref ∈ given)
    (hstores : ∀ content changed, install content = .ok changed → content.Stores ref changed)
    (script : ScriptId) (heap : Heap) :
    Passage given heap ((storeRef script ref install).ending heap).2 := by
  rw [ending_storeRef]
  by_cases hlive : heap.isLive ref.id = true
  · rw [if_pos hlive]
    cases hscript : heap.script script with
    | error error => exact .refl heap
    | ok content =>
        dsimp only
        cases hinstall : install content with
        | error error => exact .refl heap
        | ok changed =>
            exact .move (.refl heap) (.store href hlive hscript (hstores _ _ hinstall))
  · rw [if_neg hlive]
    exact .refl heap

theorem passage_share (script : ScriptId) (heap : Heap) :
    Passage given heap ((share script).ending heap).2 := by
  rw [ending_share]
  cases hscript : heap.script script with
  | error error => exact .refl heap
  | ok content =>
      dsimp only
      cases himage : content.ownedImage with
      | error error => exact .refl heap
      | ok image =>
          cases hreserve : (reserve Charge.hold).ending heap with
          | mk result ready =>
              have hready : Passage given heap ready := passage_of_reserve hreserve
              cases result with
              | error error => exact hready
              | ok done =>
                  dsimp only
                  by_cases hlive : ready.isLive script.id = true
                  · rw [if_pos hlive]
                    have hroom := ((reserve_eq_ok_iff _ _ _).1 hreserve).2.2
                    have howned := (Script.ownedImage_eq_ok_iff content image).1 himage
                    exact hready.move
                      (.share (script_of_reserve hreserve hscript hlive) howned hroom)
                  · rw [if_neg hlive]
                    exact hready

theorem thingOf_emptyGlobalScope (heap : Heap) (scope : ScopeId) :
    heap.thingOf scope .emptyGlobalScope =
      (heap.scope scope).map fun _ => CellRef.scope scope := by
  unfold thingOf
  cases heap.scope scope <;> rfl

theorem ending_fillThings (script : ScriptId) (scope : ScopeId) (heap : Heap) :
    (fillThings .ofGlobalScript script scope).ending heap =
      match heap.scope scope with
      | .ok _ => (initThing script 0 (.scope scope)).ending heap
      | .error error => (.error error, heap) := by
  unfold fillThings ThingPlan.ofGlobalScript fillThingsFrom
  rw [Action.ending_bind, Action.ending_read, thingOf_emptyGlobalScope]
  cases heap.scope scope with
  | error error => rfl
  | ok content =>
      dsimp only [Except.map]
      rw [Action.ending_bind]
      cases (initThing script 0 (.scope scope)).ending heap with
      | mk result after => cases result <;> rfl

theorem AtomsSound.internedAtom?_eq_none_iff {heap : Heap} (h : heap.AtomsSound)
    (text : String) :
    heap.internedAtom? text = none ↔ ∀ id, heap.cell? id ≠ some (.atom text) := by
  rw [Option.eq_none_iff_forall_ne_some]
  constructor
  · exact fun habsent id hid => habsent ⟨id⟩ ((h.internedAtom?_eq_some_iff text ⟨id⟩).2 hid)
  · exact fun habsent atom hatom =>
      habsent atom.id ((h.internedAtom?_eq_some_iff text atom).1 hatom)

end Heap

namespace Request

theorem next_patchImage (script : ScriptId) (patch : ImagePatch) (heap : Heap) :
    (perform (.patchImage script patch)).next heap =
      ((Heap.modifyImage script (ScriptImage.apply patch)).ending heap).2 :=
  Action.state_ending_bind (fun _ _ => Action.state_ending_read_bind_pure _ _ _) heap

/-- Whether the enclosing scope turns out to be gone makes no difference to the heap. -/
theorem next_allocScope (kind : ScopeKind) (enclosing : Option ScopeId) (heap : Heap) :
    (perform (.allocScope kind enclosing)).next heap =
      ((Heap.allocate (.scope { kind, enclosing }) Charge.scope).ending heap).2 := by
  have hscope : (perform (.allocScope kind enclosing)).next heap =
      ((Heap.allocScope kind enclosing).ending heap).2 := Action.state_ending_bind_pure _ _ _
  rw [hscope, Heap.allocScope]
  refine Action.state_ending_bind (fun id state => ?_) heap
  cases enclosing <;> simp

theorem next_allocScript (extent : SourceExtent) (heap : Heap) :
    (perform (.allocScript extent)).next heap =
      ((Heap.allocate (.script { extent }) Charge.script).ending heap).2 := by
  have hscript : (perform (.allocScript extent)).next heap =
      ((Heap.allocScript extent).ending heap).2 := Action.state_ending_bind_pure _ _ _
  rw [hscript, Heap.allocScript, Action.state_ending_bind_pure]

theorem effect_of_allocate {heap : Heap} {request : Request} {cell : Cell}
    (hasked : request.asked? = some cell) (hplain : ∀ text, cell ≠ .atom text)
    (hrefs : ∀ ref ∈ cell.references, ref ∈ request.refs)
    (hnext : request.next heap = ((Heap.allocate cell cell.charge).ending heap).2) :
    Effect heap request (request.born? heap) (request.next heap) := by
  have hlacks : heap.lacks cell = true := by
    cases cell with
    | atom text => exact absurd rfl (hplain text)
    | scope content => rfl
    | script content => rfl
  have hborn : request.born? heap = heap.placed? cell := by rw [born?, hasked, Option.bind_some]
  rw [hnext, hborn, Heap.placed?, if_pos hlacks]
  cases hallocate : (Heap.allocate cell cell.charge).ending heap with
  | mk result after =>
      cases result with
      | error error =>
          obtain ⟨_, _, hreserve⟩ := Heap.error_of_allocate hallocate
          exact .passage (Heap.passage_of_reserve hreserve)
      | ok id =>
          obtain ⟨ready, hreserve, hplaces⟩ := Heap.places_of_allocate hallocate
          exact .birth (Heap.passage_of_reserve hreserve) (.plain hplain hplaces) hrefs

/-- Atomizing places an atom if the text has none. A collection that makes room for it can
only have taken atoms away. -/
theorem effect_atomize {heap : Heap} (h : heap.Sound) (bytes : Bytes) :
    Effect heap (perform (.atomize bytes)) ((perform (.atomize bytes)).born? heap)
      ((perform (.atomize bytes)).next heap) := by
  have hnext : (perform (.atomize bytes)).next heap = ((Heap.atomize bytes).ending heap).2 :=
    Action.state_ending_bind_pure _ _ _
  rw [hnext, born?, asked?, Operation.asked?, Heap.atomize]
  cases Utf8.decode? bytes with
  | none => exact .passage (.refl heap)
  | some text =>
      dsimp only [Option.map_some, Option.bind_some]
      rw [Heap.ending_intern, Heap.placed?, Heap.lacks, h.atoms.filter_internedAtom?]
      cases habsent : heap.internedAtom? text with
      | some atom => exact .passage (.refl heap)
      | none =>
          dsimp only [Option.isNone_none]
          rw [if_pos rfl, Cell.charge]
          cases hallocate : (Heap.allocate (.atom text) (Charge.atom text)).ending heap with
          | mk result after =>
              cases result with
              | error error =>
                  obtain ⟨_, _, hreserve⟩ := Heap.error_of_allocate hallocate
                  exact .passage (Heap.passage_of_reserve hreserve)
              | ok id =>
                  obtain ⟨ready, hreserve, hplaces⟩ := Heap.places_of_allocate hallocate
                  have hready : ready.internedAtom? text = none := by
                    rw [(h.reserve hreserve).atoms.internedAtom?_eq_none_iff]
                    rw [h.atoms.internedAtom?_eq_none_iff] at habsent
                    exact fun other hother =>
                      habsent other (Heap.cell?_of_cell?_reserve hreserve hother)
                  refine .birth (Heap.passage_of_reserve hreserve) (.atom hready hplaces) ?_
                  simp [Cell.references]

/-- A request of a sound heap is a passage, a passage and a birth, or a change of
the persistent roots. -/
theorem effect {heap : Heap} (h : heap.Sound) (request : Request) :
    Effect heap request (request.born? heap) (request.next heap) := by
  cases request with
  | pushRoot ref => exact .passage (.of_moves (.single (.pushRoot (by simp [given, refs]))))
  | truncateRoots count => exact .passage (.of_moves (.single (.truncateRoots count)))
  | perform operation =>
      have hstate : (perform operation).next heap = (operation.run.ending heap).2 := rfl
      have hquiet : ∀ after, (operation.run.ending heap).2 = after →
          (perform operation).born? heap = none →
          Heap.Passage (perform operation).given heap after →
          Effect heap (perform operation) ((perform operation).born? heap)
            ((perform operation).next heap) := by
        rintro after rfl hborn hpassage
        rw [hborn, hstate]
        exact .passage hpassage
      cases operation with
      | allocScope kind enclosing =>
          exact effect_of_allocate rfl (by simp)
            (by simp [Cell.references, refs, Operation.refs]) (next_allocScope _ _ _)
      | allocScript extent =>
          exact effect_of_allocate rfl (by simp)
            (by simp [Cell.references, Script.thingSlots, Script.atomSlots]) (next_allocScript _ _)
      | atomize bytes => exact effect_atomize h bytes
      | createThings script count =>
          exact hquiet _ (Action.state_ending_bind_pure _ _ _) rfl
            (Heap.passage_createPart (fun content => .things count) script heap)
      | createAtoms script count =>
          exact hquiet _ (Action.state_ending_bind_pure _ _ _) rfl
            (Heap.passage_createPart (fun content => .atoms count) script heap)
      | createImage script codeLength noteLength =>
          exact hquiet _ (Action.state_ending_bind_pure _ _ _) rfl
            (Heap.passage_createPart (fun content => .image codeLength noteLength) script heap)
      | initThing script index thing =>
          exact hquiet _ (Action.state_ending_bind_pure _ _ _) rfl
            (Heap.passage_storeRef (by simp [given, refs, Operation.refs])
              (fun content changed => .thing) script heap)
      | initAtom script index atom =>
          exact hquiet _ (Action.state_ending_bind_pure _ _ _) rfl
            (Heap.passage_storeRef (by simp [given, refs, Operation.refs])
              (fun content changed => .atom) script heap)
      | patchImage script patch =>
          exact hquiet _ (next_patchImage _ _ _) rfl
            (Heap.passage_modifyImage fun image _ => image.totalLength_apply patch)
      | setFlags script flags =>
          exact hquiet _ (Action.state_ending_bind_pure _ _ _) rfl
            (Heap.passage_updateScript fun content changed _ => .flags)
      | share script =>
          exact hquiet _ (Action.state_ending_bind_pure _ _ _) rfl
            (Heap.passage_share script heap)
      | addRoot cell => exact .addRoot rfl
      | removeRoot root => exact .removeRoot rfl
      | collect => exact .passage (.of_collected heap)
      | setZeal on => exact .passage (.of_moves (.single (.zeal on)))
      | failAfter count => exact .passage (.of_moves (.single (.arm (some count))))
      | recordStore owner target =>
          exact .passage (.of_moves (.single (.barrier owner.id (by simp [given, refs,
            Operation.refs]))))
      | fillThings script scope =>
          apply hquiet _ (Action.state_ending_bind_pure _ _ _) rfl
          rw [Heap.ending_fillThings]
          cases heap.scope scope with
          | error error => exact .refl heap
          | ok content =>
              exact Heap.passage_storeRef (by simp [given, refs, Operation.refs])
                (fun content changed => .thing) script heap
      | readScript | readAtom | readScope | planThing =>
          exact hquiet _ (Action.state_ending_read_bind_pure _ _ _) rfl (.refl heap)
      | compareImages | askLive | readRoot | readStores | readPlan =>
          exact .passage (.refl heap)

/-- The effects of requests, for what does not depend on the persistent roots. -/
theorem next_cases {heap : Heap} (h : heap.Sound) (request : Request) :
    Heap.Passage request.given heap (request.next heap) ∨
      (∃ between issue, request.born? heap = some issue ∧
        Heap.Passage request.given heap between ∧ Heap.Birth between issue (request.next heap)) ∨
      heap.Rerooted (request.next heap) := by
  have heffect := effect h request
  generalize request.next heap = after at heffect ⊢
  generalize request.born? heap = born at heffect ⊢
  cases heffect with
  | passage hpassage => exact Or.inl hpassage
  | birth hpassage hbirth _ => exact Or.inr (Or.inl ⟨_, _, rfl, hpassage, hbirth⟩)
  | addRoot _ => exact Or.inr (Or.inr (Heap.rerooted_addRoot _ heap))
  | removeRoot _ => exact Or.inr (Or.inr (Heap.rerooted_removeRoot _ heap))

theorem sound_next {heap : Heap} (h : heap.Sound) (request : Request) :
    (request.next heap).Sound := by
  rcases next_cases h request with hpassage | ⟨_, _, _, hpassage, hbirth⟩ | hroots
  · exact h.passage hpassage
  · exact (h.passage hpassage).birth hbirth
  · exact h.rerooted hroots

end Request

namespace Heap

/-- The empty heaps. -/
inductive Initial : Heap → Prop where
  | ofLimits (limits : HeapLimits) : Initial (ofLimits limits)
  | ofSettings {settings : HeapSettings} {heap : Heap} : ofSettings? settings = .ok heap →
      Initial heap

theorem Initial.sound {heap : Heap} (h : heap.Initial) : heap.Sound := by
  cases h with
  | ofLimits limits => exact sound_ofLimits limits
  | ofSettings hsettings => exact sound_ofSettings? hsettings

theorem Initial.slots_eq {heap : Heap} (h : heap.Initial) : heap.slots = #[] := by
  cases h with
  | ofLimits limits => rfl
  | ofSettings hsettings => rw [eq_of_ofSettings? hsettings]; rfl

/-- The heaps that requests of any kind lead to from an empty one. -/
inductive Reachable : Heap → Prop where
  | initial {heap : Heap} : heap.Initial → Reachable heap
  | request {heap : Heap} (request : Request) : Reachable heap → Reachable (request.next heap)

theorem Reachable.nextAll {heap : Heap} (h : heap.Reachable) (requests : List Request) :
    (Request.nextAll requests heap).Reachable := by
  induction requests generalizing heap with
  | nil => exact h
  | cons request rest ih => exact ih (.request request h)

/-- Reachable heaps are sound. -/
theorem Reachable.sound {heap : Heap} (h : heap.Reachable) : heap.Sound := by
  induction h with
  | initial hinitial => exact hinitial.sound
  | request request _ ih => exact Request.sound_next ih request

end Heap

end ScriptLinker
