import ScriptLinker.Proofs.Outcomes
import ScriptLinker.Proofs.Persistence
/-!
# What roots hold on to

Before an operation collects it changes neither a cell nor a root, so what the roots
reach when it starts is what the collection keeps. No request of any kind takes the
place of a cell that the roots reach, and no operation pushes or drops a stack root.
-/

namespace ScriptLinker

namespace Heap

variable {given : Set CellRef} {heap after : Heap} {id : CellId} {cell : Cell}

/-- One cell refers to another one, which is alive. -/
def Links (heap : Heap) (source target : CellId) : Prop :=
  ∃ ref, heap.Edge source ref ∧ ref.id = target ∧ heap.isLive target = true

/-- A chain of edges with live ends leads from one cell to another. -/
abbrev Leads (heap : Heap) : CellId → CellId → Prop :=
  Relation.ReflTransGen heap.Links

theorem Reaches.leads {source target : CellId} (h : heap.Reaches source)
    (hleads : heap.Leads source target) : heap.Reaches target := by
  induction hleads with
  | refl => exact h
  | tail _ hlink ih =>
      obtain ⟨ref, hedge, rfl, hlive⟩ := hlink
      exact .edge ih hedge hlive

theorem Moves.persistentRoots_eq (h : Moves given heap after) :
    after.persistentRoots = heap.persistentRoots :=
  h.keep (p := fun next => next.persistentRoots = heap.persistentRoots)
    (fun hsame hmove => hmove.frame.persistentRoots.trans hsame) rfl

theorem Stirs.cell?_eq (h : Stirs given heap after) (id : CellId) :
    after.cell? id = heap.cell? id :=
  cell?_congr (by rw [h.2.1])

/-- What is done before a collection makes no cell unreachable. -/
theorem Stirs.reaches (h : Stirs given heap after) (hid : heap.Reaches id) : after.Reaches id := by
  have hpersistent := h.1.persistentRoots_eq
  have hstack := h.2.2.2
  refine hid.of_embedding (fun ref href => ?_) fun source cell _ hcell => ?_
  · simpa only [roots, hstack, hpersistent] using href
  · exact ⟨cell, (h.cell?_eq source).trans hcell, fun _ href => href⟩

/-- A passage leaves a reached cell in its place, whether it collects or not. -/
theorem CarriesOn.passage (h : CarriesOn cell id heap) (hreached : heap.Reaches id)
    (hpassage : Passage given heap after) : CarriesOn cell id after := by
  obtain ⟨last, hlast, hcontinues⟩ := h
  obtain ⟨before, between, hstirs, hcollect, hafter⟩ := hpassage
  have hbefore := (hstirs.cell?_eq id).trans hlast
  rcases hcollect with rfl | rfl
  · exact .moves ⟨last, hbefore, hcontinues⟩ hafter
  · have hkept := (cell?_collected_of_reaches (hstirs.reaches hreached)).trans hbefore
    exact .moves ⟨last, hkept, hcontinues⟩ hafter

theorem CarriesOn.rerooted (h : CarriesOn cell id heap) (hroots : heap.Rerooted after) :
    CarriesOn cell id after := by
  obtain ⟨roots, free, rfl⟩ := hroots
  exact h

/-- Whatever is asked of a heap, a cell that its roots reach stays in its place. -/
theorem CarriesOn.next (h : CarriesOn cell id heap) (hreached : heap.Reaches id)
    (hsound : heap.Sound) (request : Request) : CarriesOn cell id (request.next heap) := by
  rcases request.next_cases hsound with hpassage | ⟨_, _, _, hpassage, hbirth⟩ | hroots
  · exact h.passage hreached hpassage
  · exact (h.passage hreached hpassage).birth (hsound.passage hpassage).slots hbirth
  · exact h.rerooted hroots

end Heap

namespace Heap

variable {heap : Heap}

/-- A change of a script leaves the stack roots alone, also when it fails. -/
theorem Amending.rootStack_eq {α : Type} {script : ScriptId}
    {change : Script → Except HeapError Script} {answer : Script → α}
    {ending : Except HeapError α × Heap} (h : heap.Amending script change answer ending) :
    ending.2.rootStack = heap.rootStack := by
  rcases h with ⟨_, hkeeps⟩ | ⟨result, hamends, _⟩
  · exact hkeeps.rootStack
  · generalize ending.2 = after at hamends
    cases hamends with
    | refused => rfl
    | changed _ _ _ hkeeps _ _ hrewrites => exact hrewrites.rootStack.trans hkeeps.rootStack

theorem Birth.rootStack_eq {after : Heap} {issue : Issue} (h : Birth heap issue after)
    (hslots : heap.SlotsSound) : after.rootStack = heap.rootStack := by
  obtain ⟨bytes, placed, hplaced, hafter⟩ := h.placed hslots
  rw [hafter]
  exact hplaced.rootStack

/-- So does a request for a cell. -/
theorem Bearing.rootStack_eq {α : Type} {cell : Cell} {answer : CellId → α}
    {ending : Except HeapError α × Heap} (h : heap.Bearing cell answer ending) :
    ending.2.rootStack = heap.rootStack := by
  rcases h with ⟨_, hkeeps⟩ | ⟨id, _, hbears⟩
  · exact hkeeps.rootStack
  · generalize ending.2 = after at hbears
    generalize heap.placed? cell = issue at hbears
    cases hbears with
    | found => rfl
    | placed hkeeps hready hbirth => exact (hbirth.rootStack_eq hready.slots).trans hkeeps.rootStack

theorem rootStack_allocate (h : heap.Sound) (cell : Cell) (bytes : Nat) :
    ((allocate cell bytes).ending heap).2.rootStack = heap.rootStack := by
  have hallocate := ensures_allocate h cell bytes
  cases hending : (allocate cell bytes).ending heap with
  | mk result after =>
      cases result with
      | error error => exact (hallocate.of_error hending).1.rootStack
      | ok id =>
          obtain ⟨ready, hkeeps, hready, hplaces, _⟩ := hallocate.of_ok hending
          exact (hplaces.placed hready.slots).rootStack.trans hkeeps.rootStack

end Heap

namespace Operation

/-- No operation changes the stack roots, whether it succeeds or fails. -/
theorem rootStack_run {heap : Heap} (h : heap.Sound) (operation : Operation Issued) :
    (operation.run.ending heap).2.rootStack = heap.rootStack := by
  cases hamends : operation.amends? with
  | some changes => exact (amending_run h hamends).rootStack_eq
  | none =>
      cases operation with
      | allocScope kind enclosing =>
          exact (congrArg Heap.rootStack (Request.next_allocScope kind enclosing heap)).trans
            (Heap.rootStack_allocate h _ _)
      | allocScript extent =>
          exact (congrArg Heap.rootStack (Request.next_allocScript extent heap)).trans
            (Heap.rootStack_allocate h _ _)
      | atomize bytes =>
          rw [run, Action.state_ending_bind_pure, Heap.atomize]
          cases Utf8.decode? bytes with
          | none => rfl
          | some text => exact (Heap.bearing_intern h text).rootStack_eq
      | readScript | readAtom | readScope | planThing =>
          exact congrArg Heap.rootStack (Action.state_ending_read_bind_pure _ _ _)
      | addRoot cell =>
          change (heap.addRoot cell).2.rootStack = heap.rootStack
          obtain ⟨roots, free, hroots⟩ := Heap.rerooted_addRoot cell heap
          rw [hroots]
      | removeRoot root =>
          change (heap.removeRoot root).rootStack = heap.rootStack
          obtain ⟨roots, free, hroots⟩ := Heap.rerooted_removeRoot root heap
          rw [hroots]
      | _ => first | rfl | cases hamends

end Operation

end ScriptLinker
