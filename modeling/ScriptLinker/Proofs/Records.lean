import ScriptLinker.Proofs.Construction
import ScriptLinker.Proofs.Skips
/-!
# Records of what collections skip

A record is a heap with what the collections on it have skipped so far. An action of the
heap carries a record on, and what it ensures of the record is put together from its
steps as what it ensures of the heap is.
-/

namespace ScriptLinker

namespace Heap

/-- A heap with what the collections on it have skipped, first to last. -/
structure Record where
  heap : Heap
  skipped : List CellId := []

variable {ε α β : Type}

/-- An action of the heap, carried out on the heap of a record. -/
def recorded (action : Action Heap ε α) : Action Record ε α := fun record =>
  ⟨(action.run record.heap).result,
    ⟨(action.run record.heap).state, record.skipped ++ action.skips record.heap⟩, []⟩

theorem ending_recorded (action : Action Heap ε α) (record : Record) :
    (recorded action).ending record =
      ((action.ending record.heap).1,
        ⟨(action.ending record.heap).2, record.skipped ++ action.skips record.heap⟩) := rfl

section Recorded

variable {action : Action Heap ε α} {first : Action Heap ε β} {next : β → Action Heap ε α}
  {record : Record} {done : α → Record → Prop} {failed : ε → Record → Prop}

theorem ensures_recorded_bind {middle : β → Record → Prop}
    (hfirst : (recorded first).Ensures record middle failed)
    (hnext : ∀ value after, middle value after →
      (recorded (next value)).Ensures after done failed) :
    (recorded (first >>= next)).Ensures record done failed := by
  have hending : (recorded (first >>= next)).ending record =
      (recorded first >>= fun value => recorded (next value)).ending record := by
    rw [ending_recorded, Action.ending_bind, Action.ending_bind, ending_recorded,
      Action.skips_bind]
    cases first.ending record.heap with
    | mk result after => cases result <;> simp [ending_recorded]
  unfold Action.Ensures
  rw [hending]
  exact hfirst.bind hnext

/-- An action that skips nothing leaves what is skipped as it is. -/
theorem ensures_recorded_of_silent (hsilent : action.Silent)
    (h : action.Ensures record.heap (fun value after => done value { record with heap := after })
      fun error after => failed error { record with heap := after }) :
    (recorded action).Ensures record done failed := by
  unfold Action.Ensures at h ⊢
  rw [ending_recorded, hsilent, List.append_nil]
  cases hending : action.ending record.heap with
  | mk result after =>
      rw [hending] at h
      cases result <;> exact h

theorem ensures_recorded_note_bind {next : Unit → Action Heap ε α} {event : Event}
    (hevent : event.skipped? = none) (h : (recorded (next ())).Ensures record done failed) :
    (recorded (Action.note event >>= next)).Ensures record done failed :=
  have hnoted : (recorded (Action.note event : Action Heap ε Unit)).Ensures record
      (fun _ after => after = record) failed :=
    ensures_recorded_of_silent (Action.silent_note hevent) rfl
  ensures_recorded_bind hnoted fun _ _ heq => heq ▸ h

theorem ensures_recorded_modify_bind {next : Unit → Action Heap ε α} {change : Heap → Heap}
    (h : (recorded (next ())).Ensures { record with heap := change record.heap } done failed) :
    (recorded (Action.modify change >>= next)).Ensures record done failed :=
  have hchanged : (recorded (Action.modify change : Action Heap ε Unit)).Ensures record
      (fun _ after => after = { record with heap := change record.heap }) failed :=
    ensures_recorded_of_silent (Action.silent_modify change) rfl
  ensures_recorded_bind hchanged fun _ _ heq => heq ▸ h

theorem ensures_recorded_note {done : Unit → Record → Prop} {event : Event}
    (hevent : event.skipped? = none) (h : done () record) :
    (recorded (Action.note event)).Ensures record done failed :=
  ensures_recorded_of_silent (Action.silent_note hevent) h

/-- The stack roots that an action pushed are dropped at its end. -/
theorem ensures_recorded_withRoots (h : (recorded action).Ensures record done failed)
    (hdone : ∀ value after, done value after →
      done value { after with heap := after.heap.truncateRoots record.heap.rootStack.length })
    (hfailed : ∀ error after, failed error after →
      failed error { after with heap := after.heap.truncateRoots record.heap.rootStack.length }) :
    (recorded (withRoots action)).Ensures record done failed := by
  have hskips : (withRoots action).skips record.heap = action.skips record.heap :=
    congrArg (List.filterMap Event.skipped?) (List.append_nil _)
  have hending : (recorded (withRoots action)).ending record =
      (((recorded action).ending record).1,
        { ((recorded action).ending record).2 with
          heap := ((recorded action).ending record).2.heap.truncateRoots
            record.heap.rootStack.length }) := by
    rw [ending_recorded, hskips]
    rfl
  unfold Action.Ensures at h ⊢
  rw [hending]
  cases haction : (recorded action).ending record with
  | mk result after =>
      rw [haction] at h
      cases result with
      | ok value => exact hdone value after h
      | error error => exact hfailed error after h

/-- What an action ensures of a record it ensures of the heap. -/
theorem ensures_of_recorded {heap : Heap} {done : α → Heap → Prop} {failed : ε → Heap → Prop}
    (h : (recorded action).Ensures { heap } (fun value after => done value after.heap)
      fun error after => failed error after.heap) :
    action.Ensures heap done failed := by
  unfold Action.Ensures at h ⊢
  rw [ending_recorded] at h
  cases hending : action.ending heap with
  | mk result after =>
      rw [hending] at h
      cases result <;> exact h

end Recorded

end Heap

namespace Request

/-- The record after a request. -/
def record (request : Request) (before : Heap.Record) : Heap.Record where
  heap := request.next before.heap
  skipped := before.skipped ++ request.skips before.heap

/-- A request that skips nothing leaves what is skipped as it is. -/
theorem record_of_silent (request : Request) (h : request.action.Silent)
    (before : Heap.Record) :
    request.record before = { before with heap := request.next before.heap } := by
  rw [record, skips, h, List.append_nil]

/-- An answer is given without a change of the record. -/
theorem record_eq {α : Type} (request : Request) {action : Action Heap HeapError α}
    {answer : α → Action Heap HeapError Reply} (haction : request.action = action >>= answer)
    (hanswer : ∀ value, (answer value).Silent)
    (hkept : ∀ value heap, ((answer value).ending heap).2 = heap) (before : Heap.Record) :
    request.record before = ((Heap.recorded action).ending before).2 := by
  rw [record, next, skips, haction, Action.skips_bind_of_silent hanswer,
    Action.state_ending_bind hkept, Heap.ending_recorded]

theorem record_eq_of_bind_pure {α : Type} (request : Request)
    {action : Action Heap HeapError α} {answer : α → Reply}
    (haction : request.action = action >>= fun value => pure (answer value))
    (before : Heap.Record) : request.record before = ((Heap.recorded action).ending before).2 :=
  request.record_eq haction (fun _ => Action.silent_pure _) (fun _ _ => rfl) before

end Request

end ScriptLinker
