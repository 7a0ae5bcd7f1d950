import ScriptLinker.Proofs.Population
/-!
# Making room

Making room may collect, but it keeps whatever the roots reach: `Keeps` says what
stays. Whether room is granted does not depend on what there is to collect, nor
on the thresholds: `hasRoom_readied_iff` says that a request is met if its bytes
and those of the reached cells fit under the hard limit together.
-/

namespace ScriptLinker

namespace Action

variable {σ ε α β : Type}

/-- What holds of the value and the state where an action succeeds, and of the
error and the state where it fails. -/
def Ensures (action : Action σ ε α) (state : σ) (done : α → σ → Prop)
    (failed : ε → σ → Prop) : Prop :=
  match action.ending state with
  | (.ok value, after) => done value after
  | (.error error, after) => failed error after

section Endings

variable {action : Action σ ε α} {state after : σ} {done : α → σ → Prop} {failed : ε → σ → Prop}

theorem Ensures.of_ok {value : α} (h : action.Ensures state done failed)
    (hending : action.ending state = (.ok value, after)) : done value after := by
  unfold Ensures at h
  rwa [hending] at h

theorem Ensures.of_error {error : ε} (h : action.Ensures state done failed)
    (hending : action.ending state = (.error error, after)) : failed error after := by
  unfold Ensures at h
  rwa [hending] at h

/-- Where nothing is asked of failures, it is enough to look at successes. -/
theorem ensures_of_ok (h : ∀ value after, action.ending state = (.ok value, after) →
    done value after) : action.Ensures state done fun _ _ => True := by
  unfold Ensures
  cases hending : action.ending state with
  | mk result after =>
      cases result with
      | ok value => exact h value after hending
      | error error => trivial

theorem ensures_any (action : Action σ ε α) (state : σ) :
    action.Ensures state (fun _ _ => True) fun _ _ => True :=
  ensures_of_ok fun _ _ _ => trivial

end Endings

theorem ensures_of_ending {action : Action σ ε α} {state after : σ} {value : α}
    {done : α → σ → Prop} {failed : ε → σ → Prop}
    (h : action.ending state = (.ok value, after)) (hdone : done value after) :
    action.Ensures state done failed := by
  unfold Ensures
  rw [h]
  exact hdone

theorem Ensures.bind {first : Action σ ε α} {next : α → Action σ ε β} {state : σ}
    {middle : α → σ → Prop} {done : β → σ → Prop} {failed : ε → σ → Prop}
    (hfirst : first.Ensures state middle failed)
    (hnext : ∀ value after, middle value after → (next value).Ensures after done failed) :
    (first >>= next).Ensures state done failed := by
  unfold Ensures at hfirst ⊢
  rw [ending_bind]
  cases hending : first.ending state with
  | mk result after =>
      rw [hending] at hfirst
      cases result with
      | ok value => exact hnext value after hfirst
      | error error => exact hfirst

theorem Ensures.mono {action : Action σ ε α} {state : σ} {done done' : α → σ → Prop}
    {failed failed' : ε → σ → Prop} (h : action.Ensures state done failed)
    (hdone : ∀ value after, done value after → done' value after)
    (hfailed : ∀ error after, failed error after → failed' error after) :
    action.Ensures state done' failed' := by
  unfold Ensures at h ⊢
  cases hending : action.ending state with
  | mk result after =>
      rw [hending] at h
      cases result with
      | ok value => exact hdone value after h
      | error error => exact hfailed error after h

end Action

namespace Heap

/-- What a heap keeps while room is made. -/
structure Keeps (heap after : Heap) : Prop where
  slots : ∀ id, heap.Reaches id → after.slots[id.index]? = heap.slots[id.index]?
  reaches_iff : ∀ id, after.Reaches id ↔ heap.Reaches id
  cell?_of_cell? : ∀ id cell, after.cell? id = some cell → heap.cell? id = some cell
  rootStack : after.rootStack = heap.rootStack
  persistentRoots : after.persistentRoots = heap.persistentRoots
  freeRoots : after.freeRoots = heap.freeRoots
  limits : after.limits = heap.limits
  size_eq : after.slots.size = heap.slots.size
  countdown_eq_none : heap.failureCountdown = none → after.failureCountdown = none

theorem Keeps.refl (heap : Heap) : heap.Keeps heap :=
  ⟨fun _ _ => rfl, fun _ => Iff.rfl, fun _ _ => id, rfl, rfl, rfl, rfl, rfl, id⟩

theorem keeps_collected (heap : Heap) : heap.Keeps heap.collected where
  slots := fun _ => slot_collected_of_reaches
  reaches_iff := reaches_collected_iff heap
  cell?_of_cell? := fun _ _ => cell?_of_cell?_collected
  rootStack := rfl
  persistentRoots := rfl
  freeRoots := rfl
  limits := rfl
  size_eq := size_slots_collected heap
  countdown_eq_none := id

/-- Counting an attempt keeps everything. -/
theorem keeps_passed (heap : Heap) : heap.Keeps heap.passed where
  slots := fun _ _ => rfl
  reaches_iff := reaches_congr rfl fun _ => rfl
  cell?_of_cell? := fun _ _ => id
  rootStack := rfl
  persistentRoots := rfl
  freeRoots := rfl
  limits := rfl
  size_eq := rfl
  countdown_eq_none := fun h => by rw [passed, h]; rfl

theorem keeps_struck (heap : Heap) : heap.Keeps heap.struck where
  slots := fun _ _ => rfl
  reaches_iff := reaches_congr rfl fun _ => rfl
  cell?_of_cell? := fun _ _ => id
  rootStack := rfl
  persistentRoots := rfl
  freeRoots := rfl
  limits := rfl
  size_eq := rfl
  countdown_eq_none := fun _ => rfl

theorem Keeps.trans {heap middle after : Heap} (h : heap.Keeps middle) (h' : middle.Keeps after) :
    heap.Keeps after where
  slots := fun id hid => (h'.slots id ((h.reaches_iff id).2 hid)).trans (h.slots id hid)
  reaches_iff := fun id => (h'.reaches_iff id).trans (h.reaches_iff id)
  cell?_of_cell? := fun id cell hcell => h.cell?_of_cell? id cell (h'.cell?_of_cell? id cell hcell)
  rootStack := h'.rootStack.trans h.rootStack
  persistentRoots := h'.persistentRoots.trans h.persistentRoots
  freeRoots := h'.freeRoots.trans h.freeRoots
  limits := h'.limits.trans h.limits
  size_eq := h'.size_eq.trans h.size_eq
  countdown_eq_none := fun hnone => h'.countdown_eq_none (h.countdown_eq_none hnone)

theorem keeps_readied (bytes : Nat) (heap : Heap) : heap.Keeps (heap.readied bytes) := by
  unfold readied
  split
  · exact (keeps_passed heap).trans (keeps_collected _)
  · exact keeps_passed heap

/-- Whether room was made or not, what is reached was kept. -/
theorem keeps_of_reserve {bytes : Nat} {heap after : Heap} {result : Except HeapError Unit}
    (h : (reserve bytes).ending heap = (result, after)) : heap.Keeps after := by
  rcases eq_of_reserve h with rfl | rfl
  · exact keeps_struck heap
  · exact keeps_readied bytes heap

/-- The bytes of the cells that the roots reach. -/
def reachedBytes (heap : Heap) : Nat :=
  heap.bytesOf heap.reached

theorem Keeps.cell? {heap after : Heap} (h : heap.Keeps after) {id : CellId}
    (hid : heap.Reaches id) : after.cell? id = heap.cell? id :=
  cell?_congr (h.slots id hid)

/-- Heaps that reach the same cells in the same slots hold equally many bytes there. -/
theorem reachedBytes_congr {heap after : Heap}
    (hreaches : ∀ id, after.Reaches id ↔ heap.Reaches id)
    (hslots : ∀ id, heap.Reaches id → after.slots[id.index]? = heap.slots[id.index]?) :
    after.reachedBytes = heap.reachedBytes := by
  have hreached : after.reached = heap.reached := by
    ext id
    rw [mem_reached, mem_reached, hreaches]
  rw [reachedBytes, hreached]
  exact bytesOf_congr fun id hid => hslots id ((mem_reached _ _).1 hid)

theorem Keeps.reachedBytes_eq {heap after : Heap} (h : heap.Keeps after) :
    after.reachedBytes = heap.reachedBytes :=
  reachedBytes_congr h.reaches_iff h.slots

theorem Sound.passed {heap : Heap} (h : heap.Sound) : heap.passed.Sound :=
  h.congr rfl rfl rfl rfl rfl rfl

theorem Sound.struck {heap : Heap} (h : heap.Sound) : heap.struck.Sound :=
  h.congr rfl rfl rfl rfl rfl rfl

theorem Sound.readied {heap : Heap} (h : heap.Sound) (bytes : Nat) :
    (heap.readied bytes).Sound := by
  unfold Heap.readied
  split
  · exact h.passed.collected
  · exact h.passed

theorem Sound.reachedBytes_le {heap : Heap} (h : heap.Sound)
    (hlimit : heap.limits.maxBytes < maxSize) : heap.reachedBytes ≤ heap.usedBytes := by
  rw [h.usedBytes_eq hlimit, ← bytesOf_reached_add_swept]
  exact Nat.le_add_right _ _

/-- A request is met if it fits under the hard limit next to the reached cells. -/
theorem Sound.hasRoom_readied_iff {heap : Heap} (h : heap.Sound)
    (hlimit : heap.limits.maxBytes < maxSize) (bytes : Nat) :
    (heap.readied bytes).HasRoom bytes ↔
      heap.reachedBytes + bytes ≤ heap.limits.maxBytes := by
  have hbytes : heap.passed.reachedBytes = heap.reachedBytes := (keeps_passed heap).reachedBytes_eq
  by_cases hcollect : heap.mustCollect bytes
  · have hused : heap.passed.collected.usedBytes = heap.reachedBytes :=
      (h.passed.usedBytes_collected hlimit).trans hbytes
    rw [Heap.readied, if_pos hcollect, HasRoom, hused, limits_collected, satAdd]
    change min _ _ ≤ heap.limits.maxBytes ↔ _
    omega
  · have hquiet : satAdd heap.usedBytes bytes ≤ heap.limits.maxBytes :=
      (Nat.le_of_not_lt fun hpast => hcollect (Or.inr hpast)).trans h.ledger.nextThreshold_le
    rw [Heap.readied, if_neg hcollect]
    apply iff_of_true hquiet
    have hle := h.reachedBytes_le hlimit
    unfold satAdd at hquiet
    omega

/-- Making room keeps what is reached. It fails only for lack of memory: an armed
failure struck, or the request did not fit. -/
theorem ensures_reserve {heap : Heap} (h : heap.Sound) (bytes : Nat) :
    (reserve bytes).Ensures heap
      (fun _ ready => heap.Keeps ready ∧ ready.Sound ∧ ready.HasRoom bytes ∧
        (heap.limits.maxBytes < maxSize →
          heap.reachedBytes + bytes ≤ heap.limits.maxBytes))
      (fun error after => heap.Keeps after ∧ after.Sound ∧ error = .outOfMemory ∧
        (heap.failureCountdown ≠ none ∨ (heap.limits.maxBytes < maxSize →
          heap.limits.maxBytes < heap.reachedBytes + bytes))) := by
  unfold Action.Ensures
  rw [ending_reserve]
  by_cases hstrike : heap.failureCountdown = some 0
  · rw [if_pos hstrike]
    exact ⟨keeps_struck heap, h.struck, rfl, Or.inl (by simp [hstrike])⟩
  · rw [if_neg hstrike]
    by_cases hroom : (heap.readied bytes).HasRoom bytes
    · rw [if_pos hroom]
      exact ⟨keeps_readied bytes heap, h.readied bytes, hroom,
        fun hlimit => (h.hasRoom_readied_iff hlimit bytes).1 hroom⟩
    · rw [if_neg hroom]
      refine ⟨keeps_readied bytes heap, h.readied bytes, rfl, Or.inr fun hlimit => ?_⟩
      exact Nat.lt_of_not_le fun hle => hroom ((h.hasRoom_readied_iff hlimit bytes).2 hle)

/-- Placing fails only where the slot table is full. -/
theorem ensures_place {heap : Heap} {bytes : Nat} (cell : Cell) (hroom : heap.HasRoom bytes) :
    (place cell bytes).Ensures heap (fun id after => heap.Places cell bytes id after)
      (fun error after => after = heap ∧ error = .outOfMemory ∧ maxSlots ≤ heap.slots.size) := by
  unfold Action.Ensures
  rw [ending_place]
  cases hvacancy : heap.vacancy? with
  | some found => exact ⟨found.1, found.2, hvacancy, hroom, rfl, rfl⟩
  | none =>
      refine ⟨rfl, rfl, ?_⟩
      unfold vacancy? at hvacancy
      split at hvacancy
      · simp at hvacancy
      · split at hvacancy
        · simp at hvacancy
        · rename_i hfull
          exact Nat.le_of_not_lt hfull

/-- Allocating makes room and places the cell. -/
theorem ensures_allocate {heap : Heap} (h : heap.Sound) (cell : Cell) (bytes : Nat) :
    (allocate cell bytes).Ensures heap
      (fun id after => ∃ ready, heap.Keeps ready ∧ ready.Sound ∧
        ready.Places cell bytes id after ∧ (heap.limits.maxBytes < maxSize →
          heap.reachedBytes + bytes ≤ heap.limits.maxBytes))
      (fun error after => heap.Keeps after ∧ after.Sound ∧ error = .outOfMemory ∧
        (heap.failureCountdown ≠ none ∨ maxSlots ≤ after.slots.size ∨
          (heap.limits.maxBytes < maxSize →
            heap.limits.maxBytes < heap.reachedBytes + bytes))) := by
  refine Action.Ensures.bind ((ensures_reserve h bytes).mono (fun _ _ hdone => hdone) ?_) ?_
  · rintro error after ⟨hkeeps, hsound, herror, hcause⟩
    exact ⟨hkeeps, hsound, herror, hcause.imp_right Or.inr⟩
  · rintro _ ready ⟨hkeeps, hsound, hroom, hfits⟩
    refine (ensures_place cell hroom).mono (fun id after hplaces => ?_) ?_
    · exact ⟨ready, hkeeps, hsound, hplaces, hfits⟩
    · rintro error after ⟨rfl, herror, hfull⟩
      exact ⟨hkeeps, hsound, herror, Or.inr (Or.inl hfull)⟩

end Heap

end ScriptLinker
