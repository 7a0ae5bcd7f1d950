import ScriptLinker.Proofs.Atomicity
import ScriptLinker.Proofs.Balance
/-!
# Which requests for bytes are met

The heap decides about a request from the bytes in use and from a threshold that moves
with every collection. What comes out depends on neither: a request is met if its bytes
fit under the hard limit beside those of the cells that the roots reach. For what does
not fit exceeds every threshold, so that the heap has collected when it refuses, and a
collection leaves just the reached cells in use.
-/

namespace ScriptLinker

namespace Heap

variable {heap after : Heap}

theorem Move.limits_eq {given : Set CellRef} (h : Move given heap after) :
    after.limits = heap.limits :=
  h.frame.limits

theorem Birth.limits_eq {issue : Issue} (h : Birth heap issue after) (hslots : heap.SlotsSound) :
    after.limits = heap.limits := by
  obtain ⟨_, placed, hplaced, hafter⟩ := h.placed hslots
  rw [hafter]
  exact hplaced.limits

end Heap

namespace Request

open Heap (Reachable)

variable {heap : Heap}

/-- No request changes the limits of a heap. -/
theorem limits_next (h : heap.Sound) (request : Request) :
    (request.next heap).limits = heap.limits := by
  have hpassage : ∀ {after : Heap}, Heap.Passage request.given heap after →
      after.limits = heap.limits := fun hpassage =>
    hpassage.keep (p := fun after => after.limits = heap.limits)
      (fun hbefore hmove => hmove.limits_eq.trans hbefore) id rfl
  rcases next_cases h request with hnext | ⟨between, _, _, hbetween, hbirth⟩ | ⟨_, _, hnext⟩
  · exact hpassage hnext
  · exact (hbirth.limits_eq (h.passage hbetween).slots).trans (hpassage hbetween)
  · rw [hnext]

theorem limits_nextAll (h : heap.Reachable) (requests : List Request) :
    (nextAll requests heap).limits = heap.limits := by
  induction requests generalizing heap with
  | nil => rfl
  | cons request rest ih =>
      exact (ih (h.request request)).trans (limits_next h.sound request)

end Request

namespace Heap

variable {heap : Heap} {bytes : Nat}

/-- Without an armed failure, a request is an attempt, a collection if one is due, and
a comparison with the bytes of what is reached. -/
theorem Sound.ending_reserve (h : heap.Sound) (hlimit : heap.limits.maxBytes < maxSize)
    (hunarmed : heap.failureCountdown = none) (bytes : Nat) :
    (Heap.reserve bytes).ending heap =
      (if heap.limits.maxBytes < heap.reachedBytes + bytes then .error .outOfMemory else .ok (),
        if heap.zeal = true ∨ heap.nextThreshold < heap.usedBytes + bytes then
          heap.attempted.collected
        else heap.attempted) := by
  have hpassed : heap.passed = heap.attempted := passed_eq_attempted (by simp [hunarmed])
  have hready : heap.readied bytes =
      if heap.zeal = true ∨ heap.nextThreshold < heap.usedBytes + bytes then
        heap.attempted.collected
      else heap.attempted := by
    rw [Heap.readied, hpassed]
    exact if_congr (h.ledger.mustCollect_iff hlimit bytes) rfl rfl
  have hroom := h.hasRoom_readied_iff hlimit bytes
  rw [Heap.ending_reserve, if_neg (by simp [hunarmed]), ← hready]
  by_cases hfits : heap.reachedBytes + bytes ≤ heap.limits.maxBytes
  · rw [if_pos (hroom.2 hfits), if_neg (Nat.not_lt.2 hfits)]
  · rw [if_neg (mt hroom.1 hfits), if_pos (Nat.lt_of_not_le hfits)]

/-- Adding a cell asks for its bytes first and for a slot then. -/
theorem allocate_eq_outOfMemory_iff (cell : Cell) (bytes : Nat) (heap : Heap) :
    ((allocate cell bytes).ending heap).1 = .error .outOfMemory ↔
      ((reserve bytes).ending heap).1 = .error .outOfMemory ∨
        ((reserve bytes).ending heap).2.freeSlots = [] ∧
          maxSlots ≤ ((reserve bytes).ending heap).2.slots.size := by
  rw [ending_allocate]
  cases hreserve : (reserve bytes).ending heap with
  | mk result ready =>
      cases result with
      | error error => simp [error_of_reserve hreserve]
      | ok done =>
          dsimp only
          rw [ending_place, vacancy?]
          cases hfree : ready.freeSlots with
          | cons index rest => simp
          | nil =>
              by_cases hsize : ready.slots.size < maxSlots
              · simp [hsize]
              · simp [hsize, Nat.le_of_not_lt hsize]

/-- Charging a cell asks for the bytes and for nothing that could be lacking after it. -/
theorem charge_eq_outOfMemory_iff (id : CellId) (bytes : Nat) (heap : Heap) :
    ((charge id bytes).ending heap).1 = .error .outOfMemory ↔
      ((reserve bytes).ending heap).1 = .error .outOfMemory := by
  rw [ending_charge]
  cases hreserve : (reserve bytes).ending heap with
  | mk result ready =>
      cases result with
      | error error => rfl
      | ok done =>
          dsimp only
          split <;> simp

/-- Which requests for bytes are met, and when the heap collects for them.

A request fails if what the roots reach leaves no room for it, and only then. The same goes
for all that ask for bytes: new cells, which need a slot besides, and the parts of scripts.
A request that fails has collected, since what is reached is in use and the threshold is
passed as well; any other collects only past the threshold, unless the heap always does. The
threshold lies between the configured one, lowered to the hard limit, and that limit. -/
theorem reserve_exact {heap : Heap} (h : heap.Reachable)
    (hlimit : heap.limits.maxBytes < maxSize) (hunarmed : heap.failureCountdown = none)
    (bytes : Nat) :
    let ended := (reserve bytes).ending heap
    let needed := ∑ id ∈ heap.reached, heap.bytesAt id.index + bytes
    (∀ id, id ∈ heap.reached ↔ heap.Reaches id) ∧
    (ended.1 = .error .outOfMemory ↔ heap.limits.maxBytes < needed) ∧
    (ended.1 = .ok () ↔ needed ≤ heap.limits.maxBytes) ∧
    (∀ cell, ((allocate cell bytes).ending heap).1 = .error .outOfMemory ↔
      heap.limits.maxBytes < needed ∨
        ended.2.freeSlots = [] ∧ maxSlots ≤ ended.2.slots.size) ∧
    (∀ id, ((charge id bytes).ending heap).1 = .error .outOfMemory ↔
      heap.limits.maxBytes < needed) ∧
    (ended.1 = .error .outOfMemory → ended.2 = heap.attempted.collected ∧
      ended.2.stats.gcRuns = heap.stats.gcRuns + 1) ∧
    (ended.2 = if heap.zeal = true ∨ heap.nextThreshold < heap.usedBytes + bytes then
      heap.attempted.collected else heap.attempted) ∧
    (ended.2.stats.gcRuns ≠ heap.stats.gcRuns → heap.zeal = false →
      heap.nextThreshold < heap.usedBytes + bytes) ∧
    heap.limits.gcThreshold ≤ heap.nextThreshold ∧
    heap.nextThreshold ≤ heap.limits.maxBytes ∧
    ∀ configured start requests,
      (start = ofLimits configured ∨
        ∃ settings, ofSettings? settings = .ok start ∧ configured = .ofSettings settings) →
      heap = Request.nextAll requests start → heap.limits = configured.clamp := by
  intro ended needed
  have hended : ended = _ := h.sound.ending_reserve hlimit hunarmed bytes
  have hresult : ended.1 =
      if heap.limits.maxBytes < needed then .error .outOfMemory else .ok () :=
    congrArg Prod.fst hended
  have hstate : ended.2 =
      if heap.zeal = true ∨ heap.nextThreshold < heap.usedBytes + bytes then
        heap.attempted.collected
      else heap.attempted := congrArg Prod.snd hended
  have hfails : ended.1 = .error .outOfMemory ↔ heap.limits.maxBytes < needed := by
    rw [hresult]
    split <;> simp_all
  have hmet : ended.1 = .ok () ↔ needed ≤ heap.limits.maxBytes := by
    rw [hresult, ← Nat.not_lt]
    split <;> simp_all
  have hle := h.sound.reachedBytes_le hlimit
  have hthreshold := h.sound.ledger.nextThreshold_le
  refine ⟨mem_reached heap, hfails, hmet,
    fun cell => (allocate_eq_outOfMemory_iff cell bytes heap).trans (or_congr_left hfails),
    fun id => (charge_eq_outOfMemory_iff id bytes heap).trans hfails, fun herror => ?_, hstate,
    fun hruns hquiet => ?_, h.sound.ledger.gcThreshold_le, hthreshold, ?_⟩
  · have hpast : heap.nextThreshold < heap.usedBytes + bytes := by
      have hneeded : heap.limits.maxBytes < heap.reachedBytes + bytes := hfails.1 herror
      omega
    rw [hstate, if_pos (Or.inr hpast)]
    exact ⟨rfl, rfl⟩
  · by_contra hunder
    refine hruns ?_
    rw [hstate, if_neg (by simp [hquiet, Nat.not_lt.1 hunder])]
    rfl
  · rintro configured start requests hstart hheap
    have hlimits : start.Initial ∧ start.limits = configured.clamp := by
      rcases hstart with rfl | ⟨settings, hsettings, rfl⟩
      · exact ⟨.ofLimits _, rfl⟩
      · exact ⟨.ofSettings hsettings, eq_of_ofSettings? hsettings ▸ rfl⟩
    rw [hheap, Request.limits_nextAll (.initial hlimits.1), hlimits.2]

/-- A heap that holds a rooted script with an image and, past the threshold that it was
configured with, one more script that is not rooted. -/
def crowded : List Request :=
  [.perform (.allocScript {}), .perform (.addRoot (.script ⟨⟨0, 0⟩⟩)),
    .perform (.createImage ⟨⟨0, 0⟩⟩ 100 20), .perform (.allocScript {})]

/-- Of 344 bytes in use 88 are garbage, so that a request of 144 is met and one of 145
is not. -/
theorem reserve_exact_garbage :
    ∃ heap : Heap, heap.Reachable ∧ heap.limits.maxBytes = 400 ∧ heap.usedBytes = 344 ∧
      ∑ id ∈ heap.reached, heap.bytesAt id.index = 256 ∧
      ((reserve 144).ending heap).1 = .ok () ∧
      ((reserve 145).ending heap).1 = .error .outOfMemory ∧
      ((reserve 145).ending heap).2.stats.gcRuns = heap.stats.gcRuns + 1 := by
  let heap := Request.nextAll crowded (ofLimits ⟨300, 400⟩)
  have hempty : (ofLimits ⟨300, 400⟩).Reachable := .initial (.ofLimits _)
  have hreachable : heap.Reachable := hempty.nextAll crowded
  have hlimit : heap.limits.maxBytes = 400 := by decide +kernel
  have hbelow : heap.limits.maxBytes < maxSize := by decide +kernel
  have hunarmed : heap.failureCountdown = none := by decide +kernel
  have hmet : ((reserve 144).ending heap).1 = .ok () := by decide +kernel
  have hrefused : ((reserve 145).ending heap).1 = .error .outOfMemory := by decide +kernel
  obtain ⟨_, _, hfits, _⟩ := reserve_exact hreachable hbelow hunarmed 144
  obtain ⟨_, hfull, _, _, _, hcollected, _⟩ := reserve_exact hreachable hbelow hunarmed 145
  have hle := hfits.1 hmet
  have hlt := hfull.1 hrefused
  exact ⟨heap, hreachable, hlimit, by decide +kernel, by omega, hmet, hrefused,
    (hcollected hrefused).2⟩

end Heap

end ScriptLinker
