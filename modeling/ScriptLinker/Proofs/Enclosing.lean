import ScriptLinker.Proofs.History
import ScriptLinker.Proofs.Room
/-!
# The check of an enclosing scope

A scope is placed first and its enclosing scope checked afterwards, in the heap that
has the new cell. So the check is passed by a reference that happens to be the address
just handed out, and when it fails the new cell stays until the next collection.
`enclosing_checked` says what the check amounts to all the same: what a reference that
the heap itself has returned, or one that the roots reach, can lead to.
-/

namespace ScriptLinker

namespace Heap

variable {heap after : Heap} {kind : ScopeKind} {outer : ScopeId}

theorem ending_allocScope (kind : ScopeKind) (outer : ScopeId) (heap : Heap) :
    (allocScope kind (some outer)).ending heap =
      match (allocate (.scope { kind, enclosing := some outer }) Charge.scope).ending heap with
      | (.ok id, after) => ((after.scope outer).map fun _ => ⟨id⟩, after)
      | (.error error, after) => (.error error, after) := by
  unfold allocScope
  rw [Action.ending_bind]
  cases (allocate (.scope { kind, enclosing := some outer }) Charge.scope).ending heap with
  | mk result after =>
      cases result with
      | error error => rfl
      | ok id =>
          dsimp only
          rw [Action.ending_bind, Action.ending_read]
          cases after.scope outer <;> rfl

/-- A new scope in `outer` is placed in the heap that has room for it. -/
structure PlacesScope (heap : Heap) (kind : ScopeKind) (outer : ScopeId) (id : CellId)
    (after : Heap) : Prop where
  places : (heap.readied Charge.scope).Places (.scope { kind, enclosing := some outer })
    Charge.scope id after
  born : (Request.perform (.allocScope kind (some outer))).born? heap =
    some ⟨id, .scope { kind, enclosing := some outer }⟩

/-- How the allocation of a scope in `outer` can end, with the heap it leaves. -/
inductive ScopeEnding (heap : Heap) (kind : ScopeKind) (outer : ScopeId) :
    Except HeapError ScopeId → Heap → Prop where
  | refused {after : Heap} : after = heap.struck ∨ after = heap.readied Charge.scope →
      ScopeEnding heap kind outer (.error .outOfMemory) after
  | itself {after : Heap} : heap.PlacesScope kind outer outer.id after →
      ScopeEnding heap kind outer (.ok outer) after
  | enclosed {id : CellId} {content : Scope} {after : Heap} : id ≠ outer.id →
      (heap.readied Charge.scope).scope outer = .ok content →
      heap.PlacesScope kind outer id after → ScopeEnding heap kind outer (.ok ⟨id⟩) after
  | orphaned {id : CellId} {error : HeapError} {after : Heap} : id ≠ outer.id →
      (heap.readied Charge.scope).scope outer = .error error →
      heap.PlacesScope kind outer id after → ScopeEnding heap kind outer (.error error) after

/-- A scope that found room is placed, and then its enclosing scope is looked up: it is found
at once under the new address, and where it was otherwise. -/
theorem scopeEnding (h : heap.Sound) (kind : ScopeKind) (outer : ScopeId) :
    heap.ScopeEnding kind outer ((allocScope kind (some outer)).ending heap).1
      ((allocScope kind (some outer)).ending heap).2 := by
  rw [ending_allocScope]
  cases hallocate :
      (allocate (.scope { kind, enclosing := some outer }) Charge.scope).ending heap with
  | mk result after =>
      cases result with
      | error error =>
          obtain ⟨rfl, _, hreserve⟩ := error_of_allocate hallocate
          exact .refused (eq_of_reserve hreserve)
      | ok id =>
          have hborn : (Request.perform (.allocScope kind (some outer))).born? heap =
              some ⟨id, .scope { kind, enclosing := some outer }⟩ :=
            Request.born?_of_allocate rfl rfl (congrArg Prod.fst hallocate)
          obtain ⟨ready, hreserve, hplaces⟩ := places_of_allocate hallocate
          obtain ⟨_, rfl, _⟩ := (reserve_eq_ok_iff _ _ _).1 hreserve
          have hcell := (hplaces.placed (h.reserve hreserve).slots).cell? outer.id
          dsimp only
          by_cases hid : outer.id = id
          · subst hid
            rw [(scope_eq_ok_iff after outer _).2 (hcell.trans (if_pos rfl))]
            exact .itself ⟨hplaces, hborn⟩
          · rw [scope_congr (hcell.trans (if_neg hid))]
            cases hscope : (heap.readied Charge.scope).scope outer with
            | ok content => exact .enclosed (Ne.symm hid) hscope ⟨hplaces, hborn⟩
            | error error => exact .orphaned (Ne.symm hid) hscope ⟨hplaces, hborn⟩

/-- Making room never makes a reference name a scope that it did not name before. -/
theorem scope_of_readied {bytes : Nat} {content : Scope}
    (h : (heap.readied bytes).scope outer = .ok content) : heap.scope outer = .ok content := by
  rw [scope_eq_ok_iff] at h ⊢
  exact (keeps_readied bytes heap).cell?_of_cell? _ _ h

/-- A scope that the roots reach is found when room has been made. -/
theorem scope_readied_of_reaches {bytes : Nat} {content : Scope}
    (houter : heap.scope outer = .ok content) (h : heap.Reaches outer.id) :
    (heap.readied bytes).scope outer = .ok content :=
  (scope_congr ((keeps_readied bytes heap).cell? h)).trans houter

theorem Reaches.exists_held {id : CellId} (h : heap.Reaches id) :
    ∃ ref, heap.Holds ref ∧ ref.id = id := by
  cases h with
  | stackRoot href _ => exact ⟨_, Or.inl ((mem_roots_iff _ _).2 (Or.inl href)), rfl⟩
  | persistentRoot href _ => exact ⟨_, Or.inl ((mem_roots_iff _ _).2 (Or.inr ⟨_, href⟩)), rfl⟩
  | edge _ hedge _ => exact ⟨_, Or.inr (Or.inl ⟨_, hedge⟩), rfl⟩

/-- Making room makes the heap hold nothing new. -/
theorem holds_of_holds_readied {bytes : Nat} {ref : CellRef}
    (h : (heap.readied bytes).Holds ref) : heap.Holds ref := by
  have hpassed : ∀ ref, heap.passed.Holds ref → heap.Holds ref := by
    rintro ref (hroot | ⟨id, hedge⟩ | hstore)
    · exact Or.inl hroot
    · exact Or.inr (Or.inl ⟨id, (edge_iff heap id ref).2 ((edge_iff heap.passed id ref).1 hedge)⟩)
    · exact Or.inr (Or.inr hstore)
  unfold readied at h
  split at h
  · exact hpassed ref (holds_of_holds_collected h)
  · exact hpassed ref h

end Heap

namespace History

variable {history : History} {kind : ScopeKind} {outer : ScopeId}

/-- A new cell does not have an address that was issued before. -/
theorem Sound.born_not_issued (h : history.Sound) {request : Request}
    (hadmits : history.Admits request) {issue : Issue}
    (hborn : request.born? history.heap = some issue) :
    ∀ other ∈ history.issued, other.id ≠ issue.id := by
  have hnodup := (h.next hadmits).coherent.ids_nodup
  have hissued : (history.next request).issued = issue :: history.issued := by
    rw [History.next, Request.issuedAfter, hborn]
    rfl
  rw [hissued, List.map_cons, List.nodup_cons] at hnodup
  exact fun other hother heq => hnodup.1 (heq ▸ List.mem_map_of_mem hother)

/-- The reference passed for the enclosing scope was issued. -/
theorem Sound.outer_issued (h : history.Sound)
    (hadmits : history.Admits (.perform (.allocScope kind (some outer)))) :
    ∃ issue ∈ history.issued, issue.ref = .scope outer :=
  h.returned_issued _ (hadmits.refs_returned _ (by simp [Request.refs, Operation.refs]))

/-- A scope does not enclose itself if the reference to the enclosing one was issued. -/
theorem Sound.ne_outer (h : history.Sound)
    (hadmits : history.Admits (.perform (.allocScope kind (some outer)))) {id : CellId}
    {after : Heap} (hplaces : history.heap.PlacesScope kind outer id after) : id ≠ outer.id := by
  obtain ⟨issue, hissue, href⟩ := h.outer_issued hadmits
  exact fun heq => h.born_not_issued hadmits hplaces.born issue hissue
    ((Issue.id_eq_of_ref href).trans heq.symm)

/-- The cell that a failed check leaves behind is not reached. -/
theorem Sound.not_reaches (h : history.Sound)
    (hadmits : history.Admits (.perform (.allocScope kind (some outer)))) {id : CellId}
    {after : Heap} (hplaces : history.heap.PlacesScope kind outer id after) :
    ¬ after.Reaches id := by
  intro hreached
  obtain ⟨ref, hheld, hid⟩ := hreached.exists_held
  have hbirth : Heap.Birth _ ⟨id, .scope { kind, enclosing := some outer }⟩ after :=
    .plain (by simp) hplaces.places
  have hknown : ref ∈ Issue.refs history.issued := by
    rcases hbirth.holds_cases (h.heap.readied _).slots hheld with hold | hnew
    · exact h.coherent.held_issued ref (Heap.holds_of_holds_readied hold)
    · obtain rfl : ref = .scope outer := by simpa [Cell.references] using hnew
      exact h.outer_issued hadmits
  obtain ⟨issue, hissue, rfl⟩ := hknown
  exact h.born_not_issued hadmits hplaces.born issue hissue (by rw [← hid, Issue.id_ref])

end History

namespace Heap

/-- What the check of the enclosing scope comes to, though it is made when the new scope has
been placed.

A scope that is handed out encloses itself under an address that named nothing, or it is in
a scope that was alive before. If there is no room, an attempt is counted and there may be a
collection; any other error comes from the look-up and leaves the new cell as well. If the
roots reach the enclosing scope, memory is all that can lack. If the heap itself has
returned the reference, a scope that is handed out is in one that was alive before, and a
cell left behind is gone with the next collection. -/
theorem enclosing_checked {heap : Heap} (h : heap.Reachable) (kind : ScopeKind)
    (outer : ScopeId) :
    let ended := (allocScope kind (some outer)).ending heap
    let ready := heap.readied Charge.scope
    (∀ scope, ended.1 = .ok scope →
      (scope ≠ outer ∧ ∃ content, heap.scope outer = .ok content) ∨
        scope = outer ∧ ready.cell? outer.id = none) ∧
    (∀ error, ended.1 = .error error →
      error = .outOfMemory ∧ (ended.2 = heap.struck ∨ ended.2 = ready) ∨
        ready.scope outer = .error error ∧ ∃ id, id ≠ outer.id ∧
          ready.Placed (.scope { kind, enclosing := some outer }) Charge.scope id ended.2) ∧
    (∀ content error, heap.scope outer = .ok content → heap.Reaches outer.id →
      ended.1 = .error error →
        error = .outOfMemory ∧ (ended.2 = heap.struck ∨ ended.2 = ready)) ∧
    ∀ start history, start.Initial → History.Run { heap := start } history →
      history.heap = heap → history.Admits (.perform (.allocScope kind (some outer))) →
        (∀ scope, ended.1 = .ok scope →
          scope ≠ outer ∧ ∃ content, heap.scope outer = .ok content) ∧
        ∀ error, ended.1 = .error error → error ≠ .outOfMemory → ∃ id,
          ready.Placed (.scope { kind, enclosing := some outer }) Charge.scope id ended.2 ∧
            ¬ ended.2.Reaches id ∧ ¬ ended.2.collected.isLive id = true := by
  intro ended ready
  have hending := scopeEnding h.sound kind outer
  have hslots := (h.sound.readied Charge.scope).slots
  change heap.ScopeEnding kind outer ended.1 ended.2 at hending
  refine ⟨fun scope hok => ?_, fun error herror => ?_,
    fun content error houter hreached herror => ?_, ?_⟩
  · rw [hok] at hending
    cases hending with
    | itself hplaces => exact Or.inr ⟨rfl, (hplaces.places.placed hslots).not_live⟩
    | enclosed hid hscope _ =>
        exact Or.inl ⟨fun heq => hid (heq ▸ rfl), _, scope_of_readied hscope⟩
  · rw [herror] at hending
    cases hending with
    | refused hafter => exact Or.inl ⟨rfl, hafter⟩
    | orphaned hid hscope hplaces =>
        exact Or.inr ⟨hscope, _, hid, hplaces.places.placed hslots⟩
  · rw [herror] at hending
    cases hending with
    | refused hafter => exact ⟨rfl, hafter⟩
    | orphaned hid hscope hplaces =>
        have hfound : ready.scope outer = .ok content := scope_readied_of_reaches houter hreached
        cases hscope.symm.trans hfound
  · rintro start history hinitial hrun rfl hadmits
    have hsound := (History.sound_initial hinitial).run hrun
    refine ⟨fun scope hok => ?_, fun error herror hother => ?_⟩
    · rw [hok] at hending
      cases hending with
      | itself hplaces => exact absurd rfl (hsound.ne_outer hadmits hplaces)
      | enclosed hid hscope _ =>
          exact ⟨fun heq => hid (heq ▸ rfl), _, scope_of_readied hscope⟩
    · rw [herror] at hending
      cases hending with
      | refused _ => exact absurd rfl hother
      | orphaned hid hscope hplaces =>
          have hlost := hsound.not_reaches hadmits hplaces
          exact ⟨_, hplaces.places.placed hslots, hlost,
            fun hlive => hlost ((isLive_collected_iff _ _).1 hlive)⟩

/-- A scope comes and goes. -/
def scopeSwept : List Request := [.perform (.allocScope .global none), .perform .collect]

/-- The scope is gone that a new one should be in. The check fails, and the cell that was
placed before it is gone with the next collection. -/
theorem enclosing_checked_stale :
    ∃ history : History, History.Run { heap := .ofLimits ⟨1000, 1000⟩ } history ∧
      history.Admits (.perform (.allocScope .lexical (some ⟨⟨0, 0⟩⟩))) ∧
      let ended := (allocScope .lexical (some ⟨⟨0, 0⟩⟩)).ending history.heap
      ended.1 = .error (.staleReference ⟨0, 0⟩) ∧
        ∃ id, ended.2.isLive id = true ∧ ¬ ended.2.collected.isLive id = true := by
  have hinitial : Heap.Initial (.ofLimits ⟨1000, 1000⟩) := .ofLimits _
  have hrun : History.Run { heap := .ofLimits ⟨1000, 1000⟩ }
      (History.nextAll scopeSwept { heap := .ofLimits ⟨1000, 1000⟩ }) :=
    History.run_nextAll (by decide +kernel)
  have hadmits : (History.nextAll scopeSwept { heap := .ofLimits ⟨1000, 1000⟩ }).Admits
      (.perform (.allocScope .lexical (some ⟨⟨0, 0⟩⟩))) := by
    decide +kernel
  have hstale : ((allocScope .lexical (some ⟨⟨0, 0⟩⟩)).ending
      (Request.nextAll scopeSwept (.ofLimits ⟨1000, 1000⟩))).1 =
      .error (.staleReference ⟨0, 0⟩) := by
    decide +kernel
  obtain ⟨_, _, _, hreturned⟩ := enclosing_checked
    ((Reachable.initial hinitial).nextAll scopeSwept) .lexical ⟨⟨0, 0⟩⟩
  obtain ⟨id, hplaced, _, hgone⟩ :=
    (hreturned _ _ hinitial hrun rfl hadmits).2 _ hstale (by simp)
  have hlive := (isLive_iff _ id).2 ⟨_, (hplaced.cell? id).trans (if_pos rfl)⟩
  exact ⟨_, hrun, hadmits, hstale, id, hlive, hgone⟩

/-- An address that another heap has issued is free in an empty heap and becomes the new
scope's own, so that the scope encloses itself. And where the enclosing scope is gone, the
error leaves a cell more, with its charge, in a slot that was free. -/
theorem enclosing_checked_afterPlacing :
    let empty : Heap := .ofLimits ⟨1000, 1000⟩
    let swept := Request.nextAll scopeSwept empty
    let looped := (allocScope .lexical (some ⟨⟨0, 0⟩⟩)).ending empty
    let failed := (allocScope .lexical (some ⟨⟨0, 0⟩⟩)).ending swept
    (empty.Reachable ∧ ((allocScope .global none).ending empty).1 = .ok ⟨⟨0, 0⟩⟩ ∧
      empty.scope ⟨⟨0, 0⟩⟩ = .error (.staleReference ⟨0, 0⟩) ∧ looped.1 = .ok ⟨⟨0, 0⟩⟩ ∧
      looped.2.scope ⟨⟨0, 0⟩⟩ = .ok { kind := .lexical, enclosing := some ⟨⟨0, 0⟩⟩ }) ∧
    swept.Reachable ∧ failed.1 = .error (.staleReference ⟨0, 0⟩) ∧
      failed.2.stats.gcRuns = swept.stats.gcRuns ∧
      (swept.liveCells, swept.usedBytes, swept.freeSlots) = (0, 0, [0]) ∧
      (failed.2.liveCells, failed.2.usedBytes, failed.2.freeSlots) = (1, 20, []) := by
  intro empty swept looped failed
  have hempty : empty.Reachable := .initial (.ofLimits _)
  exact ⟨⟨hempty, by decide +kernel, by decide +kernel, by decide +kernel, by decide +kernel⟩,
    hempty.nextAll _, by decide +kernel, by decide +kernel, by decide +kernel, by decide +kernel⟩

end Heap

end ScriptLinker
