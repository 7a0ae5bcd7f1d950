import ScriptLinker.Proofs.Materialization
import ScriptLinker.Proofs.Tally
/-!
# Armed runs

A failure that is armed to let some attempts pass does nothing until its turn comes, and
then the action fails for lack of memory. So the runs of an action with a failure armed
are all told by the one without: `Sweeps` counts its attempts and says where each armed run
ends. It passes from the steps of an action to their sequence, attempts adding up, and a
single attempt is what `reserve` makes; nothing else looks at the countdown.
-/

namespace ScriptLinker

namespace Heap

@[simp] theorem failureCountdown_failAfter (count : Nat) (heap : Heap) :
    (heap.failAfter count).failureCountdown = some count := rfl

/-- What some attempts and no armed failure leave: they are counted, and the stack roots
that were there are still at the bottom of the stack. -/
structure Attempts (heap : Heap) (attempts : Nat) (after : Heap) : Prop where
  unarmed : after.failureCountdown = none
  allocations : after.stats.allocations = heap.stats.allocations + attempts
  rootStack : heap.rootStack <+: after.rootStack

theorem Attempts.trans {heap middle after : Heap} {first rest : Nat}
    (h : heap.Attempts first middle) (h' : middle.Attempts rest after) :
    heap.Attempts (first + rest) after where
  unarmed := h'.unarmed
  allocations := by rw [h'.allocations, h.allocations, Nat.add_assoc]
  rootStack := h.rootStack.trans h'.rootStack

/-- How the runs of an action end that differ in the armed failure only. -/
structure Sweeps {α : Type} (action : Action Heap HeapError α) (heap : Heap) (attempts : Nat) :
    Prop where
  /-- Without an armed failure the action makes so many attempts. -/
  made : heap.Attempts attempts (action.ending heap).2
  /-- A failure that lets more of them pass is armed still, and nothing else is different. -/
  late : ∀ left, action.ending (heap.failAfter (attempts + left)) =
    ((action.ending heap).1, (action.ending heap).2.failAfter left)
  /-- One that lets fewer pass has struck at the next. -/
  early : ∀ count < attempts, ∃ after,
    action.ending (heap.failAfter count) = (.error .outOfMemory, after) ∧
      heap.Attempts (count + 1) after

/-- Whether the armed runs of an action are told by its unarmed ones. -/
def Sweepable {α : Type} (action : Action Heap HeapError α) : Prop :=
  ∀ heap : Heap, heap.failureCountdown = none → ∃ attempts, Sweeps action heap attempts

/-- An action that makes no attempt is the same to a heap with and without an armed
failure. -/
theorem sweepable_of_steady {α : Type} {action : Action Heap HeapError α}
    (hmade : ∀ heap : Heap, heap.failureCountdown = none →
      heap.Attempts 0 (action.ending heap).2)
    (hlate : ∀ (heap : Heap) (left : Nat), action.ending (heap.failAfter left) =
      ((action.ending heap).1, (action.ending heap).2.failAfter left)) :
    Sweepable action := fun heap hunarmed =>
  ⟨0, hmade heap hunarmed, fun left => by rw [Nat.zero_add, hlate],
    fun _ hcount => absurd hcount (Nat.not_lt_zero _)⟩

theorem attempts_zero {heap : Heap} (h : heap.failureCountdown = none) : heap.Attempts 0 heap :=
  ⟨h, rfl, List.prefix_refl _⟩

theorem sweepable_pure {α : Type} (value : α) :
    Sweepable (pure value : Action Heap HeapError α) :=
  sweepable_of_steady (fun _ => attempts_zero) fun _ _ => rfl

theorem sweepable_note (event : Event) : Sweepable (Action.note event) :=
  sweepable_of_steady (fun _ => attempts_zero) fun _ _ => rfl

theorem sweepable_ofExcept {α : Type} (value : Except HeapError α) :
    Sweepable (Action.ofExcept value) :=
  sweepable_of_steady (fun _ => attempts_zero) fun _ _ => rfl

theorem sweepable_read {α : Type} {look : Heap → Except HeapError α}
    (hlook : ∀ (heap : Heap) (left : Nat), look (heap.failAfter left) = look heap) :
    Sweepable (Action.read look) :=
  sweepable_of_steady (fun _ => attempts_zero) fun heap left => by
    rw [Action.ending_read, Action.ending_read, hlook]

theorem sweepable_modify {change : Heap → Heap}
    (hmade : ∀ heap : Heap, heap.failureCountdown = none → heap.Attempts 0 (change heap))
    (hchange : ∀ (heap : Heap) (left : Nat),
      change (heap.failAfter left) = (change heap).failAfter left) :
    Sweepable (Action.modify change) :=
  sweepable_of_steady hmade fun heap left => by
    rw [Action.ending_modify, Action.ending_modify, hchange]

/-- The attempts of a sequence are those of its steps. A failure that the first step lets
pass comes as far as the second. -/
theorem Sweepable.bind {α β : Type} {first : Action Heap HeapError α}
    {next : α → Action Heap HeapError β} (hfirst : Sweepable first)
    (hnext : ∀ value, Sweepable (next value)) : Sweepable (first >>= next) := by
  intro heap hunarmed
  obtain ⟨attempts, hmade, hlate, hearly⟩ := hfirst heap hunarmed
  have hearly' : ∀ count < attempts, ∃ after,
      (first >>= next).ending (heap.failAfter count) = (.error .outOfMemory, after) ∧
        heap.Attempts (count + 1) after := by
    intro count hcount
    obtain ⟨after, hstruck, hattempts⟩ := hearly count hcount
    exact ⟨after, Action.ending_bind_of_error hstruck _, hattempts⟩
  cases hending : first.ending heap with
  | mk result middle =>
      rw [hending] at hmade hlate
      cases result with
      | error error =>
          have hbind := Action.ending_bind_of_error hending next
          refine ⟨attempts, hbind ▸ hmade, fun left => ?_, hearly'⟩
          rw [hbind, Action.ending_bind_of_error (hlate left)]
      | ok value =>
          have hbind := Action.ending_bind_of_ok hending next
          obtain ⟨more, hmade', hlate', hearly''⟩ := hnext value middle hmade.unarmed
          refine ⟨attempts + more, ?_, fun left => ?_, fun count hcount => ?_⟩
          · rw [hbind]
            exact hmade.trans hmade'
          · rw [hbind, Nat.add_assoc, Action.ending_bind_of_ok (hlate (more + left)), hlate']
          · rcases Nat.lt_or_ge count attempts with hlt | hge
            · exact hearly' count hlt
            · obtain ⟨rest, rfl⟩ := Nat.exists_eq_add_of_le hge
              obtain ⟨after, hstruck, hattempts⟩ := hearly'' rest (by omega)
              refine ⟨after, ?_, ?_⟩
              · rw [Action.ending_bind_of_ok (hlate rest), hstruck]
              · exact Nat.add_assoc attempts rest 1 ▸ hmade.trans hattempts

/-- An attempt brings an armed failure one step nearer. -/
theorem readied_failAfter (bytes : Nat) (heap : Heap) (left : Nat) :
    (heap.failAfter (left + 1)).readied bytes = (heap.readied bytes).failAfter left := by
  by_cases hcollect : heap.mustCollect bytes
  · have hcollect' : (heap.failAfter (left + 1)).mustCollect bytes := hcollect
    rw [readied, readied, if_pos hcollect, if_pos hcollect']
    rfl
  · have hcollect' : ¬ (heap.failAfter (left + 1)).mustCollect bytes := hcollect
    rw [readied, readied, if_neg hcollect, if_neg hcollect']
    rfl

theorem attempts_readied {heap : Heap} (h : heap.failureCountdown = none) (bytes : Nat) :
    heap.Attempts 1 (heap.readied bytes) := by
  have hpassed : heap.Attempts 1 heap.passed := by
    refine ⟨?_, rfl, List.prefix_refl _⟩
    rw [passed, h]
    rfl
  unfold readied
  split
  · exact ⟨hpassed.unarmed, hpassed.allocations, hpassed.rootStack⟩
  · exact hpassed

/-- Making room is the one attempt, whether there is any or not. -/
theorem sweepable_reserve (bytes : Nat) : Sweepable (reserve bytes) := by
  intro heap hunarmed
  refine ⟨1, ?_, fun left => ?_, fun count hcount => ?_⟩
  · rw [ending_reserve, if_neg (by simp [hunarmed])]
    split <;> exact attempts_readied hunarmed bytes
  · have harmed : (heap.failAfter (left + 1)).failureCountdown ≠ some 0 := by simp
    have hunstruck : heap.failureCountdown ≠ some 0 := by simp [hunarmed]
    rw [Nat.add_comm 1, ending_reserve, ending_reserve, if_neg harmed, if_neg hunstruck,
      readied_failAfter]
    by_cases hroom : (heap.readied bytes).HasRoom bytes
    · have hroom' : ((heap.readied bytes).failAfter left).HasRoom bytes := hroom
      rw [if_pos hroom, if_pos hroom']
    · have hroom' : ¬ ((heap.readied bytes).failAfter left).HasRoom bytes := hroom
      rw [if_neg hroom, if_neg hroom']
  · obtain rfl : count = 0 := by omega
    refine ⟨(heap.failAfter 0).struck, ?_, rfl, rfl, List.prefix_refl _⟩
    rw [ending_reserve, if_pos (failureCountdown_failAfter 0 heap)]

theorem vacancy?_failAfter (heap : Heap) (left : Nat) :
    (heap.failAfter left).vacancy? =
      heap.vacancy?.map fun found => (found.1, found.2.failAfter left) := by
  unfold vacancy? failAfter grown
  cases heap.freeSlots with
  | cons index rest => rfl
  | nil =>
      dsimp only
      split <;> rfl

theorem attempts_of_vacancy? {heap ready : Heap} {index : Nat}
    (h : heap.vacancy? = some (index, ready)) (hunarmed : heap.failureCountdown = none) :
    heap.Attempts 0 ready := by
  unfold vacancy? at h
  split at h
  · obtain ⟨_, rfl⟩ := Prod.mk.inj (Option.some.inj h)
    exact ⟨hunarmed, rfl, List.prefix_refl _⟩
  · split at h
    · obtain ⟨_, rfl⟩ := Prod.mk.inj (Option.some.inj h)
      exact ⟨hunarmed, rfl, List.prefix_refl _⟩
    · simp at h

theorem sweepable_place (cell : Cell) (bytes : Nat) : Sweepable (place cell bytes) := by
  refine sweepable_of_steady (fun heap hunarmed => ?_) fun heap left => ?_
  · rw [ending_place]
    cases hvacancy : heap.vacancy? with
    | none => exact attempts_zero hunarmed
    | some found =>
        obtain ⟨h₁, h₂, h₃⟩ := attempts_of_vacancy? hvacancy hunarmed
        exact ⟨h₁, h₂, h₃⟩
  · rw [ending_place, ending_place, vacancy?_failAfter]
    cases heap.vacancy? <;> rfl

theorem sweepable_allocate (cell : Cell) (bytes : Nat) : Sweepable (allocate cell bytes) :=
  (sweepable_reserve bytes).bind fun _ => sweepable_place cell bytes

theorem sweepable_charge (id : CellId) (bytes : Nat) : Sweepable (charge id bytes) :=
  (sweepable_reserve bytes).bind fun _ =>
    (sweepable_read fun _ _ => rfl).bind fun _ =>
      sweepable_modify (fun _ hunarmed => ⟨hunarmed, rfl, List.prefix_refl _⟩) fun _ _ => rfl

theorem sweepable_updateScript (script : ScriptId)
    (change : Script → Except HeapError Script) : Sweepable (updateScript script change) :=
  (sweepable_read fun _ _ => rfl).bind fun _ =>
    (sweepable_ofExcept _).bind fun _ =>
      sweepable_modify (fun _ hunarmed => ⟨hunarmed, rfl, List.prefix_refl _⟩) fun _ _ => rfl

theorem sweepable_createPart (script : ScriptId) (part : ScriptPart) (bytes : Nat)
    (install : Script → Script) : Sweepable (createPart script part bytes install) :=
  (sweepable_read fun _ _ => rfl).bind fun _ =>
    (sweepable_ofExcept _).bind fun _ =>
      (sweepable_charge script.id bytes).bind fun _ => sweepable_updateScript script _

theorem sweepable_storeRef (script : ScriptId) (ref : CellRef)
    (install : Script → Except HeapError Script) : Sweepable (storeRef script ref install) :=
  (sweepable_read fun _ _ => rfl).bind fun _ =>
    (sweepable_updateScript script install).bind fun _ =>
      sweepable_modify (fun _ hunarmed => ⟨hunarmed, rfl, List.prefix_refl _⟩) fun _ _ => rfl

theorem sweepable_fillThingsFrom (script : ScriptId) (globalScope : ScopeId) (index : Nat)
    (sources : List ThingSource) :
    Sweepable (fillThingsFrom script globalScope index sources) := by
  induction sources generalizing index with
  | nil => exact sweepable_pure ()
  | cons source rest ih =>
      have hthing : ∀ (heap : Heap) (left : Nat),
          (heap.failAfter left).thingOf globalScope source = heap.thingOf globalScope source :=
        fun heap left => by cases source; rfl
      exact (sweepable_read hthing).bind fun thing =>
        (sweepable_storeRef script thing _).bind fun _ => ih (index + 1)

theorem shelved_failAfter (script : ScriptId) (image : ScriptImage) (heap : Heap) (left : Nat) :
    (heap.failAfter left).shelved script image =
      ((heap.shelved script image).1, (heap.shelved script image).2.failAfter left) := by
  have hfound : (heap.failAfter left).sharedImage? image = heap.sharedImage? image := rfl
  unfold shelved
  rw [hfound]
  cases heap.sharedImage? image with
  | some object =>
      unfold refund failAfter
      dsimp only
      cases heap.slots[script.id.index]? <;> rfl
  | none => rfl

theorem sweepable_internImage (script : ScriptId) (image : ScriptImage) :
    Sweepable (internImage script image) := by
  refine sweepable_of_steady (fun heap hunarmed => ?_) fun heap left => ?_
  · rw [ending_internImage]
    refine ⟨(failureCountdown_shelved script image heap).trans hunarmed, ?_, ?_⟩
    · exact congrArg HeapStats.allocations (stats_shelved script image heap)
    · rw [rootStack_shelved]
  · rw [ending_internImage, ending_internImage, shelved_failAfter]

theorem sweepable_share (script : ScriptId) : Sweepable (share script) :=
  (sweepable_read fun _ _ => rfl).bind fun _ =>
    (sweepable_charge script.id Charge.hold).bind fun _ =>
      (sweepable_read fun _ _ => rfl).bind fun image =>
        (sweepable_internImage script image).bind fun _ => sweepable_updateScript script _

/-- An action is sweepable if it ends, with and without an armed failure, as one that is. -/
theorem Sweeps.congr {α : Type} {action other : Action Heap HeapError α} {heap : Heap}
    {attempts : Nat} (h : Sweeps other heap attempts)
    (hunarmed : action.ending heap = other.ending heap)
    (harmed : ∀ left, action.ending (heap.failAfter left) = other.ending (heap.failAfter left)) :
    Sweeps action heap attempts where
  made := hunarmed ▸ h.made
  late := fun left => by rw [harmed, hunarmed, h.late]
  early := fun count hcount => by simpa only [harmed] using h.early count hcount

theorem sweepable_internNew (text : String) : Sweepable (internNew text) := by
  refine (sweepable_allocate _ _).bind fun id => ?_
  have hentered : Sweepable (Action.modify (enterAtom text ⟨id⟩)) :=
    sweepable_modify (fun _ hunarmed => ⟨hunarmed, rfl, List.prefix_refl _⟩) fun _ _ => rfl
  exact hentered.bind fun _ => (sweepable_note _).bind fun _ => sweepable_pure _

/-- The look-up among the interned texts does not see the countdown. -/
theorem sweepable_intern (text : String) : Sweepable (intern text) := by
  intro heap hunarmed
  cases hfound : (heap.internedAtom? text).filter fun atom => heap.isLive atom.id with
  | some atom =>
      have hending : ∀ heap : Heap,
          ((heap.internedAtom? text).filter fun atom => heap.isLive atom.id) = some atom →
          (intern text).ending heap = (pure atom : Action Heap HeapError AtomId).ending heap :=
        fun heap hfound => by rw [Action.ending, run_intern_of_some hfound]; rfl
      obtain ⟨attempts, h⟩ := sweepable_pure atom heap hunarmed
      exact ⟨attempts, h.congr (hending heap hfound)
        fun left => hending (heap.failAfter left) hfound⟩
  | none =>
      have hending : ∀ heap : Heap,
          ((heap.internedAtom? text).filter fun atom => heap.isLive atom.id) = none →
          (intern text).ending heap = (internNew text).ending heap :=
        fun heap hfound => by rw [Action.ending, run_intern_of_none hfound]; rfl
      obtain ⟨attempts, h⟩ := sweepable_internNew text heap hunarmed
      exact ⟨attempts, h.congr (hending heap hfound)
        fun left => hending (heap.failAfter left) hfound⟩

theorem sweepable_atomize (bytes : Bytes) : Sweepable (atomize bytes) := by
  unfold atomize
  cases Utf8.decode? bytes with
  | none => exact sweepable_ofExcept (.error _)
  | some text => exact sweepable_intern text

theorem sweepable_internStrings (script : ScriptId) (index : Nat) (strings : List Bytes) :
    Sweepable (Blueprint.internStrings script index strings) := by
  induction strings generalizing index with
  | nil => exact sweepable_pure ()
  | cons string rest ih =>
      exact (sweepable_atomize string).bind fun atom =>
        (sweepable_storeRef script (.atom atom) _).bind fun _ => ih (index + 1)

/-- Dropping what was pushed leaves just the stack roots that were there. -/
theorem Attempts.truncateRoots {heap after : Heap} {attempts : Nat}
    (h : heap.Attempts attempts after) :
    heap.Attempts attempts (after.truncateRoots heap.rootStack.length) := by
  refine ⟨h.unarmed, h.allocations, ?_⟩
  rw [rootStack_truncateRoots, ← List.prefix_iff_eq_take.1 h.rootStack]

theorem Sweepable.withRoots {α : Type} {action : Action Heap HeapError α}
    (h : Sweepable action) : Sweepable (Heap.withRoots action) := by
  intro heap hunarmed
  obtain ⟨attempts, hmade, hlate, hearly⟩ := h heap hunarmed
  refine ⟨attempts, hmade.truncateRoots, fun left => ?_, fun count hcount => ?_⟩
  · rw [ending_withRoots, ending_withRoots, hlate]
    rfl
  · obtain ⟨after, hstruck, hattempts⟩ := hearly count hcount
    refine ⟨after.truncateRoots heap.rootStack.length, ?_, hattempts.truncateRoots⟩
    rw [ending_withRoots, hstruck]
    rfl

/-- The construction of a script looks at the countdown only where it makes an attempt. -/
theorem sweepable_build (blueprint : Blueprint) (globalScope : ScopeId) :
    Sweepable (blueprint.build globalScope) := by
  have hthings : ∀ script, Sweepable (blueprint.buildThings globalScope script) := fun script =>
    (sweepable_createPart script _ _ _).bind fun _ => (sweepable_note _).bind fun _ =>
      (sweepable_fillThingsFrom script globalScope 0 _).bind fun _ => sweepable_note _
  have hatoms : ∀ script, Sweepable (blueprint.buildAtoms script) := fun script =>
    (sweepable_createPart script _ _ _).bind fun _ => (sweepable_note _).bind fun _ =>
      (sweepable_internStrings script 0 _).bind fun _ => sweepable_note _
  have himage : ∀ script, Sweepable (blueprint.buildImage script) := fun script =>
    (sweepable_createPart script _ _ _).bind fun _ => (sweepable_note _).bind fun _ =>
      (sweepable_updateScript script _).bind fun _ =>
        (sweepable_updateScript script _).bind fun _ => sweepable_note _
  have hshell : Sweepable (allocScript blueprint.extent) :=
    (sweepable_allocate _ _).bind fun _ => sweepable_pure _
  refine Sweepable.withRoots (hshell.bind fun script => ?_)
  have hrooted : Sweepable (Action.modify (pushRoot (.script script))) :=
    sweepable_modify (fun _ hunarmed => ⟨hunarmed, rfl, List.prefix_append _ _⟩) fun _ _ => rfl
  exact hrooted.bind fun _ => (sweepable_note _).bind fun _ => (hthings script).bind fun _ =>
    (hatoms script).bind fun _ => (himage script).bind fun _ => (sweepable_share script).bind
      fun _ => (sweepable_note _).bind fun _ => sweepable_pure _

/-- Whatever a construction has come to, of the stack roots none is lost and none is left. -/
theorem Attempts.rootStack_build {heap start after : Heap} {attempts : Nat}
    {blueprint : Blueprint} {globalScope : ScopeId} {result : Except HeapError ScriptId}
    (h : heap.Attempts attempts after)
    (hending : (blueprint.build globalScope).ending start = (result, after))
    (hstart : start.rootStack = heap.rootStack) :
    after.rootStack = heap.rootStack := by
  have htake := take_rootStack_build blueprint globalScope start
  rw [hending, hstart, ← List.prefix_iff_eq_take.1 h.rootStack] at htake
  exact htake.symm

end Heap

namespace Context

/-- The context in which a failure is armed that lets some attempts pass. -/
def failAfter (count : Nat) (context : Context) : Context :=
  { context with heap := context.heap.failAfter count }

theorem atomsMade_materialize {context : Context} {descriptor : Descriptor} {sourceLength : Nat}
    {blueprint : Blueprint}
    (h : context.blueprint? descriptor sourceLength = .ok blueprint) :
    (materialize descriptor sourceLength).atomsMade context =
      (blueprint.build context.globalScope).atomsMade context.heap := by
  unfold materialize
  rw [Action.atomsMade_bind, Action.ending_get]
  dsimp only
  rw [Action.atomsMade_bind, Action.ending_ofExcept, h]
  rfl

/-- A context with an armed failure has the same blueprints. -/
theorem ending_materialize_failAfter {context : Context} {descriptor : Descriptor}
    {sourceLength : Nat} {blueprint : Blueprint}
    (h : context.blueprint? descriptor sourceLength = .ok blueprint) (count : Nat) :
    (materialize descriptor sourceLength).ending (context.failAfter count) =
      let built := (blueprint.build context.globalScope).ending (context.heap.failAfter count)
      (built.1.mapError .ofHeapError, { context with heap := built.2 }) := by
  have hsame : (context.failAfter count).blueprint? descriptor sourceLength = .ok blueprint := h
  rw [ending_materialize, hsame]
  rfl

/-- The armed runs of a materialization, from the unarmed one.

It makes five attempts and one for each atom that it creates; the cells that a reachable
heap has got are the script and those atoms, whether a cell was swept meanwhile or not. A
failure that lets fewer attempts pass strikes the next, is disarmed by that, and leaves the
stack roots, and all of the context beside the heap, as they were. One that lets more pass
makes no difference, and is armed still. -/
theorem materialize_sweep {context after : Context} {descriptor : Descriptor}
    {sourceLength : Nat} {script : ScriptId} (hunarmed : context.heap.failureCountdown = none)
    (hmade : (materialize descriptor sourceLength).ending context = (.ok script, after)) :
    let atoms := (materialize descriptor sourceLength).atomsMade context
    let attempts := 5 + atoms.length
    after.heap.stats.allocations = context.heap.stats.allocations + attempts ∧
    (context.heap.Reachable → after.heap.liveCells + after.heap.stats.cellsSwept =
      context.heap.liveCells + context.heap.stats.cellsSwept + 1 + atoms.length) ∧
    (∀ count < attempts, ∃ heap,
      (materialize descriptor sourceLength).ending (context.failAfter count) =
        (.error .outOfMemory, { context with heap }) ∧
      heap.stats.allocations = context.heap.stats.allocations + (count + 1) ∧
      heap.failureCountdown = none ∧ heap.rootStack = context.heap.rootStack) ∧
    ∀ count, attempts ≤ count →
      (materialize descriptor sourceLength).ending (context.failAfter count) =
        (.ok script, after.failAfter (count - attempts)) := by
  intro atoms attempts
  obtain ⟨blueprint, hblueprint, hbuild⟩ := build_of_materialize hmade
  have hcontext : after = { context with heap := after.heap } := by
    have hstate := state_materialize descriptor sourceLength context
    rwa [hmade] at hstate
  obtain ⟨made, hsweeps⟩ := Heap.sweepable_build blueprint context.globalScope _ hunarmed
  have htally := Heap.tallies_build blueprint context.globalScope _ _ _ hbuild
  have hatoms : atoms = _ := atomsMade_materialize hblueprint
  rw [← hatoms] at htally
  obtain rfl : made = attempts := by
    have hallocations := hsweeps.made.allocations
    rw [hbuild, htally.allocations] at hallocations
    omega
  refine ⟨htally.allocations, fun hreachable => ?_, fun count hcount => ?_, fun count hcount => ?_⟩
  · obtain ⟨requests, hrequests⟩ :=
      exists_requests_of_materialize context descriptor sourceLength
    have hafter : after.heap.Reachable := by
      rw [hmade] at hrequests
      exact hrequests ▸ hreachable.nextAll requests
    have hbefore := hreachable.sound.slots.liveCells_add_free
    have hlast := hafter.sound.slots.liveCells_add_free
    have hslots := htally.slots
    omega
  · obtain ⟨last, hstruck, hattempts⟩ := hsweeps.early count hcount
    refine ⟨last, ?_, hattempts.allocations, hattempts.unarmed,
      hattempts.rootStack_build hstruck rfl⟩
    rw [ending_materialize_failAfter hblueprint, hstruck]
    rfl
  · obtain ⟨left, rfl⟩ := Nat.exists_eq_add_of_le hcount
    rw [ending_materialize_failAfter hblueprint, hsweeps.late, hbuild, Nat.add_sub_cancel_left,
      hcontext]
    rfl

/-- Of three strings the first is interned already, but the heap collects its atom while it
makes room, and the third repeats it. So two atoms are created: the last attempt to fail is
the seventh. -/
theorem materialize_sweep_sweptAtom :
    ∃ (context after : Context) (script : ScriptId), context.Reachable ∧
      (∃ atom, context.heap.internedAtom? "x" = some atom) ∧
      (materialize { revision := .metadata, bytecode := [153], strings := [[120], [121], [120]] }
        3).ending context = (.ok script, after) ∧
      after.heap.stats.allocations = context.heap.stats.allocations + 7 ∧
      (∃ heap, (materialize
        { revision := .metadata, bytecode := [153], strings := [[120], [121], [120]] }
        3).ending (context.failAfter 6) = (.error .outOfMemory, { context with heap }) ∧
        heap.rootStack = context.heap.rootStack) ∧
      (materialize { revision := .metadata, bytecode := [153], strings := [[120], [121], [120]] }
        3).ending (context.failAfter 9) = (.ok script, after.failAfter 2) := by
  have hstart := reachable_of_isSome (rfl : (ofConfig?
    { heap := { gcThreshold := 0, maxBytes := 400, gcZeal := true } }).toOption.isSome = true)
  have hready := hstart.request (.perform (.atomize [120])) (by simp)
  obtain ⟨context, script, hreachable, hinterned, hunarmed, hatoms, hmade⟩ :
      ∃ (context : Context) (script : ScriptId), context.Reachable ∧
        context.heap.internedAtom? "x" = some ⟨⟨1, 0⟩⟩ ∧
        context.heap.failureCountdown = none ∧
        ((materialize
          { revision := .metadata, bytecode := [153], strings := [[120], [121], [120]] }
          3).atomsMade context).length = 2 ∧
        ((materialize
          { revision := .metadata, bytecode := [153], strings := [[120], [121], [120]] }
          3).ending context).1 = .ok script :=
    ⟨_, ⟨⟨1, 1⟩⟩, hready, by decide +kernel, by decide +kernel, by decide +kernel,
      by decide +kernel⟩
  obtain ⟨hattempts, _, hearly, hlate⟩ := materialize_sweep hunarmed (Prod.ext hmade rfl)
  rw [hatoms] at hattempts hearly hlate
  obtain ⟨heap, hstruck, _, _, hstack⟩ := hearly 6 (by decide)
  exact ⟨context, _, script, hreachable, ⟨_, hinterned⟩, Prod.ext hmade rfl, hattempts,
    ⟨heap, hstruck, hstack⟩, hlate 9 (by decide)⟩

end Context

end ScriptLinker
