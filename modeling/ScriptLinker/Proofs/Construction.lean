import ScriptLinker.Proofs.Stages
/-!
# The whole construction

`ensures_build` puts the stages together. A blueprint for which there is room is
built: what the roots reached before stays as it was, and the new script has the
parts that the blueprint gives it. One for which there is none, or that holds a
string that is not UTF-8, leaves behind what the roots reached before. Whether
there is room is decided by `demand` alone.
-/

namespace ScriptLinker

namespace Action

variable {σ ε α : Type} {state : σ} {done : α → σ → Prop} {failed : ε → σ → Prop}

theorem ensures_note_bind {next : Unit → Action σ ε α} (event : Event)
    (h : (next ()).Ensures state done failed) :
    (note event >>= next).Ensures state done failed :=
  h

theorem ensures_modify_bind {next : Unit → Action σ ε α} {change : σ → σ}
    (h : (next ()).Ensures (change state) done failed) :
    (modify change >>= next).Ensures state done failed :=
  h

theorem ensures_note {done : Unit → σ → Prop} (event : Event) (h : done () state) :
    (note event : Action σ ε Unit).Ensures state done failed :=
  h

end Action

/-- What the script of a blueprint is charged until it is sealed, and for sealing. -/
def Blueprint.charge (blueprint : Blueprint) : Nat :=
  Charge.script + Charge.things blueprint.plan.length + Charge.atoms blueprint.strings.length +
    Charge.image blueprint.image.totalLength + Charge.hold

namespace Heap

/-- The bytes that the reached cells and the script of a blueprint take together. -/
def demand (heap : Heap) (blueprint : Blueprint) : Nat :=
  heap.reachedBytes + blueprint.charge + heap.newBytes blueprint.strings

/-- Dropping stack roots leaves intact what was. -/
theorem Intact.truncateRoots {base heap : Heap} (h : base.Intact heap) (count : Nat) :
    base.Intact (heap.truncateRoots count) :=
  ⟨h.sound.congr rfl rfl rfl rfl rfl rfl, h.slots, h.persistentRoots, h.freeRoots, h.limits⟩

theorem Fails.truncateRoots {base after : Heap} {strings : List Bytes} {need : Nat}
    {error : HeapError} (h : Fails base strings need error after) (count : Nat) :
    Fails base strings need error (after.truncateRoots count) :=
  ⟨h.intact.truncateRoots count, h.cause⟩

/-- The stack roots that an action pushed are dropped at its end. -/
theorem ensures_withRoots {ε α : Type} {action : Action Heap ε α} {heap : Heap}
    {done : α → Heap → Prop} {failed : ε → Heap → Prop} (h : action.Ensures heap done failed)
    (hdone : ∀ value after, done value after →
      done value (after.truncateRoots heap.rootStack.length))
    (hfailed : ∀ error after, failed error after →
      failed error (after.truncateRoots heap.rootStack.length)) :
    (withRoots action).Ensures heap done failed := by
  have hending : (withRoots action).ending heap =
      ((action.ending heap).1, (action.ending heap).2.truncateRoots heap.rootStack.length) := rfl
  unfold Action.Ensures at h ⊢
  rw [hending]
  cases haction : action.ending heap with
  | mk result after =>
      rw [haction] at h
      cases result with
      | ok value => exact hdone value after h
      | error error => exact hfailed error after h

/-- Of the stack roots, no more are left than there were. -/
theorem take_rootStack_withRoots {ε α : Type} (action : Action Heap ε α) (heap : Heap) :
    ((withRoots action).ending heap).2.rootStack.take heap.rootStack.length =
      ((withRoots action).ending heap).2.rootStack := by
  have hstack : ((withRoots action).ending heap).2.rootStack =
      (action.run heap).state.rootStack.take heap.rootStack.length :=
    rootStack_withRoots action heap
  rw [hstack, List.take_take, Nat.min_self]

/-- A script that a blueprint was built into, on a heap that keeps what the roots
of `base` reached. -/
structure Built (base : Heap) (blueprint : Blueprint) (globalScope : ScopeId)
    (script : ScriptId) (after : Heap) : Prop extends Intact base after where
  rootStack_take : after.rootStack.take base.rootStack.length = base.rootStack
  script_eq : ∃ slots object,
    after.script script = .ok
      { extent := blueprint.extent
        flags := blueprint.flags
        things := some [some (.scope globalScope)]
        atoms := some slots
        image := .shared object } ∧
    object.image = blueprint.image ∧
    slots.length = blueprint.strings.length ∧
    ∀ (index : Nat) (string : Bytes), blueprint.strings[index]? = some string →
      ∃ atom text, slots[index]? = some (some atom) ∧ Utf8.decode? string = some text ∧
        after.cell? atom.id = some (.atom text)

theorem Built.truncateRoots {base after : Heap} {blueprint : Blueprint} {globalScope : ScopeId}
    {script : ScriptId} (h : Built base blueprint globalScope script after) :
    Built base blueprint globalScope script (after.truncateRoots base.rootStack.length) := by
  refine ⟨h.toIntact.truncateRoots _, ?_, h.script_eq⟩
  rw [rootStack_truncateRoots, List.take_take, Nat.min_self, h.rootStack_take]

namespace Draft

variable {base heap : Heap} {blueprint : Blueprint} {script : ScriptId} {content : Script}
  {globalScope : ScopeId} {bytes need : Nat}

/-- The one thing of a top-level script is the global scope. -/
theorem ensures_fillThings {stored : List Bytes} {scope : Scope}
    {failed : HeapError → Heap → Prop}
    (h : Draft base script { content with things := some [none] } bytes stored ∅ heap)
    (hsealed : content.isSealed = false)
    (hscope : base.cell? globalScope.id = some (.scope scope))
    (hreaches : base.Reaches globalScope.id) :
    (fillThings .ofGlobalScript script globalScope).Ensures heap
      (fun _ after => Draft base script
        { content with things := some [some (.scope globalScope)] } bytes stored ∅ after)
      failed := by
  have hcell : heap.cell? globalScope.id = some (.scope scope) :=
    (h.toIntact.cell? hreaches).trans hscope
  have hlive : heap.isLive globalScope.id = true := (isLive_iff heap _).2 ⟨_, hcell⟩
  have hset : Script.setThing 0 (.scope globalScope) { content with things := some [none] } =
      .ok { content with things := some [some (.scope globalScope)] } :=
    (Script.setThing_eq_ok_iff _ _ _ _).2 ⟨hsealed, [none], rfl, by simp, rfl⟩
  have hending : (fillThings .ofGlobalScript script globalScope).ending heap =
      (initThing script 0 (.scope globalScope)).ending heap := by
    rw [ending_fillThings, (scope_eq_ok_iff heap _ _).2 hcell]
  unfold Action.Ensures
  rw [hending]
  refine h.ensures_storeRef hlive hset (.thing hset) ?_ ⟨?_, h.fits.entry, h.fits.entry_lt⟩ ?_
  · intro ref href
    rw [Cell.mem_references_script] at href ⊢
    refine Or.inr (href.resolve_left ?_)
    simp [Script.thingSlots]
  · intro ref href
    obtain rfl : ref = .scope globalScope := by simpa [Script.thingSlots] using href
    exact hreaches
  · exact fun id hid => absurd hid (Set.notMem_empty id)

/-- The thing slots are created and filled. -/
theorem ensures_buildThings {scope : Scope} (h : Draft base script content bytes [] ∅ heap)
    (hplan : blueprint.plan = .ofGlobalScript)
    (hmissing : content.requireMissing .things = .ok ())
    (hscope : base.cell? globalScope.id = some (.scope scope))
    (hreaches : base.Reaches globalScope.id)
    (hneed : base.reachedBytes + bytes + base.newBytes [] + Charge.things 1 ≤ need) :
    (blueprint.buildThings globalScope script).Ensures heap
      (fun _ after => Draft base script
        { content with things := some [some (.scope globalScope)] }
        (bytes + Charge.things 1) [] ∅ after)
      (Fails base blueprint.strings need) := by
  have hsealed := ((Script.requireMissing_eq_ok_iff _ _).1 hmissing).1
  unfold Blueprint.buildThings
  rw [hplan, ThingPlan.length_ofGlobalScript]
  refine (h.ensures_createPart hmissing (.things 1 hmissing) hneed).bind fun _ _ hcreated => ?_
  apply Action.ensures_note_bind _
  refine (hcreated.ensures_fillThings hsealed hscope hreaches).bind fun _ _ hfilled => ?_
  exact Action.ensures_note _ hfilled

/-- The atom table is created and filled, string by string. -/
theorem ensures_buildAtoms (h : Draft base script content bytes [] ∅ heap)
    (hmissing : content.requireMissing .atoms = .ok ())
    (hneed : base.reachedBytes + (bytes + Charge.atoms blueprint.strings.length) +
      base.newBytes blueprint.strings ≤ need) :
    (blueprint.buildAtoms script).Ensures heap
      (fun _ after => ∃ slots, slots.length = blueprint.strings.length ∧
        Draft base script { content with atoms := some slots }
          (bytes + Charge.atoms blueprint.strings.length) blueprint.strings ∅ after)
      (Fails base blueprint.strings need) := by
  have hsealed := ((Script.requireMissing_eq_ok_iff _ _).1 hmissing).1
  have hbound : base.newBytes [] ≤ base.newBytes blueprint.strings :=
    newBytes_le (List.nil_subset _)
  refine (h.ensures_createPart hmissing (.atoms _ hmissing) (by omega)).bind fun _ _ hcreated => ?_
  apply Action.ensures_note_bind _
  refine (ensures_internStrings hsealed hneed blueprint.strings hcreated
    (by simp) (List.Subset.refl _)).bind ?_
  rintro _ after ⟨slots, hlength, hfilled⟩
  exact Action.ensures_note _ ⟨slots, by rw [hlength, List.length_replicate], hfilled⟩

/-- The image is created and filled, and the flags are set. -/
theorem ensures_buildImage {stored strings : List Bytes}
    (h : Draft base script content bytes stored ∅ heap)
    (hmissing : content.requireMissing .image = .ok ())
    (hneed : base.reachedBytes + bytes + base.newBytes stored +
      Charge.image blueprint.image.totalLength ≤ need) :
    (blueprint.buildImage script).Ensures heap
      (fun _ after => Draft base script
        { content with image := .owned blueprint.image, flags := blueprint.flags }
        (bytes + Charge.image blueprint.image.totalLength) stored ∅ after)
      (Fails base strings need) := by
  refine (h.ensures_createPart hmissing (.image _ _ hmissing) hneed).bind fun _ _ hcreated => ?_
  apply Action.ensures_note_bind _
  refine (hcreated.ensures_modifyImage rfl ?_).bind fun _ _ hcopied => ?_
  · rw [ScriptImage.totalLength_blank, ScriptImage.totalLength]
  · have hset : Script.setFlags blueprint.flags { content with image := .owned blueprint.image } =
        .ok { content with image := .owned blueprint.image, flags := blueprint.flags } :=
      (Script.setFlags_eq_ok_iff _ _ _).2 ⟨rfl, rfl⟩
    refine (hcopied.ensures_updateScript hset (.flags hset) ?_).bind fun _ _ hflagged => ?_
    · exact ⟨hcopied.fits.things_reached, hcopied.fits.entry, hcopied.fits.entry_lt⟩
    · exact Action.ensures_note _ hflagged

end Draft

theorem take_rootStack_build (blueprint : Blueprint) (globalScope : ScopeId) (heap : Heap) :
    ((blueprint.build globalScope).ending heap).2.rootStack.take heap.rootStack.length =
      ((blueprint.build globalScope).ending heap).2.rootStack :=
  take_rootStack_withRoots _ heap

/-- A blueprint of a top-level script is built if there is room for it. -/
theorem ensures_build {base : Heap} {blueprint : Blueprint} {globalScope : ScopeId}
    {scope : Scope} (h : base.Sound) (hplan : blueprint.plan = .ofGlobalScript)
    (hscope : base.cell? globalScope.id = some (.scope scope))
    (hreaches : base.Reaches globalScope.id) :
    (blueprint.build globalScope).Ensures base
      (fun script after => Built base blueprint globalScope script after ∧
        (base.limits.maxBytes < maxSize → base.demand blueprint ≤ base.limits.maxBytes))
      (Fails base blueprint.strings (base.demand blueprint)) := by
  have hbound : base.newBytes [] ≤ base.newBytes blueprint.strings :=
    newBytes_le (List.nil_subset _)
  have hlength : blueprint.plan.length = 1 := by rw [hplan, ThingPlan.length_ofGlobalScript]
  have hdemand : base.demand blueprint = base.reachedBytes + (Charge.script + Charge.things 1 +
      Charge.atoms blueprint.strings.length + Charge.image blueprint.image.totalLength) +
      base.newBytes blueprint.strings + Charge.hold := by
    rw [demand, Blueprint.charge, hlength]
    omega
  rw [hdemand]
  refine ensures_withRoots ?_ ?_ ?_
  · refine (ensures_allocScript h blueprint.strings blueprint.extent (by omega)).bind
      fun script shell hshell => ?_
    refine Action.ensures_modify_bind (Action.ensures_note_bind _ ?_)
    refine (hshell.ensures_buildThings hplan rfl hscope hreaches (by omega)).bind
      fun _ _ hthings => ?_
    apply (hthings.ensures_buildAtoms rfl (by omega)).bind
    rintro _ _ ⟨slots, hslots, hatoms⟩
    refine (hatoms.ensures_buildImage rfl (by omega)).bind fun _ _ himage => ?_
    apply (himage.ensures_share rfl (by omega)).bind
    rintro _ after ⟨object, bytes, hobject, hsealed, hfits⟩
    have htake : after.rootStack.take base.rootStack.length = base.rootStack := by
      rw [hsealed.rootStack, List.take_left]
    refine Action.ensures_note_bind _ ⟨⟨hsealed.toIntact, htake, slots, object, ?_⟩, ?_⟩
    · exact ⟨hsealed.script_eq, hobject, hslots, hsealed.fits.entry⟩
    · intro hlimit
      have hbytes := hfits hlimit
      omega
  · exact fun script after hbuilt => ⟨hbuilt.1.truncateRoots, hbuilt.2⟩
  · exact fun error after hfails => hfails.truncateRoots _

end Heap

end ScriptLinker
