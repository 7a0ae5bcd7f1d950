import ScriptLinker.Proofs.Confinement
import ScriptLinker.Proofs.Edges
import ScriptLinker.Proofs.Turnover
/-!
# What a failed materialization leaves behind

A call that fails leaves garbage only. The roots are those before the call, what
they reached is as it was, and none of it refers to a cell that the call made. So
after one more collection the heap is as if the call had not been: the same cells
are alive, and the bytes in use, the atoms and the shared images are the same.
`undone_of_materialize` says so of every context that a client leads to by the
references it was handed out, where no slot's generation has started over. Where one has,
`kept_of_failed_at_lastGeneration` finds the script of a failed call under the address of
an old root.
-/

namespace ScriptLinker

namespace Heap

variable {base heap other : Heap}

/-- The table of atoms is read off the cells. -/
theorem AtomsSound.perm_of_cell?_eq (h : heap.AtomsSound) (h' : other.AtomsSound)
    (hcells : ∀ id, other.cell? id = heap.cell? id) : other.atoms.Perm heap.atoms := by
  have hmem : ∀ {heap : Heap}, heap.AtomsSound → ∀ entry : String × AtomId,
      entry ∈ heap.atoms ↔ heap.cell? entry.2.id = some (.atom entry.1) :=
    fun hsound entry => ⟨hsound.entry_live _ _, hsound.live_entered _ _⟩
  refine (List.perm_ext_iff_of_nodup h'.keys_nodup.of_map h.keys_nodup.of_map).2 fun entry => ?_
  rw [hmem h', hmem h, hcells]

/-- So is the table of shared images. -/
theorem SharingSound.perm_of_cell?_eq (h : heap.SharingSound) (h' : other.SharingSound)
    (hcells : ∀ id, other.cell? id = heap.cell? id) :
    other.sharedImages.Perm heap.sharedImages := by
  refine (List.perm_ext_iff_of_nodup h'.images_nodup.of_map h.images_nodup.of_map).2
    fun object => ?_
  simp only [h'.mem_iff, h.mem_iff, objectAt?, hcells]

namespace Confines

/-- Where the stack is back to what it was and no dead reference has come to life,
what is reached is what was. -/
theorem reaches_iff (h : base.Confines heap) (hstack : heap.rootStack = base.rootStack)
    (hstale : ∀ ref, base.Holds ref → ¬ base.isLive ref.id = true → ¬ heap.isLive ref.id = true)
    (id : CellId) : heap.Reaches id ↔ base.Reaches id := by
  have hlive : ∀ {ref : CellRef}, base.Holds ref → heap.isLive ref.id = true →
      base.isLive ref.id = true :=
    fun hheld hlive => by_contra fun hdead => hstale _ hheld hdead hlive
  refine ⟨fun hid => Reaches.of_closed (P := base.Reaches) ?_ ?_ hid, h.reaches⟩
  · intro ref href hrefLive
    have hroot : ref ∈ base.roots := by simpa only [roots, hstack, h.persistentRoots] using href
    exact .of_root hroot (hlive (Or.inl hroot) hrefLive)
  · intro source ref hsource hedge hrefLive
    have hold : base.Edge source ref := by
      rw [edge_iff] at hedge ⊢
      simpa only [h.cell? hsource] using hedge
    exact .edge hsource hold (hlive (Or.inr (Or.inl ⟨source, hold⟩)) hrefLive)

theorem cell?_collected_eq (h : base.Confines heap)
    (hreaches : ∀ id, heap.Reaches id ↔ base.Reaches id) (id : CellId) :
    heap.collected.cell? id = base.collected.cell? id := by
  rw [cell?_collected, cell?_collected]
  by_cases hid : base.Reaches id
  · rw [if_pos hid, if_pos ((hreaches id).2 hid), h.cell? hid]
  · rw [if_neg hid, if_neg fun hnow => hid ((hreaches id).1 hnow)]

end Confines

end Heap

namespace Context

/-- A call that fails to build a script stays outside of what was reached, and drops
the stack roots it pushed. -/
theorem confines_materialize {context : Context} (h : context.heap.Sound)
    (descriptor : Descriptor) (sourceLength : Nat) :
    let after := ((materialize descriptor sourceLength).ending context).2
    context.heap.Confines after.heap ∧ after.heap.rootStack = context.heap.rootStack := by
  rw [ending_materialize]
  cases hblueprint : context.blueprint? descriptor sourceLength with
  | error error => exact ⟨.refl h, rfl⟩
  | ok blueprint =>
      have hplan := Blueprint.plan_of_ofDescriptor? hblueprint
      exact ⟨Heap.confines_build h hplan _, Heap.rootStack_build h hplan _⟩

namespace Served

variable {context after : Context} {returned : List CellRef}

/-- A call that fails leaves the roots and what they reached as they were, with the same
content and the same charge. If no slot's generation had started over before the call, none of
this refers to a cell that the call made. If none started over in the call either, the heap is
the same one collection later as one collection later without the call. -/
theorem undone_of_materialize (h : Served context returned) {descriptor : Descriptor}
    {sourceLength : Nat} {error : LinkError}
    (hfailed : (Context.materialize descriptor sourceLength).ending context =
      (.error error, after)) :
    after.heap.rootStack = context.heap.rootStack ∧
    after.heap.persistentRoots = context.heap.persistentRoots ∧
    (∀ id, context.heap.Reaches id → after.heap.isLive id = true ∧
      after.heap.cell? id = context.heap.cell? id ∧
      after.heap.bytesAt id.index = context.heap.bytesAt id.index) ∧
    (context.heap.Admitted →
      (∀ id ref, context.heap.Reaches id → after.heap.Edge id ref →
        context.heap.Reaches ref.id) ∧
      ((∀ index, context.heap.generationAt index ≤ after.heap.generationAt index) →
        (∀ id, after.heap.collected.cell? id = context.heap.collected.cell? id) ∧
        (context.heap.limits.maxBytes < maxSize →
          after.heap.collected.usedBytes = context.heap.collected.usedBytes) ∧
        after.heap.collected.atoms.Perm context.heap.collected.atoms ∧
        after.heap.collected.sharedImages.Perm context.heap.collected.sharedImages)) := by
  have hsound := h.heap_reachable.sound
  have hsharing := (h.failed descriptor sourceLength hfailed).heap_reachable.sharingSound
  have hconfined := confines_materialize hsound descriptor sourceLength
  rw [hfailed] at hconfined
  obtain ⟨hconfines, hstack⟩ := hconfined
  refine ⟨hstack, hconfines.persistentRoots, fun id hid => ?_, fun hadmitted =>
    ⟨fun id ref hid hedge => ?_, fun hsteady => ?_⟩⟩
  · exact ⟨(hconfines.reaches hid).isLive, hconfines.cell? hid,
      Heap.bytesAt_congr (hconfines.slots id hid)⟩
  · have hold : context.heap.Edge id ref := by
      rw [Heap.edge_iff] at hedge ⊢
      simpa only [hconfines.cell? hid] using hedge
    exact .edge hid hold (hadmitted.noDangling.edge_isLive hid hold)
  · obtain ⟨issued, hcoherent⟩ := hadmitted.coherent
    have hstale : ∀ ref, context.heap.Holds ref → ¬ context.heap.isLive ref.id = true →
        ¬ after.heap.isLive ref.id = true := by
      intro ref hheld hdead
      obtain ⟨issue, hissue, rfl⟩ := hcoherent.held_issued ref hheld
      rw [Issue.id_ref] at hdead ⊢
      exact hcoherent.not_live_of_stale hissue hdead (hsteady _)
    have hreaches := hconfines.reaches_iff hstack hstale
    have hcells := hconfines.cell?_collected_eq hreaches
    refine ⟨hcells, fun hlimit => ?_, ?_, ?_⟩
    · rw [hconfines.sound.usedBytes_collected (hconfines.limits ▸ hlimit),
        hsound.usedBytes_collected hlimit]
      exact Heap.reachedBytes_congr hreaches hconfines.slots
    · exact hsound.atoms.collected.perm_of_cell?_eq hconfines.sound.atoms.collected hcells
    · exact h.heap_reachable.sharingSound.collected.perm_of_cell?_eq hsharing.collected hcells

/-- An armed failure strikes at the second string, when a script and an atom have been
made. They are left behind, and one collection later they are gone. -/
theorem undone_of_materialize_atSecondString :
    ∃ (context after : Context) (returned : List CellRef), Served context returned ∧
      (Context.materialize { revision := .metadata, strings := [[120], [121]] } 1).ending context =
        (.error .outOfMemory, after) ∧
      context.heap.usedBytes < after.heap.usedBytes ∧ context.heap.Admitted ∧
      after.heap.rootStack = context.heap.rootStack ∧
      after.heap.collected.usedBytes = context.heap.collected.usedBytes := by
  have hstart := Served.start (ofConfig?_of_isSome (rfl : (ofConfig? {}).toOption.isSome = true))
  have hready := hstart.request (.perform (.failAfter 4)) (by simp [Request.refs, Operation.refs])
  obtain ⟨context, hserved, hresult, hused, hruns, hsteady, hlimit⟩ :
      ∃ context : Context, Served context _ ∧
        ((Context.materialize { revision := .metadata, strings := [[120], [121]] } 1).ending
          context).1 = .error .outOfMemory ∧
        context.heap.usedBytes < ((Context.materialize
          { revision := .metadata, strings := [[120], [121]] } 1).ending context).2.heap.usedBytes ∧
        context.heap.stats.gcRuns < UInt32.size ∧
        (∀ index < context.heap.slots.size, context.heap.generationAt index ≤
          ((Context.materialize { revision := .metadata, strings := [[120], [121]] } 1).ending
            context).2.heap.generationAt index) ∧
        context.heap.limits.maxBytes < maxSize :=
    ⟨_, hready, by decide +kernel, by decide +kernel, by decide +kernel, by decide +kernel,
      by decide +kernel⟩
  have hundone := undone_of_materialize hserved (Prod.ext hresult rfl)
  have hadmitted := hserved.heap_admitted hruns
  exact ⟨context, _, _, hserved, Prod.ext hresult rfl, hused, hadmitted, hundone.1,
    ((hundone.2.2.2 hadmitted).2 ((History.no_wrap_iff _ _).2 hsteady)).2.1 hlimit⟩

end Served

/-- Zeal, and room for a script beside the global scope. -/
def eagerConfig : EngineConfig where
  heap := { gcThreshold := 128, maxBytes := 128, gcZeal := true }

def eager : Context :=
  ((ofConfig? eagerConfig).toOption.get rfl).1

/-- Requests that sweep a scope and keep its address as a root. -/
def keepSwept : List Request :=
  [.perform (.allocScope .global none), .perform (.allocScope .global none),
    .perform (.addRoot (.scope ⟨⟨1, 0⟩⟩))]

/-- The context with a root for a swept scope. -/
def sweptRooted : Context :=
  { eager with heap := Request.nextAll keepSwept eager.heap }

theorem served_sweptRooted : ∃ returned, Served sweptRooted returned := by
  have hstart : Served eager [.scope eager.globalScope] :=
    .start (ofConfig?_of_isSome (rfl : (ofConfig? eagerConfig).toOption.isSome = true))
  have hscope := hstart.request (.perform (.allocScope .global none))
    (by simp [Request.refs, Operation.refs])
  have hswept := hscope.request (.perform (.allocScope .global none))
    (by simp [Request.refs, Operation.refs])
  exact ⟨_, hswept.request (.perform (.addRoot (.scope ⟨⟨1, 0⟩⟩))) (by decide +kernel)⟩

theorem slot_sweptRooted :
    sweptRooted.heap.passed.collected.slots[1]? = some { generation := 2 } := by
  decide +kernel

theorem pivots_sweptRooted : sweptRooted.heap.passed.collected.Pivots 1 where
  tidy := Heap.tidy_collected _
  zeal := by decide +kernel
  unarmed := by decide +kernel
  freeSlots := by decide +kernel
  vacant := ⟨_, slot_sweptRooted, rfl⟩
  apart := by decide +kernel
  room := by decide +kernel
  limit := by decide +kernel

theorem roots_sweptRooted :
    sweptRooted.heap.roots = [.scope ⟨⟨0, 0⟩⟩, .scope ⟨⟨1, 0⟩⟩] := by
  decide +kernel

/-- The root names none of the scopes that take their turns. -/
theorem not_rooted_sweptRooted (turn : Nat) (hturn : turn + 1 < UInt32.size - 2) :
    ∀ ref ∈ sweptRooted.heap.roots, ref.id ≠ ⟨1, (2 + turn) % UInt32.size⟩ := by
  intro ref href
  rw [roots_sweptRooted] at href
  rw [Nat.mod_eq_of_lt (by omega)]
  rcases List.mem_pair.1 href with rfl | rfl <;> simp [CellRef.id]; omega

/-- The context whose slot has come to the last generation, after more requests. -/
def lastGeneration (requests : List Request) : Context :=
  { sweptRooted with
    heap := Request.nextAll requests (sweptRooted.heap.turnedOver 1 2 (UInt32.size - 2)) }

theorem served_lastGeneration {requests : List Request}
    (hrefs : ∀ request ∈ requests, request.refs = []) :
    ∃ returned, Served (lastGeneration requests) returned := by
  obtain ⟨returned, hserved⟩ := served_sweptRooted
  obtain ⟨more, hturned⟩ := hserved.nextAll (List.replicate (UInt32.size - 2)
    (.perform (.allocScope .global none))) (by simp +contextual [Request.refs, Operation.refs])
  rw [Request.nextAll_turnover pivots_sweptRooted slot_sweptRooted (by decide)
    not_rooted_sweptRooted] at hturned
  obtain ⟨rest, hlast⟩ := hturned.nextAll requests (by simp +contextual [hrefs])
  exact ⟨_, hlast⟩

/-- No generation has started over yet, so an armed failure does not change that. -/
theorem admitted_lastGeneration :
    (lastGeneration [.perform (.failAfter 1)]).heap.Admitted := by
  obtain ⟨returned, hserved⟩ := served_sweptRooted
  have hfirst : ∀ index < sweptRooted.heap.slots.size, sweptRooted.heap.generationAt index ≤
      sweptRooted.heap.passed.collected.generationAt index := by decide +kernel
  have hturned := (hserved.heap_admitted (by decide +kernel)).turnedOver pivots_sweptRooted
    slot_sweptRooted ((History.no_wrap_iff _ _).2 hfirst) (by decide) not_rooted_sweptRooted
  exact hturned.next rfl fun _ => le_rfl

/-- A call of a client fails, and one collection later its script is alive, under an address
that is stale one collection later without the call. -/
structure KeepsFailed (context after : Context) : Prop where
  served : ∃ returned, Served context returned
  failed : (Context.materialize { revision := .metadata } 1).ending context =
    (.error .outOfMemory, after)
  limit : context.heap.limits.maxBytes < maxSize
  stale : context.heap.collected.isLive ⟨1, 0⟩ = false
  alive : after.heap.collected.isLive ⟨1, 0⟩ = true
  usedBytes : context.heap.collected.usedBytes = Charge.scope
  usedBytes_after : after.heap.collected.usedBytes = Charge.scope + Charge.script

/-- Where a generation starts over, a failed call can leave more than garbage. A scope is swept
and its address kept as a root, and its slot is turned over until the generations end. The next
call places its script there, under the address of the root, and fails: the script stays alive.
It does not matter whether the last generation ends in the call, by the collection that it
starts with, or before it, by another one. -/
theorem kept_of_failed_at_lastGeneration :
    (∃ context after, KeepsFailed context after ∧ context.heap.Admitted) ∧
    ∃ context after, KeepsFailed context after ∧
      ∀ index, context.heap.generationAt index ≤ after.heap.generationAt index := by
  constructor
  · have hfailed : ((Context.materialize { revision := .metadata } 1).ending
        (lastGeneration [.perform (.failAfter 1)])).1 = .error .outOfMemory := by decide +kernel
    refine ⟨_, _, ⟨served_lastGeneration (by simp [Request.refs, Operation.refs]),
      Prod.ext hfailed rfl, ?_, ?_, ?_, ?_, ?_⟩, admitted_lastGeneration⟩ <;> decide +kernel
  · have hfailed : ((Context.materialize { revision := .metadata } 1).ending (lastGeneration
        [.perform .collect, .perform (.failAfter 1)])).1 = .error .outOfMemory := by
      decide +kernel
    refine ⟨_, _, ⟨served_lastGeneration (by simp [Request.refs, Operation.refs]),
      Prod.ext hfailed rfl, ?_, ?_, ?_, ?_, ?_⟩, (History.no_wrap_iff _ _).2 ?_⟩ <;> decide +kernel

end Context

end ScriptLinker
